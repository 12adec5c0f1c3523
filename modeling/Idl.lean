import Idl.Text.Characters
import Idl.Text.Pieces
import Idl.Text.Lines
import Idl.Text.Quoted
import Idl.Json
import Idl.Span
import Idl.Diagnostic
import Idl.Builtin
import Idl.SymbolTable
import Idl.Schema.Basic
import Idl.Schema.Alike
import Idl.Schema.Edit
import Idl.Schema.Json
import Idl.Schema.Size
import Idl.Schema.Summary
import Idl.Source
import Idl.Token.Basic
import Idl.Token.Cursor
import Idl.Error
import Idl.Declaration.Basic
import Idl.Declaration.Phase
import Idl.Declaration.Reader
import Idl.Violation
import Idl.Compile
import Idl.Sample
import Idl.File.Access
import Idl.File.Tree
import Idl.Command.Request
import Idl.Command.Run
import Idl.Main
import Idl.Proofs.Sentences
import Idl.Proofs.Derivations
import Idl.Proofs.Registration
import Idl.Proofs.Reading
import Idl.Proofs.Lexemes
import Idl.Proofs.SyntaxErrors
import Idl.Proofs.Precedence
import Idl.Proofs.Rules
import Idl.Proofs.Verified
import Idl.Proofs.Findings
import Idl.Proofs.Emptying
import Idl.Proofs.Lines
import Idl.Proofs.Places
import Idl.Proofs.Prepared
import Idl.Proofs.Positions
import Idl.Proofs.Relocation
import Idl.Proofs.Rereading
import Idl.Proofs.TrailingBlanks
import Idl.Proofs.InvisibleLines
import Idl.Proofs.Insertion
import Idl.Proofs.Dumped
import Idl.Proofs.Concatenation
import Idl.Proofs.Permutation
import Idl.Proofs.Printing
import Idl.Proofs.Lexing
import Idl.Proofs.Checking
import Idl.Proofs.Edits
import Idl.Proofs.Written
import Idl.Proofs.References
import Idl.Proofs.Exhaustive
import Idl.Proofs.Retained
import Idl.Proofs.Extension
import Idl.Proofs.Descent
import Idl.Proofs.DescentPhases
import Idl.Proofs.Requests
import Idl.Proofs.JsonLines
import Idl.Proofs.Rendering
import Idl.Proofs.Sizes
import Idl.Proofs.LineEndings
