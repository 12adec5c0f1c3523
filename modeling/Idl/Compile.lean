/-
This file compiles texts. A text is prepared, its declarations are read, and what they
say is checked: compiling stops at the first problem of any kind, checking goes on and
lists every violation of a rule, and both agree on which texts are right. A method that
is declared to take `void` and nothing else comes out of compiling as one that takes
nothing.
-/

import Idl.Declaration.Reader
import Idl.Violation

namespace Idl

/-- The schema once it is known to break no rule, or the first violation in it. -/
def Schema.verify (schema : Schema) (source : Source) : Except CompileError Schema :=
  match schema.findings with
  | [] => .ok schema.clearVoid
  | first :: _ => .error (.semantic (first.diagnostic source))

/-- Check the schema at hand. If it breaks no rule, the request lists that hold nothing but `void`
are emptied where they stand; if it does, it is left as it is and the first violation is handed
back. -/
def Schema.verifyInPlace (source : Source) : StateM Schema (Except CompileError Unit) := do
  match (← get).violations source with
  | [] =>
    modify Schema.clearVoid
    return .ok ()
  | first :: _ => return .error (.semantic first.diagnostic)

/-- The source of a text and the schema that it declares, before any rule has been checked. -/
def readText (file text : String) : Except CompileError (Source × Schema) :=
  match Source.ofText file text with
  | .error diagnostic => .error (.lexical diagnostic)
  | .ok source =>
    match source.parse with
    | .error error => .error error
    | .ok schema => .ok (source, schema)

/-- The schema of a text that is right in every respect. The name of the file only labels
reports. -/
def compileText (file text : String) : Except CompileError Schema :=
  match readText file text with
  | .error error => .error error
  | .ok (source, schema) => schema.verify source

/-- Every violation of a rule in a text. A text that cannot be read fails as it does when it is
compiled. -/
def checkText (file text : String) : Except CompileError (List Violation) :=
  match readText file text with
  | .error error => .error error
  | .ok (source, schema) => .ok (schema.violations source)

end Idl
