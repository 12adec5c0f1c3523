/-
This file reads the declarations of a source. Tokens are taken from a supply one at a
time up to the end of the file and never beyond it. A declaration is added to the
schema when the token behind its closing brace has been scanned and before that token
is looked at; so a repeated name is reported before a token that is out of place behind
it, but not before a character there that belongs to no token.
-/

import Idl.Declaration.Phase
import Idl.Error
import Idl.Token.Cursor

namespace Idl

/-- What has been read: the declarations so far, the declaration under way, and the token that
was read last. -/
structure Reader where
  schema : Schema
  phase : Phase
  previous : Option Token
deriving DecidableEq, Repr

namespace Reader

/-- Nothing has been read. -/
def start : Reader := ⟨.empty, .fresh, none⟩

/-- The schema with the declaration that has just been closed, if one has. -/
def settle (reader : Reader) : Except Repetition Schema :=
  match reader.phase with
  | .closed declaration => reader.schema.declare declaration
  | _ => .ok reader.schema

/-- The reader behind one more token. -/
def feed (source : Source) (reader : Reader) (token : Token) : Except CompileError Reader :=
  match reader.settle with
  | .error repetition =>
    .error (.semantic (source.diagnostic repetition.message repetition.span))
  | .ok schema =>
    match reader.phase.next? source.tokenSpan token with
    | some phase => .ok ⟨schema, phase, some token⟩
    | none =>
      .error (.syntactic (source.diagnostic (reader.phase.fault reader.previous token).message
        (source.tokenSpan token)))

/-- The schema that is read from a supply of tokens, up to the end of the file. -/
def run {Position : Type} (source : Source) (supply : TokenSupply Diagnostic Position)
    (position : Position) (reader : Reader) : Except CompileError Schema :=
  match _handed : supply.next position with
  | .error diagnostic => .error (.lexical diagnostic)
  | .ok (token, rest) =>
    match reader.feed source token with
    | .error error => .error error
    | .ok reader =>
      if _final : token.kind = .endOfFile then .ok reader.schema
      else run source supply rest reader
termination_by supply.remaining position
decreasing_by exact supply.remaining_lt _handed _final

end Reader

/-- The schema that a source declares, before anything it says has been checked. -/
def Source.parse (source : Source) : Except CompileError Schema :=
  Reader.start.run source source.supply source.start

end Idl
