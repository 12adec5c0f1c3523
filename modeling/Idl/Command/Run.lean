/-
This file carries out what a command line asks for. Checking goes through the files in
order and stops at the first that is wrong, with a report of everything that is wrong
with it; a file that is right is named on the way. Dumping compiles one file, and only
then touches the file that it writes. Reports in JSON are results and go to the standard
output; reports for a reader go to the standard error.
-/

import Idl.Command.Request
import Idl.Schema.Json

namespace Idl.Command

/-- What is left when a program has run. -/
structure Outcome where
  code : Nat
  output : String
  errors : String
deriving DecidableEq, Repr

/-- The program as it names itself, and its version. -/
def versionLine : String := "hustgen 0.1.0\n"

/-- The last line of a run that fails. -/
def failureLine : String := "compile failed!\n"

/-- Whether reports are coloured, given whether they go to a terminal. -/
def ColorChoice.enabled (terminal : Bool) : ColorChoice → Bool
  | .auto => terminal
  | .always => true
  | .never => false

/-! ### Reports -/

/-- Reports in JSON, one to a line. -/
def jsonReport (diagnostics : List Diagnostic) : String :=
  String.join (diagnostics.map fun diagnostic => diagnostic.json.compact ++ "\n")

/-- Reports for a reader. -/
def readerReport (colored : Bool) (diagnostics : List Diagnostic) : String :=
  String.join (diagnostics.map (Diagnostic.render colored))

/-- The end of a run that fails. -/
def failure (json colored : Bool) (diagnostics : List Diagnostic) : Outcome :=
  if json then ⟨1, jsonReport diagnostics, failureLine⟩
  else ⟨1, "", readerReport colored diagnostics ++ failureLine⟩

/-- The reports of a file that has been checked; there is none if the file is right. -/
def checkReports : Except CompileError (List Violation) → List Diagnostic
  | .error error => [error.diagnostic]
  | .ok violations => violations.map Violation.diagnostic

/-- The line that names a file that is right. -/
def okLine (path : String) : String := path ++ ": ok\n"

/-! ### Commands -/

section

variable {Effect : Type → Type} [Monad Effect]

/-- Check files in order, up to the first that is wrong. -/
def check (access : FileAccess Effect) (limit : Nat) (json colored : Bool) :
    List String → Effect Outcome
  | [] => pure ⟨0, "", ""⟩
  | path :: rest => do
    let checked ← access.checkFile limit path
    match checkReports checked with
    | [] =>
      let later ← check access limit json colored rest
      pure { later with output := okLine path ++ later.output }
    | diagnostics => pure (failure json colored diagnostics)

/-- Show the schema of a file, or write it to another file. -/
def dump (access : FileAccess Effect) (limit : Nat) (colored : Bool) (input : String)
    (output : Option String) : Effect Outcome := do
  let compiled ← access.compileFile limit input
  match compiled, output with
  | .error error, _ => pure (failure false colored [error.diagnostic])
  | .ok schema, none => pure ⟨0, schema.dump ++ "\n", ""⟩
  | .ok schema, some path =>
    let written ← access.write path schema.dump
    match written with
    | .error fault => pure (failure false colored [(CompileError.file path fault).diagnostic])
    | .ok _ => pure ⟨0, "", ""⟩

/-- Carry out a request. -/
def run (access : FileAccess Effect) (terminal : Bool) : Request → Effect Outcome
  | .version => pure ⟨0, versionLine, ""⟩
  | .check files json settings =>
    check access settings.byteLimit json (settings.color.enabled terminal) files
  | .dump input output settings =>
    dump access settings.byteLimit (settings.color.enabled terminal) input output

end

end Idl.Command
