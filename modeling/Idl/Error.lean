/-
This file lists the ways in which compiling a file can fail. Either the file cannot
be read, or is too large to be read at all, and then there is no place to point at;
or its text is wrong at a place: in its characters, in the order of its tokens, or in
what its declarations say.
-/

import Idl.Diagnostic

namespace Idl

/-! ### Failures of a file -/

/-- Why a file cannot be read or written. -/
inductive FileFault where
  | notFound
  | notDirectory
  | isDirectory
  | nameTooLong
  | nullByte
  | notUtf8
  /-- Any other failure, in the words and with the number of the operating system. -/
  | system (description : String) (number : Nat)
deriving DecidableEq, Repr

namespace FileFault

/-- The failure that the operating system gives a number to. -/
def ofNumber (description : String) (number : Nat) : FileFault :=
  if number == 2 then .notFound
  else if number == 20 then .notDirectory
  else if number == 21 then .isDirectory
  else if number == 36 then .nameTooLong
  else .system description number

/-- A failure in words, with the number that the operating system gives it. -/
def numbered (description : String) (number : Nat) : String :=
  description ++ " (os error " ++ toString number ++ ")"

/-- The failure in words. -/
def message : FileFault → String
  | .notFound => numbered "No such file or directory" 2
  | .notDirectory => numbered "Not a directory" 20
  | .isDirectory => numbered "Is a directory" 21
  | .nameTooLong => numbered "File name too long" 36
  | .nullByte => "file name contained an unexpected NUL byte"
  | .notUtf8 => "stream did not contain valid UTF-8"
  | .system description number => numbered description number

end FileFault

/-! ### Failures of a compilation -/

/-- Why a file does not compile. -/
inductive CompileError where
  | file (path : String) (fault : FileFault)
  | tooLarge (path : String) (size limit : Nat)
  | lexical (diagnostic : Diagnostic)
  | syntactic (diagnostic : Diagnostic)
  | semantic (diagnostic : Diagnostic)
deriving DecidableEq, Repr

/-- The broad categories of failure. -/
inductive ErrorKind where
  | file
  | lexical
  | syntactic
  | semantic
deriving DecidableEq, Repr

namespace CompileError

/-- The category of a failure. -/
def kind : CompileError → ErrorKind
  | .file _ _ => .file
  | .tooLarge _ _ _ => .file
  | .lexical _ => .lexical
  | .syntactic _ => .syntactic
  | .semantic _ => .semantic

/-- The report of a failure that has a place in the text. -/
def placed? : CompileError → Option Diagnostic
  | .file _ _ => none
  | .tooLarge _ _ _ => none
  | .lexical diagnostic => some diagnostic
  | .syntactic diagnostic => some diagnostic
  | .semantic diagnostic => some diagnostic

/-- The failure on one line. -/
def message : CompileError → String
  | .file path fault => "I/O error on " ++ path ++ ": " ++ fault.message
  | .tooLarge path size limit =>
    path ++ " is " ++ toString size ++ " bytes, source files must be smaller than " ++
      toString limit ++ " bytes"
  | .lexical diagnostic => "lex error at " ++ diagnostic.display
  | .syntactic diagnostic => "syntax error at " ++ diagnostic.display
  | .semantic diagnostic => "semantic error at " ++ diagnostic.display

/-- The report of any failure. One without a place is reported against line zero of its file. -/
def diagnostic (error : CompileError) : Diagnostic :=
  match error with
  | .file path _ => .atLine error.message path 0
  | .tooLarge path _ _ => .atLine error.message path 0
  | .lexical diagnostic => diagnostic
  | .syntactic diagnostic => diagnostic
  | .semantic diagnostic => diagnostic

end CompileError

end Idl
