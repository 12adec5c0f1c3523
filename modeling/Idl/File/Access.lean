/-
This file compiles files. All that a file is asked for is its size and its bytes, and
the size comes first: a file that is too large is refused whatever it holds. The bytes
must be UTF-8. How files are reached is left open, so that the same functions serve the
real file system and any model of one.
-/

import Idl.Compile

namespace Idl

/-- What is seen of a file: its size in bytes, and its bytes if they can be read. -/
structure FileView where
  size : Nat
  bytes : Except FileFault ByteArray

/-- How files are reached: looking at one, and writing a text to one. -/
structure FileAccess (Effect : Type → Type) where
  view : String → Effect (Except FileFault FileView)
  write : String → String → Effect (Except FileFault Unit)

/-- Files of so many bytes or more are refused unless another limit is given. -/
def defaultByteLimit : Nat := 10 * 1024 * 1024

/-! ### From what is seen of a file -/

/-- The text of a file below a limit. -/
def fileText (limit : Nat) (path : String) (view : Except FileFault FileView) :
    Except CompileError String :=
  match view with
  | .error fault => .error (.file path fault)
  | .ok view =>
    if limit ≤ view.size then .error (.tooLarge path view.size limit)
    else
      match view.bytes with
      | .error fault => .error (.file path fault)
      | .ok bytes =>
        match String.fromUTF8? bytes with
        | none => .error (.file path .notUtf8)
        | some text => .ok text

/-- The schema of a file that is right in every respect. -/
def compileView (limit : Nat) (path : String) (view : Except FileFault FileView) :
    Except CompileError Schema :=
  match fileText limit path view with
  | .error error => .error error
  | .ok text => compileText path text

/-- Every violation of a rule in a file. -/
def checkView (limit : Nat) (path : String) (view : Except FileFault FileView) :
    Except CompileError (List Violation) :=
  match fileText limit path view with
  | .error error => .error error
  | .ok text => checkText path text

/-! ### From a path -/

namespace FileAccess

variable {Effect : Type → Type} [Monad Effect]

/-- Compile the file at a path. -/
def compileFile (access : FileAccess Effect) (limit : Nat) (path : String) :
    Effect (Except CompileError Schema) := do
  let view ← access.view path
  return compileView limit path view

/-- Check the file at a path. -/
def checkFile (access : FileAccess Effect) (limit : Nat) (path : String) :
    Effect (Except CompileError (List Violation)) := do
  let view ← access.view path
  return checkView limit path view

end FileAccess

end Idl
