/-
This file cuts a text into lines. What ends a text without saying anything --
blanks, carriage returns and line feeds -- is left out first; the rest is cut at
its line feeds, and a carriage return that closes a line is part of the line's
ending rather than of the line.
-/

import Idl.Text.Characters
import Idl.Text.Pieces

namespace Idl.Text

/-! ### The end of a text -/

/-- What a text may end with without saying anything. -/
def isTrailing (character : Char) : Bool :=
  isBlank character || character == '\r' || character == '\n'

/-- The text without the characters at its end that say nothing. -/
def trimEnd (text : List Char) : List Char :=
  text.foldr (fun character kept =>
    if kept.isEmpty && isTrailing character then [] else character :: kept) []

@[simp] theorem trimEnd_nil : trimEnd [] = [] := rfl

theorem trimEnd_cons (character : Char) (rest : List Char) :
    trimEnd (character :: rest) =
      if (trimEnd rest).isEmpty && isTrailing character then [] else character :: trimEnd rest :=
  rfl

/-! ### The lines of a file -/

/-- The line without the carriage return that may close it. -/
def dropReturn (line : List Char) : List Char :=
  if line.getLast? == some '\r' then line.dropLast else line

/-- The lines of a file as their author sees them: none if the file says nothing. -/
def fileLines (text : List Char) : List (List Char) :=
  match trimEnd text with
  | [] => []
  | first :: rest => (pieces '\n' (first :: rest)).map dropReturn

end Idl.Text
