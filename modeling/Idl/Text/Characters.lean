/-
This file fixes the character classes of the interface language. Blanks separate
the words of a line and mean nothing themselves; words are made of ASCII letters,
digits and underscores, and do not open with a digit. Every other character is
either punctuation, which the tokens name one by one, or foreign to the language.
-/

namespace Idl.Text

/-- A blank separates words within a line: a space or a tab. -/
def isBlank (character : Char) : Bool :=
  character == ' ' || character == '\t'

/-- A word opens with an ASCII letter or an underscore. -/
def isWordStart (character : Char) : Bool :=
  character.isAlpha || character == '_'

/-- A word goes on with ASCII letters, digits and underscores. -/
def isWordCharacter (character : Char) : Bool :=
  character.isAlphanum || character == '_'

/-- A word is not empty, opens as a word does and goes on as one. -/
def isWord : List Char → Bool
  | [] => false
  | first :: rest => isWordStart first && rest.all isWordCharacter

theorem isWordCharacter_of_isWordStart {character : Char} (start : isWordStart character) :
    isWordCharacter character := by
  simp only [isWordStart, Bool.or_eq_true] at start
  simp only [isWordCharacter, Char.isAlphanum, Bool.or_eq_true]
  exact start.elim (fun letter => Or.inl (Or.inl letter)) Or.inr

end Idl.Text
