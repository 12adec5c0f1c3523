/-
This file writes JSON. A value is printed either on one line without a blank, or
spread over lines with two blanks for each level of nesting; empty lists and
records are closed on the line that opens them. Fields keep the order in which
they are listed.
-/

import Idl.Text.Quoted

namespace Idl

/-- The JSON values that schemas and diagnostics are made of. -/
inductive Json where
  | null
  | number (value : Nat)
  | text (content : String)
  | array (items : List Json)
  | object (fields : List (String × Json))

namespace Json

/-- An absent value is written as `null`. -/
def ofOption {Value : Type} (write : Value → Json) : Option Value → Json
  | none => .null
  | some value => write value

/-- The decimal digits of a number. -/
def digits (value : Nat) : List Char := Nat.toDigits 10 value

/-- A text in quotes. -/
def quotedText (content : String) : List Char := Text.quoted content.toList

/-! ### On one line -/

mutual

/-- The value on one line, without blanks. -/
def compactChars : Json → List Char
  | .null => ['n', 'u', 'l', 'l']
  | .number value => digits value
  | .text content => quotedText content
  | .array [] => ['[', ']']
  | .array (first :: rest) => '[' :: (compactChars first ++ compactItems rest)
  | .object [] => ['\x7b', '\x7d']
  | .object ((name, value) :: rest) =>
    '\x7b' :: (quotedText name ++ ':' :: (compactChars value ++ compactFields rest))

/-- The items after the first, and the bracket that closes them. -/
def compactItems : List Json → List Char
  | [] => [']']
  | item :: rest => ',' :: (compactChars item ++ compactItems rest)

/-- The fields after the first, and the brace that closes them. -/
def compactFields : List (String × Json) → List Char
  | [] => ['\x7d']
  | (name, value) :: rest =>
    ',' :: (quotedText name ++ ':' :: (compactChars value ++ compactFields rest))

end

/-- The value on one line, without blanks. -/
def compact (value : Json) : String := String.ofList value.compactChars

/-! ### Spread over lines -/

/-- The start of a new line at a level of nesting. -/
def newLine (level : Nat) : List Char := '\n' :: List.replicate (2 * level) ' '

mutual

/-- The value spread over lines, its first line standing at the given level. -/
def prettyChars (level : Nat) : Json → List Char
  | .null => ['n', 'u', 'l', 'l']
  | .number value => digits value
  | .text content => quotedText content
  | .array [] => ['[', ']']
  | .array (first :: rest) =>
    '[' :: (newLine (level + 1) ++ (prettyChars (level + 1) first ++ prettyItems level rest))
  | .object [] => ['\x7b', '\x7d']
  | .object ((name, value) :: rest) =>
    '\x7b' :: (newLine (level + 1) ++ (quotedText name ++
      ':' :: ' ' :: (prettyChars (level + 1) value ++ prettyFields level rest)))

/-- The items after the first, one level below the bracket that closes them. -/
def prettyItems (level : Nat) : List Json → List Char
  | [] => newLine level ++ [']']
  | item :: rest =>
    ',' :: (newLine (level + 1) ++ (prettyChars (level + 1) item ++ prettyItems level rest))

/-- The fields after the first, one level below the brace that closes them. -/
def prettyFields (level : Nat) : List (String × Json) → List Char
  | [] => newLine level ++ ['\x7d']
  | (name, value) :: rest =>
    ',' :: (newLine (level + 1) ++ (quotedText name ++
      ':' :: ' ' :: (prettyChars (level + 1) value ++ prettyFields level rest)))

end

/-- The value spread over lines, two blanks to a level. -/
def pretty (value : Json) : String := String.ofList (value.prettyChars 0)

end Json

end Idl
