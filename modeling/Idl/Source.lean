/-
This file prepares a text for scanning. Comments, which run from two slashes to the
end of their line, are cut off, and lines with nothing else on them are dropped; the
number of each line that is kept is remembered, so that everything said about the
text afterwards speaks of the lines as their author wrote them. A slash outside a
comment belongs to no word of the language and is refused here.
-/

import Idl.Diagnostic
import Idl.Text.Lines

namespace Idl

/-! ### Comments -/

namespace Text

/-- One step from the right through a line: whether the line from here on opens with a slash, and
the part of it before its first two slashes. -/
def keepCode (character : Char) (state : Bool × List Char) : Bool × List Char :=
  if character == '/' then (true, if state.1 then [] else character :: state.2)
  else (false, character :: state.2)

/-- The part of a line before the first two slashes that stand together. -/
def beforeComment (line : List Char) : List Char :=
  (line.foldr keepCode (false, [])).2

/-- The column of the first slash of a line, if it has one. -/
def slashColumn? (code : List Char) : Option Nat :=
  code.findIdx? fun character => character == '/'

/-- The line holds blanks only. -/
def isBlankLine (code : List Char) : Bool := code.all isBlank

@[simp] theorem beforeComment_nil : beforeComment [] = [] := rfl

private theorem foldr_keepCode_fst (line : List Char) :
    (line.foldr keepCode (false, [])).1 = (line.head? == some '/') := by
  cases line with
  | nil => rfl
  | cons character rest =>
    by_cases slash : character = '/' <;> simp [keepCode, slash]

/-- Two slashes open a comment. -/
theorem beforeComment_slash_slash (rest : List Char) :
    beforeComment ('/' :: '/' :: rest) = [] := by
  simp [beforeComment, keepCode]

/-- A character that opens no comment belongs to the code of its line. -/
theorem beforeComment_cons {character : Char} {rest : List Char}
    (code : ¬ (character = '/' ∧ rest.head? = some '/')) :
    beforeComment (character :: rest) = character :: beforeComment rest := by
  have opens := foldr_keepCode_fst rest
  rw [beforeComment, List.foldr_cons, keepCode]
  by_cases slash : character = '/'
  · have other : rest.head? ≠ some '/' := fun same => code ⟨slash, same⟩
    simp [slash, opens, other, beforeComment]
  · simp [slash, beforeComment]

end Text

/-! ### Sources -/

/-- A text that is ready for scanning. Line `i` of the text, counted from zero, is the code of
line `lineMap[i]` of the file, counted from one. -/
structure Source where
  file : String
  /-- The code that is scanned: the lines that are kept, with line feeds between them. -/
  text : List Char
  /-- The lines that are kept. -/
  lines : List (List Char)
  /-- The number of each line that is kept, in the file as its author wrote it. -/
  lineMap : Array UInt32
  /-- The lines of the file as their author wrote them. -/
  fileLines : Array (List Char)
deriving DecidableEq, Repr

namespace Source

/-- What is said about a slash that opens no comment. -/
def straySlashMessage : String := "expected \"//\" to start a comment"

/-- The report of a slash that stands alone in the code of a line, if there is one. -/
def straySlash? (file : String) (line : List Char) (number : Nat) : Option Diagnostic :=
  (Text.slashColumn? (Text.beforeComment line)).map fun column =>
    { message := straySlashMessage
      file := file
      line := UInt32.ofNat number
      column := some (UInt32.ofNat column)
      spanLength := some 1
      sourceLine := some (String.ofList line) }

/-- The lines with code on them, each with its number. -/
def keptLines (numbered : List (List Char × Nat)) : List (List Char × Nat) :=
  (numbered.map fun line => (Text.beforeComment line.1, line.2)).filter
    fun line => !Text.isBlankLine line.1

/-- The source of a text, or the report of the first slash in it that opens no comment. -/
def ofText (file : String) (text : String) : Except Diagnostic Source :=
  let written := Text.fileLines text.toList
  let numbered := written.zipIdx 1
  match numbered.findSome? fun line => straySlash? file line.1 line.2 with
  | some diagnostic => .error diagnostic
  | none =>
    let kept := keptLines numbered
    let lines := kept.map Prod.fst
    .ok {
      file := file
      text := Text.joinPieces '\n' lines
      lines := lines
      lineMap := (kept.map fun line => UInt32.ofNat line.2).toArray
      fileLines := written.toArray }

/-! ### Places in the file -/

/-- The number that a line of the code has in the file. What lies past the last line of code, as
the end of the text may, is counted to that line. -/
def lineNumber (source : Source) (line : Nat) : UInt32 :=
  (source.lineMap[line]?.or source.lineMap.back?).getD 1

/-- The line of that number as its author wrote it. -/
def fileLine? (source : Source) (line : UInt32) : Option (List Char) :=
  if line == 0 then none else source.fileLines[line.toNat - 1]?

/-- The place in the file of so many characters at a line and a column of the code. -/
def span (source : Source) (line column length : Nat) : Span :=
  ⟨source.lineNumber line, UInt32.ofNat column, UInt32.ofNat length⟩

/-- A report about a place in the file, with the line that it stands on. -/
def diagnostic (source : Source) (message : String) (span : Span) : Diagnostic where
  message := message
  file := source.file
  line := span.line
  column := some span.column
  spanLength := some span.length
  sourceLine := (source.fileLine? span.line).map String.ofList

end Source

end Idl
