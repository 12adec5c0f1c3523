/-
This file shows that a report underlines what it speaks of. The row of the source line is
put together from three slices, which make up the line whatever is marked in it; the row
below has a blank for every character in front of the marked words and then its carets.
Since blanks are counted in characters, as columns are, each caret stands below the
character that it marks, and colouring the words inserts two sequences and moves nothing.
-/

import Idl.Diagnostic
import Mathlib.Data.List.Basic

namespace Idl

namespace Diagnostic

/-! ### Carets -/

/-- The row below a source line: blanks, and carets behind them. -/
def caretRow (blanks width : Nat) : List Char :=
  List.replicate blanks ' ' ++ List.replicate width '^'

/-- A caret stands at the places behind the blanks, and nowhere else. -/
theorem getElem?_caretRow_iff {blanks width index : Nat} :
    (caretRow blanks width)[index]? = some '^' ↔ blanks ≤ index ∧ index < blanks + width := by
  rw [caretRow]
  by_cases blank : index < blanks
  · rw [List.getElem?_append_left (by rwa [List.length_replicate]),
      List.getElem?_replicate_of_lt blank]
    simp [Nat.not_le_of_lt blank]
  · have behind : blanks ≤ index := Nat.le_of_not_lt blank
    rw [List.getElem?_append_right (by rwa [List.length_replicate]), List.length_replicate,
      List.getElem?_replicate]
    simp only [behind, true_and]
    split
    · next inside => simp; omega
    · next outside => simp; omega

/-! ### Slices -/

theorem take_append_marked_append (line : List Char) (first width : Nat) :
    line.take first ++ ((line.drop first).take width ++ (line.drop first).drop width) = line := by
  rw [List.take_append_drop, List.take_append_drop]

/-- What is marked of a line lies between the first column and the end of the carets or of the
line, whichever comes first. -/
theorem take_drop_eq_drop_take (line : List Char) (first width : Nat) :
    (line.drop first).take width = (line.take (min (first + width) line.length)).drop first := by
  rw [← List.take_take, List.take_length, List.drop_take, Nat.add_sub_cancel_left]

/-! ### Colour -/

/-- Words that are there are put between the two sequences. -/
theorem ofList_mark_true (words : List Char) :
    String.ofList (mark true words) =
      if String.ofList words = "" then String.ofList words
      else "\x1b[1;31m" ++ String.ofList words ++ "\x1b[0m" := by
  cases words with
  | nil => rfl
  | cons first rest =>
    have some : String.ofList (first :: rest) ≠ "" := fun none =>
      List.cons_ne_nil first rest (String.ofList_eq_empty_iff.mp none)
    rw [if_neg some, ← String.toList_inj]
    simp [mark, highlight, reset]

/-! ### Rows -/

section

variable (message file : String) (line column : UInt32) (length : Option UInt32)
  (sourceLine : String)

/-- A report that knows its column and the line of the source that it stands on. -/
def marking : Diagnostic := ⟨message, file, line, some column, length, some sourceLine⟩

/-- What stands in front of the source line. -/
def placeMark : String :=
  "[" ++ file ++ ":" ++ toString line.toNat ++ ":" ++ toString column.toNat ++ "] "

/-- The part of the source line in front of what is marked. -/
def beforeMarked : List Char := sourceLine.toList.take column.toNat

/-- The part of the source line that is marked, given how many carets there are. -/
def marked (width : Nat) : List Char := (sourceLine.toList.drop column.toNat).take width

/-- The part of the source line behind what is marked. -/
def afterMarked (width : Nat) : List Char := (sourceLine.toList.drop column.toNat).drop width

/-- Everything in front of the marked words. -/
def above : String :=
  message ++ ":\n" ++ placeMark file line column ++ String.ofList (beforeMarked column sourceLine)

/-- Everything behind the marked words: the rest of the source line, and the carets. -/
def beneath (width : Nat) : String :=
  String.ofList (afterMarked column sourceLine width) ++ "\n" ++
    String.ofList (caretRow ((placeMark file line column).length +
      min column.toNat sourceLine.toList.length) width) ++ "\n"

theorem toList_placeMark :
    (placeMark file line column).toList =
      ('[' :: ((marking message file line column length sourceLine).location.toList ++ [']'])) ++
        [' '] := by
  simp [placeMark, location, marking]

/-- The two rows below the message: the place and the three slices of the source line, and the
carets. -/
theorem rows_marking (colored : Bool) :
    let width := max 1 (length.getD 1).toNat
    (marking message file line column length sourceLine).rows colored =
      [(placeMark file line column).toList ++ (beforeMarked column sourceLine ++
          (mark colored (marked column sourceLine width) ++ afterMarked column sourceLine width)),
        caretRow ((placeMark file line column).length + min column.toNat sourceLine.toList.length)
          width] := by
  intro width
  have place := toList_placeMark message file line column length sourceLine
  have blanks := congrArg List.length place
  rw [List.length_append, String.length_toList] at blanks
  rw [blanks, place, List.append_assoc, ← List.length_take]
  rfl

theorem render_marking (colored : Bool) :
    let width := max 1 (length.getD 1).toNat
    (marking message file line column length sourceLine).render colored =
      above message file line column sourceLine ++
        String.ofList (mark colored (marked column sourceLine width)) ++
        beneath file line column sourceLine width := by
  intro width
  rw [← String.toList_inj, render, rows_marking]
  simp [above, beneath, marking, width]

end

/-- A report with a source line shows the line as it is, and below it carets at the columns from
the first one on, as many as the length says; a caret below a character of the line marks this
very character. Colour is put around the words that are marked, and changes nothing else. -/
theorem render_underlines (message file : String) (line column : UInt32) (length : Option UInt32)
    (sourceLine : String) :
    let report : Diagnostic := ⟨message, file, line, some column, length, some sourceLine⟩
    let place := "[" ++ file ++ ":" ++ toString line.toNat ++ ":" ++ toString column.toNat ++ "] "
    let text := sourceLine.toList
    let first := column.toNat
    let width := max 1 (length.getD 1).toNat
    let shown := (place ++ sourceLine).toList
    let blanks := place.length + min first text.length
    let below := List.replicate blanks ' ' ++ List.replicate width '^'
    let marked := String.ofList ((text.take (min (first + width) text.length)).drop first)
    let before := message ++ ":\n" ++ place ++ String.ofList (text.take first)
    let after := String.ofList (text.drop (first + width)) ++ "\n" ++ String.ofList below ++ "\n"
    report.render false =
        message ++ ":\n" ++ place ++ sourceLine ++ "\n" ++ String.ofList below ++ "\n" ∧
      (∀ index, below[index]? = some '^' ↔ blanks ≤ index ∧ index < blanks + width) ∧
      (∀ position, first ≤ position → position < first + width → position < text.length →
        below[place.length + position]? = some '^' ∧
          shown[place.length + position]? = text[position]?) ∧
      (text.length ≤ first → blanks = shown.length) ∧
      report.render false = before ++ marked ++ after ∧
      report.render true =
        if marked = "" then report.render false
        else before ++ "\x1b[1;31m" ++ marked ++ "\x1b[0m" ++ after := by
  intro report place text first width shown blanks below marked before after
  have slice : marked = String.ofList (Diagnostic.marked column sourceLine width) :=
    congrArg String.ofList (take_drop_eq_drop_take text first width).symm
  have behind : after = beneath file line column sourceLine width := by
    rw [beneath, afterMarked, List.drop_drop]
    rfl
  have plain : report.render false = before ++ marked ++ after := by
    rw [slice, behind]
    exact render_marking message file line column length sourceLine false
  have whole : ∀ rest : String, String.ofList (text.take first) ++
      (marked ++ (String.ofList (text.drop (first + width)) ++ rest)) = sourceLine ++ rest := by
    intro rest
    have joined := take_append_marked_append text first width
    rw [List.drop_drop] at joined
    rw [slice, ← String.append_assoc, ← String.append_assoc, ← String.ofList_append,
      ← String.ofList_append, List.append_assoc]
    exact congrArg (· ++ rest) ((congrArg String.ofList joined).trans String.ofList_toList)
  refine ⟨?_, fun index => getElem?_caretRow_iff, ?_, ?_, plain, ?_⟩
  · rw [plain]
    simp only [before, after, String.append_assoc, whole]
  · intro position low high inside
    have start : blanks = place.length + first :=
      congrArg (place.length + ·) (Nat.min_eq_left (by omega))
    refine ⟨getElem?_caretRow_iff.mpr ⟨by omega, by omega⟩, ?_⟩
    have parts : shown = place.toList ++ text := String.toList_append
    rw [parts, List.getElem?_append_right (by rw [String.length_toList]; omega),
      String.length_toList, Nat.add_sub_cancel_left]
  · intro short
    rw [String.length_toList, String.length_append, ← String.length_toList (s := sourceLine)]
    exact congrArg (place.length + ·) (Nat.min_eq_right short)
  · have coloured : report.render true =
        before ++ String.ofList (mark true (Diagnostic.marked column sourceLine width)) ++ after := by
      rw [behind]
      exact render_marking message file line column length sourceLine true
    rw [coloured, ofList_mark_true, ← slice]
    split
    · exact plain.symm
    · simp only [String.append_assoc]

/-- Characters of several bytes are counted as one: in the file name, in front of the marked words
and among them. Behind the end of a line the carets begin where the line ends. -/
theorem wideLine_underlined :
    let shown := "[π.idl:3:1] \tλ🙂x".toList
    let below := List.replicate 13 ' ' ++ List.replicate 2 '^'
    (Diagnostic.render false ⟨"odd", "π.idl", 3, some 1, some 2, some "\tλ🙂x"⟩ =
        "odd:\n[π.idl:3:1] \tλ🙂x\n             ^^\n" ∧
      below[14]? = some '^' ∧ shown[14]? = some '🙂') ∧
    "[π.idl:3:9] ".length + min 9 "\tλ🙂x".toList.length = "[π.idl:3:9] \tλ🙂x".toList.length := by
  intro shown below
  obtain ⟨rendered, _, marks, _⟩ := render_underlines "odd" "π.idl" 3 1 (some 2) "\tλ🙂x"
  obtain ⟨_, _, _, past, _⟩ := render_underlines "odd" "π.idl" 3 9 none "\tλ🙂x"
  exact ⟨⟨rendered.trans (by decide), marks 2 (by decide) (by decide) (by decide)⟩,
    past (by decide)⟩

end Diagnostic

end Idl
