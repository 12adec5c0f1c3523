/-
This file follows places from the code of a source back to the text that it was prepared
from. Each line of the code is the beginning of a line of the text, and the line map has
the number of that line; so a place in the code is a place in the text, with the same
column. Numbers are kept in 32 bits, which is enough for a text of fewer than 2^32
characters.
-/

import Idl.Proofs.Lines
import Mathlib.Algebra.Group.Nat.Defs

namespace Idl

open Text (pieces)

/-! ### Lines of a text -/

namespace Text

/-- The line of that number in a text, up to its line feed. Lines are counted from one. -/
def line? (text : List Char) : Nat → Option (List Char)
  | 0 => none
  | index + 1 => (pieces '\n' text)[index]?

/-- The line of that number is shown without the blanks and the carriage returns that may end it. -/
def Shows (text : List Char) (number : UInt32) (shown : List Char) : Prop :=
  ∃ silent, line? text number.toNat = some (shown ++ silent) ∧
    ∀ character ∈ silent, isTrailing character

theorem toNat_ofNat_of_le {number : Nat} {text : String} (short : text.length < 2 ^ 32)
    (fits : number ≤ text.length) : (UInt32.ofNat number).toNat = number :=
  UInt32.toNat_ofNat_of_lt (Nat.lt_of_le_of_lt fits short)

/-- The number of a line that is not empty can be told, and a column of it can. -/
theorem shows_of_getElem?_fileLines {text : String} (short : text.length < 2 ^ 32) {index : Nat}
    {line : List Char} (found : (fileLines text.toList)[index]? = some line)
    (nonempty : line ≠ []) :
    (UInt32.ofNat (index + 1)).toNat = index + 1 ∧ line.length ≤ text.length ∧
      Shows text.toList (UInt32.ofNat (index + 1)) line := by
  obtain ⟨silent, raw, trailing⟩ := exists_append_of_getElem?_fileLines found
  have bound := add_length_le_of_getElem?_pieces raw
  have positive := List.length_pos_of_ne_nil nonempty
  rw [List.length_append, String.length_toList] at bound
  have number := toNat_ofNat_of_le short (show index + 1 ≤ text.length by omega)
  exact ⟨number, by omega, silent, by rw [number]; exact raw, trailing⟩

end Text

namespace Source

variable {file text : String} {source : Source}

/-! ### What a text is prepared to -/

/-- The lines of a text with their numbers. -/
def numberedLines (text : String) : List (List Char × Nat) :=
  (Text.fileLines text.toList).zipIdx 1

/-- The source of a text in which every slash is part of a comment. -/
def prepared (file text : String) : Source where
  file := file
  text := Text.joinPieces '\n' ((keptLines (numberedLines text)).map Prod.fst)
  lines := (keptLines (numberedLines text)).map Prod.fst
  lineMap := ((keptLines (numberedLines text)).map fun line => UInt32.ofNat line.2).toArray
  fileLines := (Text.fileLines text.toList).toArray

theorem ofText_eq (file text : String) :
    ofText file text =
      match (numberedLines text).findSome? fun line => straySlash? file line.1 line.2 with
      | some diagnostic => .error diagnostic
      | none => .ok (prepared file text) :=
  rfl

theorem ofText_eq_error_iff {diagnostic : Diagnostic} :
    ofText file text = .error diagnostic ↔
      ((numberedLines text).findSome? fun line => straySlash? file line.1 line.2) =
        some diagnostic := by
  rw [ofText_eq]
  split
  · next found => rw [found, Except.error.injEq, Option.some.injEq]
  · next none => rw [none]; exact ⟨nofun, nofun⟩

theorem ofText_eq_ok_iff :
    ofText file text = .ok source ↔
      ((numberedLines text).findSome? fun line => straySlash? file line.1 line.2) = none ∧
        source = prepared file text := by
  rw [ofText_eq]
  split
  · next found => rw [found]; exact ⟨nofun, nofun⟩
  · next none => rw [none, Except.ok.injEq, eq_comm, eq_self, true_and]

/-! ### Lines of code -/

/-- A line that is kept is what stands before the comment on a line of the text. -/
theorem exists_of_mem_keptLines {code : List Char} {number : Nat}
    (member : (code, number) ∈ keptLines (numberedLines text)) :
    ∃ place line, (Text.fileLines text.toList)[place]? = some line ∧ line ≠ [] ∧
      code = Text.beforeComment line ∧ number = place + 1 := by
  obtain ⟨inMapped, notBlank⟩ := List.mem_filter.mp member
  obtain ⟨⟨line, _⟩, inNumbered, same⟩ := List.mem_map.mp inMapped
  cases same
  obtain ⟨place, rfl⟩ := Nat.exists_eq_add_of_le (List.le_snd_of_mem_zipIdx inNumbered)
  refine ⟨place, line, List.mk_add_mem_zipIdx_iff_getElem?.mp inNumbered, ?_, rfl,
    Nat.add_comm 1 place⟩
  rintro rfl
  exact absurd (show false = true from notBlank) Bool.false_ne_true

theorem exists_of_getElem?_lines {index : Nat} {code : List Char}
    (found : (prepared file text).lines[index]? = some code) :
    ∃ place line, (Text.fileLines text.toList)[place]? = some line ∧ line ≠ [] ∧
      code = Text.beforeComment line ∧
      (prepared file text).lineMap[index]? = some (UInt32.ofNat (place + 1)) := by
  have mapped : ((keptLines (numberedLines text)).map Prod.fst)[index]? = some code := found
  rw [List.getElem?_map] at mapped
  obtain ⟨⟨_, number⟩, kept, rfl⟩ := Option.map_eq_some_iff.mp mapped
  obtain ⟨place, line, inFile, nonempty, shape, rfl⟩ :=
    exists_of_mem_keptLines (List.mem_of_getElem? kept)
  refine ⟨place, line, inFile, nonempty, shape, ?_⟩
  rw [prepared, List.getElem?_toArray, List.getElem?_map, kept]
  rfl

/-- The number of a line that is kept can be told. -/
theorem toNat_of_mem_keptLines (short : text.length < 2 ^ 32) {line : List Char × Nat}
    (member : line ∈ keptLines (numberedLines text)) : (UInt32.ofNat line.2).toNat = line.2 := by
  obtain ⟨code, number⟩ := line
  obtain ⟨place, line, inFile, nonempty, _, rfl⟩ := exists_of_mem_keptLines member
  exact (Text.shows_of_getElem?_fileLines short inFile nonempty).1

theorem newline_notMem_lines {code : List Char} (member : code ∈ (prepared file text).lines) :
    '\n' ∉ code := by
  obtain ⟨index, found⟩ := List.getElem?_of_mem member
  obtain ⟨place, line, inFile, _, rfl, _⟩ := exists_of_getElem?_lines found
  obtain ⟨silent, raw, _⟩ := Text.exists_append_of_getElem?_fileLines inFile
  obtain ⟨comment, shape, _⟩ := Text.exists_beforeComment_append line
  intro inCode
  have inRaw : '\n' ∈ line ++ silent := by
    rw [shape]
    exact List.mem_append_left _ (List.mem_append_left _ inCode)
  exact (Text.of_mem_pieces (List.mem_of_getElem? raw) inRaw).2 rfl

/-- The code is cut at its line feeds into the lines that it was put together from. -/
theorem pieces_text (nonempty : (prepared file text).lines ≠ []) :
    pieces '\n' (prepared file text).text = (prepared file text).lines :=
  Text.pieces_joinPieces nonempty fun code (member : code ∈ (prepared file text).lines) =>
    newline_notMem_lines member

/-- What stands on a line of the code stands on the line of the text that has its number, and at
the same column. -/
theorem shows_of_getElem?_pieces (short : text.length < 2 ^ 32)
    (nonempty : (prepared file text).lines ≠ []) {index : Nat} {code : List Char}
    (found : (pieces '\n' (prepared file text).text)[index]? = some code) :
    ∃ shown rest, shown = code ++ rest ∧ shown.length ≤ text.length ∧
      Text.Shows text.toList ((prepared file text).lineNumber index) shown ∧
      (prepared file text).fileLine? ((prepared file text).lineNumber index) = some shown := by
  rw [pieces_text nonempty] at found
  obtain ⟨place, line, inFile, lineNonempty, rfl, mapped⟩ := exists_of_getElem?_lines found
  obtain ⟨comment, shape, _⟩ := Text.exists_beforeComment_append line
  obtain ⟨number, fits, shows⟩ := Text.shows_of_getElem?_fileLines short inFile lineNonempty
  have lineNumber : (prepared file text).lineNumber index = UInt32.ofNat (place + 1) := by
    rw [Source.lineNumber, mapped, Option.some_or, Option.getD_some]
  have notZero : ¬ (UInt32.ofNat (place + 1) == 0) = true := by
    intro same
    rw [beq_iff_eq.mp same] at number
    exact nomatch number
  refine ⟨line, comment, shape, fits, lineNumber ▸ shows, ?_⟩
  rw [lineNumber, fileLine?, if_neg notZero, number, Nat.add_sub_cancel, prepared,
    List.getElem?_toArray, inFile]

end Source

end Idl
