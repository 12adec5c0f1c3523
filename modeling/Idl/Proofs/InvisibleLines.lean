/-
This file inserts lines that say nothing: blank ones, and ones with nothing but a comment.
The lines with code on them stay the same and are given other numbers, and so is the
first slash that opens no comment. What is cut off at the end of a text is of no
consequence either, save for blanks behind the last line of code, as long as carriage
returns stand only at the ends of lines.
-/

import Idl.Proofs.Prepared
import Mathlib.Data.List.Chain

namespace Idl

namespace Text

/-! ### Texts and lines -/

/-- Every carriage return stands at the end of a line or of the text. -/
def ReturnsEndLines (text : List Char) : Prop :=
  text.IsChain fun character next => character = '\r' → next = '\n'

/-- The line says nothing: it has blanks on it, and possibly a comment behind them. -/
def Invisible (line : List Char) : Prop :=
  ∃ blanks comment, line = blanks ++ comment ∧ (∀ character ∈ blanks, isBlank character) ∧
    '\r' ∉ comment ∧ '\n' ∉ comment ∧ (comment = [] ∨ ∃ words, comment = '/' :: '/' :: words)

/-- The new lines are the old ones with invisible lines inserted between them, before them or
behind them. The number of each old line is taken to its new number; the first of the lines have
the two numbers given. -/
inductive Inserted (renumber : Nat → Nat) :
    Nat → Nat → List (List Char) → List (List Char) → Prop where
  | nil {number next : Nat} : Inserted renumber number next [] []
  | line {number next : Nat} {line : List Char} {old new : List (List Char)}
      (taken : renumber number = next) (rest : Inserted renumber (number + 1) (next + 1) old new) :
      Inserted renumber number next (line :: old) (line :: new)
  | invisible {number next : Nat} {line : List Char} {old new : List (List Char)}
      (invisible : Invisible line) (rest : Inserted renumber number (next + 1) old new) :
      Inserted renumber number next old (line :: new)
  /-- A line feed that closes the last line needs to open no other. -/
  | ending {number next : Nat} : Inserted renumber number next [[]] []

/-! ### Single lines -/

/-- Within a line there is no carriage return. -/
theorem return_notMem_dropReturn {text line : List Char} (returns : ReturnsEndLines text)
    (member : line ∈ pieces '\n' text) : '\r' ∉ dropReturn line := by
  obtain ⟨ending, shape, ends⟩ := exists_dropReturn_append line
  have withinLine := List.IsChain.infix returns (infix_of_mem_pieces member)
  have chain := List.isChain_iff_forall_rel_of_append_cons_cons.mp withinLine
  intro inLine
  obtain ⟨before, after, cutLine⟩ := List.append_of_mem inLine
  rw [cutLine, List.append_assoc, List.cons_append] at shape
  cases behind : after ++ ending with
  | nil =>
    obtain ⟨rfl, rfl⟩ := List.append_eq_nil_iff.mp behind
    rw [shape, List.append_nil, dropReturn, List.getLast?_concat,
      if_pos (beq_self_eq_true _), List.dropLast_concat] at cutLine
    exact absurd (congrArg List.length cutLine) (by simp)
  | cons next others =>
    rw [behind] at shape
    have inPiece : next ∈ line := by
      rw [shape]
      simp
    exact (of_mem_pieces member inPiece).2 (chain shape rfl)

theorem slash_notMem_of_blank {line : List Char}
    (blank : ∀ character ∈ line, isBlank character) : '/' ∉ line :=
  fun member => absurd (blank '/' member) (by decide)

theorem slashColumn?_of_blank {line : List Char}
    (blank : ∀ character ∈ line, isBlank character) : slashColumn? line = none := by
  rw [slashColumn?, List.findIdx?_eq_none_iff]
  intro character member
  exact beq_eq_false_iff_ne.mpr fun same => slash_notMem_of_blank blank (same ▸ member)

/-- An invisible line has no code on it, and nothing is cut off at its end. -/
theorem Invisible.spec {line : List Char} (invisible : Invisible line) :
    dropReturn line = line ∧ isBlankLine (beforeComment line) ∧
      slashColumn? (beforeComment line) = none := by
  obtain ⟨blanks, comment, rfl, blank, noReturn, _, opens⟩ := invisible
  have clean := slash_notMem_of_blank blank
  have code : beforeComment (blanks ++ comment) = blanks := by
    rw [beforeComment_append_of_notMem clean]
    rcases opens with rfl | ⟨words, rfl⟩
    · rw [beforeComment_nil, List.append_nil]
    · rw [beforeComment_slash_slash, List.append_nil]
  have uncut : dropReturn (blanks ++ comment) = blanks ++ comment := by
    rw [dropReturn, if_neg]
    intro ends
    rcases List.mem_append.mp (List.mem_of_getLast? (beq_iff_eq.mp ends)) with inBlanks | inComment
    · exact absurd (blank _ inBlanks) (by decide)
    · exact noReturn inComment
  refine ⟨uncut, ?_, ?_⟩
  · rw [code, isBlankLine, List.all_eq_true]
    exact blank
  · rw [code]
    exact slashColumn?_of_blank blank

theorem isBlank_of_isTrailing {line : List Char}
    (trailing : ∀ character ∈ line, isTrailing character) (noReturn : '\r' ∉ line)
    (noFeed : '\n' ∉ line) : ∀ character ∈ line, isBlank character := by
  intro character member
  have silent := trailing character member
  rw [isTrailing, Bool.or_eq_true, Bool.or_eq_true, beq_iff_eq, beq_iff_eq] at silent
  rcases silent with (blank | rfl) | rfl
  · exact blank
  · exact absurd member noReturn
  · exact absurd member noFeed

/-- What is left of the silent end of a line is blank, once a carriage return has been dropped. -/
theorem isBlank_of_dropReturn {text front silent : List Char}
    (member : front ++ silent ∈ pieces '\n' text)
    (trailing : ∀ character ∈ silent, isTrailing character)
    (noReturn : '\r' ∉ dropReturn silent) :
    ∀ character ∈ dropReturn silent, isBlank character := by
  obtain ⟨ending, shape, _⟩ := exists_dropReturn_append silent
  have among : ∀ character ∈ dropReturn silent, character ∈ silent := by
    intro character inKept
    rw [shape]
    exact List.mem_append_left _ inKept
  refine isBlank_of_isTrailing (fun character inKept => trailing _ (among _ inKept)) noReturn ?_
  intro feed
  exact (of_mem_pieces member (List.mem_append_right _ (among _ feed))).2 rfl

end Text

namespace Source

open Text (Inserted dropReturn beforeComment)

/-! ### Numbered lines -/

/-- The lines without what closes them, numbered from a first number on. -/
def numberedFrom (first : Nat) (lines : List (List Char)) : List (List Char × Nat) :=
  (lines.map dropReturn).zipIdx first

/-- The line and the column of the first slash that opens no comment. -/
def firstSlash? (numbered : List (List Char × Nat)) : Option (Nat × Nat) :=
  numbered.findSome? fun line =>
    (Text.slashColumn? (beforeComment line.1)).map fun column => (line.2, column)

theorem keptLines_append (first second : List (List Char × Nat)) :
    keptLines (first ++ second) = keptLines first ++ keptLines second := by
  rw [keptLines, List.map_append, List.filter_append]
  rfl

theorem firstSlash?_append (first second : List (List Char × Nat)) :
    firstSlash? (first ++ second) = (firstSlash? first).or (firstSlash? second) :=
  List.findSome?_append

theorem keptLines_cons_of_blank {line : List Char} (blank : Text.isBlankLine (beforeComment line))
    (number : Nat) (rest : List (List Char × Nat)) :
    keptLines ((line, number) :: rest) = keptLines rest := by
  rw [keptLines, List.map_cons, List.filter_cons_of_neg (by simpa using blank)]
  rfl

theorem keptLines_cons_of_not_blank {line : List Char}
    (code : ¬ Text.isBlankLine (beforeComment line)) (number : Nat)
    (rest : List (List Char × Nat)) :
    keptLines ((line, number) :: rest) = (beforeComment line, number) :: keptLines rest := by
  rw [keptLines, List.map_cons, List.filter_cons_of_pos (by simpa using code)]
  rfl

theorem firstSlash?_cons (line : List Char) (number : Nat) (rest : List (List Char × Nat)) :
    firstSlash? ((line, number) :: rest) =
      ((Text.slashColumn? (beforeComment line)).map fun column => (number, column)).or
        (firstSlash? rest) := by
  rw [firstSlash?, List.findSome?_cons]
  cases Text.slashColumn? (beforeComment line) <;> rfl

/-! ### Inserted lines -/

variable {renumber : Nat → Nat} {number next : Nat} {old new : List (List Char)}

/-- Inserted lines add no code. -/
theorem keptLines_of_inserted (inserted : Inserted renumber number next old new) :
    keptLines (numberedFrom next new) =
      (keptLines (numberedFrom number old)).map fun line => (line.1, renumber line.2) := by
  induction inserted with
  | nil | ending => rfl
  | @line number next line old new taken rest inductionHypothesis =>
    have oldStep : numberedFrom number (line :: old) =
        (dropReturn line, number) :: numberedFrom (number + 1) old := rfl
    have newStep : numberedFrom next (line :: new) =
        (dropReturn line, next) :: numberedFrom (next + 1) new := rfl
    rw [oldStep, newStep]
    by_cases blank : Text.isBlankLine (beforeComment (dropReturn line))
    · rw [keptLines_cons_of_blank blank, keptLines_cons_of_blank blank, inductionHypothesis]
    · rw [keptLines_cons_of_not_blank blank, keptLines_cons_of_not_blank blank, List.map_cons,
        inductionHypothesis, taken]
  | @invisible number next line old new invisible rest inductionHypothesis =>
    obtain ⟨uncut, blank, _⟩ := invisible.spec
    have newStep : numberedFrom next (line :: new) =
        (dropReturn line, next) :: numberedFrom (next + 1) new := rfl
    rw [newStep, uncut, keptLines_cons_of_blank blank, inductionHypothesis]

/-- Inserted lines add no slash. -/
theorem firstSlash?_of_inserted (inserted : Inserted renumber number next old new) :
    firstSlash? (numberedFrom next new) =
      (firstSlash? (numberedFrom number old)).map fun place => (renumber place.1, place.2) := by
  induction inserted with
  | nil | ending => rfl
  | @line number next line old new taken rest inductionHypothesis =>
    have oldStep : numberedFrom number (line :: old) =
        (dropReturn line, number) :: numberedFrom (number + 1) old := rfl
    have newStep : numberedFrom next (line :: new) =
        (dropReturn line, next) :: numberedFrom (next + 1) new := rfl
    rw [oldStep, newStep, firstSlash?_cons, firstSlash?_cons, inductionHypothesis, ← taken]
    cases Text.slashColumn? (beforeComment (dropReturn line)) <;> rfl
  | @invisible number next line old new invisible rest inductionHypothesis =>
    obtain ⟨uncut, _, noSlash⟩ := invisible.spec
    have newStep : numberedFrom next (line :: new) =
        (dropReturn line, next) :: numberedFrom (next + 1) new := rfl
    rw [newStep, uncut, firstSlash?_cons, noSlash, inductionHypothesis]
    rfl

theorem return_notMem_of_inserted (inserted : Inserted renumber number next old new)
    (clean : ∀ line ∈ old, '\r' ∉ dropReturn line) : ∀ line ∈ new, '\r' ∉ dropReturn line := by
  induction inserted with
  | nil | ending => exact nofun
  | line _ _ inductionHypothesis =>
    rw [List.forall_mem_cons] at clean ⊢
    exact ⟨clean.1, inductionHypothesis clean.2⟩
  | invisible invisible _ inductionHypothesis =>
    refine List.forall_mem_cons.mpr ⟨?_, inductionHypothesis clean⟩
    rw [invisible.spec.1]
    obtain ⟨blanks, comment, rfl, blank, noReturn, _⟩ := invisible
    intro member
    rcases List.mem_append.mp member with inBlanks | inComment
    · exact absurd (blank _ inBlanks) (by decide)
    · exact noReturn inComment

/-! ### The end of a text -/

/-- The first lines of code are the second ones, but blanks may stand behind the last of them. -/
def SameCode (whole trimmed : List (List Char × Nat)) : Prop :=
  whole = trimmed ∨ ∃ front code number blanks, whole = front ++ [(code ++ blanks, number)] ∧
    trimmed = front ++ [(code, number)] ∧ ∀ character ∈ blanks, Text.isBlank character

theorem keptLines_of_blank {numbered : List (List Char × Nat)}
    (blank : ∀ line ∈ numbered, ∀ character ∈ line.1, Text.isBlank character) :
    keptLines numbered = [] ∧ firstSlash? numbered = none := by
  induction numbered with
  | nil => exact ⟨rfl, rfl⟩
  | cons line rest inductionHypothesis =>
    obtain ⟨line, number⟩ := line
    rw [List.forall_mem_cons] at blank
    obtain ⟨kept, slash⟩ := inductionHypothesis blank.2
    have code := Text.beforeComment_of_notMem (Text.slash_notMem_of_blank blank.1)
    have isBlankLine : Text.isBlankLine (beforeComment line) := by
      rw [code]
      exact List.all_eq_true.mpr blank.1
    have noSlash : Text.slashColumn? (beforeComment line) = none := by
      rw [code]
      exact Text.slashColumn?_of_blank blank.1
    rw [keptLines_cons_of_blank isBlankLine, firstSlash?_cons, noSlash]
    exact ⟨kept, slash⟩

/-- Blanks behind a line are no code of their own. -/
theorem sameCode_of_blanks (last : List Char) (number : Nat) {blanks : List Char}
    (blank : ∀ character ∈ blanks, Text.isBlank character) :
    SameCode (keptLines [(last ++ blanks, number)]) (keptLines [(last, number)]) ∧
      firstSlash? [(last ++ blanks, number)] = firstSlash? [(last, number)] := by
  have clean := Text.slash_notMem_of_blank blank
  have longerOrSame : beforeComment (last ++ blanks) = beforeComment last ++ blanks ∨
      beforeComment (last ++ blanks) = beforeComment last := Text.beforeComment_append clean
  rw [firstSlash?_cons, firstSlash?_cons]
  -- The blanks stay behind the code, or a comment before them swallows them.
  rcases longerOrSame with longer | same
  · constructor
    · have sameBlank : Text.isBlankLine (beforeComment (last ++ blanks)) =
          Text.isBlankLine (beforeComment last) := by
        rw [longer, Text.isBlankLine, List.all_append, List.all_eq_true.mpr blank, Bool.and_true]
        rfl
      by_cases silent : Text.isBlankLine (beforeComment last)
      · rw [keptLines_cons_of_blank silent, keptLines_cons_of_blank (sameBlank.trans silent)]
        exact Or.inl rfl
      · rw [keptLines_cons_of_not_blank silent,
          keptLines_cons_of_not_blank (sameBlank.symm ▸ silent), longer]
        exact Or.inr ⟨[], _, number, blanks, rfl, rfl, blank⟩
    · rw [longer, Text.slashColumn?, List.findIdx?_append]
      have none := Text.slashColumn?_of_blank blank
      rw [Text.slashColumn?] at none
      rw [none, Option.map_none, Option.or_none]
      rfl
  · rw [same]
    refine ⟨Or.inl ?_, rfl⟩
    rw [keptLines, keptLines, List.map_singleton, List.map_singleton, same]

theorem SameCode.append {whole trimmed : List (List Char × Nat)} (same : SameCode whole trimmed)
    (front : List (List Char × Nat)) : SameCode (front ++ whole) (front ++ trimmed) := by
  rcases same with rfl | ⟨middle, code, number, blanks, rfl, rfl, blank⟩
  · exact Or.inl rfl
  · exact Or.inr ⟨front ++ middle, code, number, blanks, (List.append_assoc _ _ _).symm,
      (List.append_assoc _ _ _).symm, blank⟩

/-- A line that is silent to its end is blank, once a carriage return has been dropped. -/
theorem isBlank_of_mem_numberedFrom {text : List Char} {lines : List (List Char)} (first : Nat)
    (inText : lines ⊆ Text.pieces '\n' text)
    (trailing : ∀ line ∈ lines, ∀ character ∈ line, Text.isTrailing character)
    (clean : ∀ line ∈ lines, '\r' ∉ dropReturn line) :
    ∀ line ∈ numberedFrom first lines, ∀ character ∈ line.1, Text.isBlank character := by
  rintro ⟨line, number⟩ member
  obtain ⟨raw, inLines, rfl⟩ := List.mem_map.mp (List.fst_mem_of_mem_zipIdx member)
  exact Text.isBlank_of_dropReturn
    (show [] ++ raw ∈ Text.pieces '\n' text from inText inLines) (trailing raw inLines)
    (clean raw inLines)

theorem numberedFrom_pieces {text : List Char} (lines : Text.SpokenLines text) :
    numberedFrom 1 (Text.pieces '\n' text) =
      numberedFrom 1 lines.front ++
        ([(lines.last ++ dropReturn lines.silent, 1 + lines.front.length)] ++
          numberedFrom (1 + lines.front.length + 1) lines.more) := by
  rw [lines.pieces_eq, numberedFrom, List.map_append, List.zipIdx_append, List.length_map,
    List.map_cons, lines.dropReturn_last]
  rfl

theorem numberedLines_of_spokenLines {text : String} (lines : Text.SpokenLines text.toList) :
    numberedLines text =
      numberedFrom 1 lines.front ++ [(lines.last, 1 + lines.front.length)] := by
  rw [numberedLines, lines.fileLines_eq, List.zipIdx_append, List.length_map]
  rfl

/-- The lines that are cut off a text that says something are blank, and so is what is cut off its
last line. -/
theorem sameCode_of_spokenLines {text : String} (lines : Text.SpokenLines text.toList)
    (clean : ∀ line ∈ Text.pieces '\n' text.toList, '\r' ∉ dropReturn line) :
    SameCode (keptLines (numberedFrom 1 (Text.pieces '\n' text.toList)))
        (keptLines (numberedLines text)) ∧
      firstSlash? (numberedFrom 1 (Text.pieces '\n' text.toList)) =
        firstSlash? (numberedLines text) := by
  have lastInText : lines.last ++ lines.silent ∈ Text.pieces '\n' text.toList := by
    rw [lines.pieces_eq]
    exact List.mem_append_right _ List.mem_cons_self
  have moreInText : lines.more ⊆ Text.pieces '\n' text.toList := by
    rw [lines.pieces_eq]
    exact List.subset_append_of_subset_right _ (List.subset_cons_self _ _)
  have noReturn := clean _ lastInText
  rw [lines.dropReturn_last] at noReturn
  have blank := Text.isBlank_of_dropReturn lastInText lines.silent_trailing
    fun member => noReturn (List.mem_append_right _ member)
  have moreBlank := isBlank_of_mem_numberedFrom (1 + lines.front.length + 1) moreInText
    lines.more_trailing fun line member => clean line (moreInText member)
  obtain ⟨moreKept, moreSlash⟩ := keptLines_of_blank moreBlank
  obtain ⟨same, sameSlash⟩ := sameCode_of_blanks lines.last (1 + lines.front.length) blank
  rw [numberedFrom_pieces lines, numberedLines_of_spokenLines lines, keptLines_append,
    keptLines_append, keptLines_append, moreKept, List.append_nil, firstSlash?_append,
    firstSlash?_append, firstSlash?_append, moreSlash, Option.or_none, sameSlash]
  exact ⟨same.append _, rfl⟩

/-- What is cut off at the end of a text is neither code nor a slash. -/
theorem sameCode_numberedLines {text : String}
    (clean : ∀ line ∈ Text.pieces '\n' text.toList, '\r' ∉ dropReturn line) :
    SameCode (keptLines (numberedFrom 1 (Text.pieces '\n' text.toList)))
        (keptLines (numberedLines text)) ∧
      firstSlash? (numberedFrom 1 (Text.pieces '\n' text.toList)) =
        firstSlash? (numberedLines text) := by
  by_cases speaks : Text.trimEnd text.toList = []
  · have trailing := Text.isTrailing_of_trimEnd_eq_nil speaks
    have blank := isBlank_of_mem_numberedFrom 1 (List.Subset.refl _)
      (fun line inText character inLine => trailing _ (Text.of_mem_pieces inText inLine).1) clean
    have none : numberedLines text = [] := by
      rw [numberedLines, Text.fileLines, speaks]
      rfl
    obtain ⟨kept, slash⟩ := keptLines_of_blank blank
    rw [kept, slash, none]
    exact ⟨Or.inl rfl, rfl⟩
  · obtain ⟨lines⟩ := Text.nonempty_spokenLines speaks
    exact sameCode_of_spokenLines lines clean

end Source

end Idl
