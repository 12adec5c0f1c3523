/-
This file says what is kept of a text and what is not. A line of the text is cut at its
first comment, and a slash before that is refused; what is left is kept if it is not blank,
together with the number of the line. So every line of the text is accounted for: it is
kept up to its comment, under its number, or there is nothing on it but blanks and a
comment.
-/

import Idl.Compile
import Idl.Proofs.Prepared
import Mathlib

namespace Idl

namespace Text

/-! ### The lines of a text -/

theorem splitOn_eq_pieces (separator : Char) (text : List Char) :
    text.splitOn separator = pieces separator text := by
  have clean : ∀ piece ∈ pieces separator text, separator ∉ piece :=
    fun _ member inPiece => (of_mem_pieces member inPiece).2 rfl
  conv_lhs => rw [← joinPieces_pieces separator text]
  exact List.splitOn_intercalate separator clean (List.cons_ne_nil _ _)

/-- The lines of a text: what ends the text without saying anything is left out, the rest is cut at
its line feeds, and a carriage return at the end of a line is left out as well. -/
def originalLines (text : List Char) : List (List Char) :=
  let spoken := text.rdropWhile fun character => character ∈ [' ', '\t', '\r', '\n']
  if spoken = [] then []
  else (spoken.splitOn '\n').map fun line =>
    if line.getLast? = some '\r' then line.dropLast else line

theorem fileLines_eq_originalLines (text : List Char) : fileLines text = originalLines text := by
  have trailing : isTrailing = fun character => character ∈ [' ', '\t', '\r', '\n'] := by
    funext character
    rw [Bool.eq_iff_iff, isTrailing, isBlank]
    simp [or_assoc]
  have returns : dropReturn = fun line =>
      if line.getLast? = some '\r' then line.dropLast else line := by
    funext line
    simp only [dropReturn, beq_iff_eq]
  rw [originalLines, ← trailing, ← trimEnd_eq_rdropWhile, ← returns, fileLines]
  cases trimEnd text with
  | nil => rfl
  | cons first rest => rw [splitOn_eq_pieces, if_neg (List.cons_ne_nil _ _)]

theorem isBlankLine_iff {line : List Char} :
    isBlankLine line = true ↔ ∀ character ∈ line, character = ' ' ∨ character = '\t' := by
  simp only [isBlankLine, List.all_eq_true, isBlank, Bool.or_eq_true, beq_iff_eq]

/-! ### Slashes -/

/-- A comment opens there: two slashes stand together. -/
def OpensComment (characters : List Char) (start : Nat) : Prop :=
  characters[start]? = some '/' ∧ characters[start + 1]? = some '/'

/-- A slash stands there, before the first comment of the line if it has one. -/
def StraySlash (characters : List Char) (column : Nat) : Prop :=
  characters[column]? = some '/' ∧ ∀ start, OpensComment characters start → column < start

/-- No comment opens in what stands before the comment of a line. -/
theorem OpensComment.length_le {line : List Char} {start : Nat}
    (opens : OpensComment line start) : (beforeComment line).length ≤ start := by
  induction line generalizing start with
  | nil => exact nomatch opens.1
  | cons character rest inductionHypothesis =>
    by_cases here : character = '/' ∧ rest.head? = some '/'
    · obtain ⟨rfl, head⟩ := here
      obtain ⟨others, rfl⟩ := List.head?_eq_some_iff.mp head
      rw [beforeComment_slash_slash]
      exact Nat.zero_le _
    · cases start with
      | zero =>
        have head : rest.head? = some '/' := List.head?_eq_getElem? ▸ opens.2
        exact absurd ⟨Option.some.inj opens.1, head⟩ here
      | succ start =>
        rw [beforeComment_cons here]
        exact Nat.succ_le_succ (inductionHypothesis opens)

/-- The slashes before the first comment are those that are not cut off with it. -/
theorem straySlash_iff {line : List Char} {column : Nat} :
    StraySlash line column ↔ (beforeComment line)[column]? = some '/' := by
  obtain ⟨comment, shape, ends⟩ := exists_beforeComment_append line
  have bound := @OpensComment.length_le line
  generalize beforeComment line = code at shape bound ⊢
  subst shape
  constructor
  · rintro ⟨slash, before⟩
    rcases ends with rfl | ⟨words, rfl⟩
    · rwa [List.append_nil] at slash
    · have opens : OpensComment (code ++ '/' :: '/' :: words) code.length := by
        simp [OpensComment]
      rwa [List.getElem?_append_left (before _ opens)] at slash
  · intro slash
    have within := (List.getElem?_eq_some_iff.mp slash).1
    refine ⟨?_, fun start opens => Nat.lt_of_lt_of_le within (bound opens)⟩
    rw [List.getElem?_append_left within]
    exact slash

theorem slashColumn?_eq_some_iff {code : List Char} {column : Nat} :
    slashColumn? code = some column ↔ IsLeast {column | code[column]? = some '/'} column := by
  rw [slashColumn?, List.findIdx?_eq_some_iff_getElem]
  constructor
  · rintro ⟨within, slash, first⟩
    refine ⟨List.getElem?_eq_some_iff.mpr ⟨within, beq_iff_eq.mp slash⟩, fun other found => ?_⟩
    obtain ⟨_, otherSlash⟩ := List.getElem?_eq_some_iff.mp found
    exact Nat.le_of_not_gt fun early => first other early (beq_iff_eq.mpr otherSlash)
  · rintro ⟨found, first⟩
    obtain ⟨within, slash⟩ := List.getElem?_eq_some_iff.mp found
    refine ⟨within, beq_iff_eq.mpr slash, fun other early otherSlash => ?_⟩
    exact Nat.not_le_of_gt early
      (first (List.getElem?_eq_some_iff.mpr ⟨_, beq_iff_eq.mp otherSlash⟩))

theorem slashColumn?_eq_none_iff {code : List Char} : slashColumn? code = none ↔ '/' ∉ code := by
  rw [slashColumn?, List.findIdx?_eq_none_iff]
  exact ⟨fun others member => beq_eq_false_iff_ne.mp (others _ member) rfl,
    fun clean character member => beq_eq_false_iff_ne.mpr fun same => clean (same ▸ member)⟩

/-- The first slash of the lines that stands in no comment: its line, counted from zero, and its
column. -/
structure FirstStraySlash (lines : List (List Char)) (index : Nat) (line : List Char)
    (column : Nat) : Prop where
  found : lines[index]? = some line
  first : ∀ earlier < index, ∀ other, lines[earlier]? = some other → ∀ column,
    ¬ StraySlash other column
  least : IsLeast {column | StraySlash line column} column

end Text

namespace Source

open Text (StraySlash FirstStraySlash beforeComment isBlankLine originalLines)

variable {file text : String}

/-! ### The report of a slash -/

theorem straySlash?_eq_none_iff {line : List Char} {number : Nat} :
    straySlash? file line number = none ↔ ∀ column, ¬ StraySlash line column := by
  rw [straySlash?, Option.map_eq_none_iff, Text.slashColumn?_eq_none_iff]
  simp only [Text.straySlash_iff, List.mem_iff_getElem?, not_exists]

theorem straySlash?_eq_some_iff {line : List Char} {number : Nat} {diagnostic : Diagnostic} :
    straySlash? file line number = some diagnostic ↔
      ∃ column, IsLeast {column | StraySlash line column} column ∧
        diagnostic = ⟨straySlashMessage, file, UInt32.ofNat number, some (UInt32.ofNat column),
          some 1, some (String.ofList line)⟩ := by
  have slashes : {column | StraySlash line column} =
      {column | (beforeComment line)[column]? = some '/'} := Set.ext fun _ => Text.straySlash_iff
  rw [straySlash?, Option.map_eq_some_iff, slashes]
  simp only [Text.slashColumn?_eq_some_iff]
  exact exists_congr fun _ => and_congr_right fun _ => eq_comm

/-- What is found first among numbered lines is found on a line of that number, and on none before
it. -/
theorem exists_of_findSome?_zipIdx {Found : Type} {find : List Char × Nat → Option Found}
    {lines : List (List Char)} {first : Nat} {found : Found}
    (finds : (lines.zipIdx first).findSome? find = some found) :
    ∃ index line, lines[index]? = some line ∧ find (line, first + index) = some found ∧
      ∀ earlier < index, ∀ other, lines[earlier]? = some other →
        find (other, first + earlier) = none := by
  obtain ⟨before, ⟨line, number⟩, after, shape, here, none⟩ := List.findSome?_eq_some_iff.mp finds
  obtain ⟨front, back, rfl, rfl, rest⟩ := List.zipIdx_eq_append_iff.mp shape
  cases back with
  | nil => exact nomatch rest
  | cons head others =>
    cases rest
    refine ⟨front.length, _, by simp, here, fun earlier early other inLines => ?_⟩
    rw [List.getElem?_append_left early] at inLines
    exact none _ (List.mk_add_mem_zipIdx_iff_getElem?.mpr inLines)

theorem ofText_fails_iff :
    (∃ diagnostic, ofText file text = .error diagnostic) ↔
      ∃ line ∈ originalLines text.toList, ∃ column, StraySlash line column := by
  have none : (∀ line ∈ numberedLines text, straySlash? file line.1 line.2 = none) ↔
      ∀ line ∈ originalLines text.toList, ∀ column, ¬ StraySlash line column := by
    rw [← Text.fileLines_eq_originalLines]
    simp only [straySlash?_eq_none_iff]
    constructor
    · intro clean line member
      obtain ⟨index, found⟩ := List.getElem?_of_mem member
      exact clean (line, 1 + index) (List.mk_add_mem_zipIdx_iff_getElem?.mpr found)
    · exact fun clean line member => clean line.1 (List.fst_mem_of_mem_zipIdx member)
  rw [← List.findSome?_eq_none_iff] at none
  simp only [ofText_eq_error_iff, ← Option.ne_none_iff_exists', ne_eq, none]
  push Not
  rfl

/-- The report is that of the first slash that opens no comment. -/
theorem exists_firstStraySlash {diagnostic : Diagnostic}
    (failed : ofText file text = .error diagnostic) :
    ∃ index line column, FirstStraySlash (originalLines text.toList) index line column ∧
      diagnostic = ⟨straySlashMessage, file, UInt32.ofNat (index + 1),
        some (UInt32.ofNat column), some 1, some (String.ofList line)⟩ := by
  obtain ⟨index, line, found, here, none⟩ :=
    exists_of_findSome?_zipIdx (ofText_eq_error_iff.mp failed)
  obtain ⟨column, least, rfl⟩ := straySlash?_eq_some_iff.mp here
  rw [Text.fileLines_eq_originalLines] at found none
  rw [Nat.add_comm 1 index]
  exact ⟨index, line, column, ⟨found, fun earlier early other inLines =>
    straySlash?_eq_none_iff.mp (none earlier early other inLines), least⟩, rfl⟩

/-! ### What is kept -/

/-- What a source keeps of the lines of a text, and what it leaves out. -/
structure Retains (source : Source) (original : List (List Char)) : Prop where
  fileLines : source.fileLines.toList = original
  numbered : source.lineMap.size = source.lines.length
  increasing : (source.lineMap.toList.map UInt32.toNat).Pairwise (· < ·)
  within : ∀ number ∈ source.lineMap, 1 ≤ number.toNat ∧ number.toNat ≤ original.length
  /-- A line that is kept is a line of the text up to its comment. -/
  code : ∀ (index : Nat) line number, source.lines[index]? = some line →
    source.lineMap[index]? = some number →
    ∃ comment, original[number.toNat - 1]? = some (line ++ comment) ∧
      (comment = [] ∨ ∃ words, comment = '/' :: '/' :: words)
  /-- A line that is not kept has nothing on it but blanks and a comment. -/
  discarded : ∀ (index : Nat) line, original[index]? = some line →
    (∀ number ∈ source.lineMap, number.toNat ≠ index + 1) →
    ∃ blanks comment, line = blanks ++ comment ∧
      (∀ character ∈ blanks, character = ' ' ∨ character = '\t') ∧
      (comment = [] ∨ ∃ words, comment = '/' :: '/' :: words)
  visible : ∀ line ∈ source.lines,
    (¬ ∀ character ∈ line, character = ' ' ∨ character = '\t') ∧ '/' ∉ line ∧ '\n' ∉ line
  text : source.lines ≠ [] → source.text.splitOn '\n' = source.lines
  silent : source.text = [] ↔ source.lines = []

/-- A line with code on it is kept. -/
theorem mem_keptLines {index : Nat} {line : List Char}
    (found : (Text.fileLines text.toList)[index]? = some line)
    (code : ¬ isBlankLine (beforeComment line) = true) :
    (beforeComment line, index + 1) ∈ keptLines (numberedLines text) := by
  rw [Nat.add_comm]
  refine List.mem_filter.mpr ⟨List.mem_map.mpr ⟨(line, 1 + index), ?_, rfl⟩, ?_⟩
  · exact List.mk_add_mem_zipIdx_iff_getElem?.mpr found
  · rw [Bool.not_eq_true', Bool.eq_false_iff]
    exact code

theorem not_blank_of_mem_lines {code : List Char} (member : code ∈ (prepared file text).lines) :
    ¬ ∀ character ∈ code, character = ' ' ∨ character = '\t' := by
  obtain ⟨⟨_, number⟩, inKept, rfl⟩ := List.mem_map.mp member
  intro blank
  have audible := (List.mem_filter.mp inKept).2
  rw [Text.isBlankLine_iff.mpr blank] at audible
  exact nomatch audible

theorem slash_notMem_lines
    (clean : ∀ line ∈ Text.fileLines text.toList, ∀ column, ¬ StraySlash line column)
    {code : List Char} (member : code ∈ (prepared file text).lines) : '/' ∉ code := by
  obtain ⟨index, inLines⟩ := List.getElem?_of_mem member
  obtain ⟨place, line, found, _, rfl, _⟩ := exists_of_getElem?_lines inLines
  intro slash
  obtain ⟨column, here⟩ := List.getElem?_of_mem slash
  exact clean line (List.mem_of_getElem? found) column (Text.straySlash_iff.mpr here)

theorem splitOn_text (nonempty : (prepared file text).lines ≠ []) :
    (prepared file text).text.splitOn '\n' = (prepared file text).lines := by
  rw [Text.splitOn_eq_pieces, pieces_text nonempty]

theorem text_eq_nil_iff : (prepared file text).text = [] ↔ (prepared file text).lines = [] := by
  constructor
  · intro empty
    by_contra nonempty
    -- The only line would be empty, and empty lines are not kept.
    have single := splitOn_text nonempty
    rw [empty, List.splitOn_nil] at single
    exact not_blank_of_mem_lines (single ▸ List.mem_singleton_self []) (List.forall_mem_nil _)
  · intro none
    have joined : (prepared file text).text =
        Text.joinPieces '\n' (prepared file text).lines := rfl
    rw [joined, none]
    rfl

/-! ### Numbers of lines -/

section Numbers

variable (few : (Text.fileLines text.toList).length < 2 ^ 32)

include few

theorem toNat_of_getElem?_fileLines {place : Nat} {line : List Char}
    (found : (Text.fileLines text.toList)[place]? = some line) :
    (UInt32.ofNat (place + 1)).toNat = place + 1 := by
  have within := (List.getElem?_eq_some_iff.mp found).1
  exact UInt32.toNat_ofNat_of_lt (Nat.lt_of_le_of_lt within few)

theorem bounds_of_mem_keptLines {line : List Char × Nat}
    (member : line ∈ keptLines (numberedLines text)) :
    (UInt32.ofNat line.2).toNat = line.2 ∧ 1 ≤ line.2 ∧
      line.2 ≤ (Text.fileLines text.toList).length := by
  obtain ⟨code, number⟩ := line
  obtain ⟨place, line, found, _, _, rfl⟩ := exists_of_mem_keptLines member
  exact ⟨toNat_of_getElem?_fileLines few found, Nat.succ_pos _,
    (List.getElem?_eq_some_iff.mp found).1⟩

/-- The numbers of the lines that are kept are some of all numbers, in their order. -/
theorem pairwise_lineMap (file : String) :
    ((prepared file text).lineMap.toList.map UInt32.toNat).Pairwise (· < ·) := by
  have kept : (prepared file text).lineMap.toList.map UInt32.toNat =
      (keptLines (numberedLines text)).map Prod.snd := by
    rw [prepared, List.map_map]
    exact List.map_congr_left fun line member => (bounds_of_mem_keptLines few member).1
  have numbers : ((numberedLines text).map fun line => (beforeComment line.1, line.2)).map
      Prod.snd = List.range' 1 (Text.fileLines text.toList).length := by
    rw [List.map_map]
    exact List.zipIdx_map_snd 1 _
  have among : ((keptLines (numberedLines text)).map Prod.snd).Sublist
      (List.range' 1 (Text.fileLines text.toList).length) := by
    rw [← numbers]
    exact List.filter_sublist.map Prod.snd
  rw [kept]
  exact List.Pairwise.sublist among List.pairwise_lt_range'

theorem within_of_mem_lineMap {number : UInt32}
    (member : number ∈ (prepared file text).lineMap) :
    1 ≤ number.toNat ∧ number.toNat ≤ (Text.fileLines text.toList).length := by
  obtain ⟨line, inKept, rfl⟩ := List.mem_map.mp (List.mem_toArray.mp member)
  obtain ⟨same, bounds⟩ := bounds_of_mem_keptLines few inKept
  rwa [same]

theorem exists_comment_of_getElem? {index : Nat} {code : List Char} {number : UInt32}
    (inLines : (prepared file text).lines[index]? = some code)
    (inMap : (prepared file text).lineMap[index]? = some number) :
    ∃ comment, (Text.fileLines text.toList)[number.toNat - 1]? = some (code ++ comment) ∧
      (comment = [] ∨ ∃ words, comment = '/' :: '/' :: words) := by
  obtain ⟨place, line, found, _, rfl, mapped⟩ := exists_of_getElem?_lines inLines
  cases mapped.symm.trans inMap
  obtain ⟨comment, shape, ends⟩ := Text.exists_beforeComment_append line
  refine ⟨comment, ?_, ends⟩
  rw [toNat_of_getElem?_fileLines few found, Nat.add_sub_cancel, ← shape]
  exact found

theorem exists_blanks_of_not_mem_lineMap {index : Nat} {line : List Char}
    (found : (Text.fileLines text.toList)[index]? = some line)
    (absent : ∀ number ∈ (prepared file text).lineMap, number.toNat ≠ index + 1) :
    ∃ blanks comment, line = blanks ++ comment ∧
      (∀ character ∈ blanks, character = ' ' ∨ character = '\t') ∧
      (comment = [] ∨ ∃ words, comment = '/' :: '/' :: words) := by
  obtain ⟨comment, shape, ends⟩ := Text.exists_beforeComment_append line
  refine ⟨_, comment, shape, Text.isBlankLine_iff.mp (of_not_not fun code => ?_), ends⟩
  have kept := List.mem_map_of_mem (f := fun line => UInt32.ofNat line.2)
    (mem_keptLines found code)
  exact absent _ (List.mem_toArray.mpr kept) (toNat_of_getElem?_fileLines few found)

end Numbers

theorem retains_prepared (few : (originalLines text.toList).length < 2 ^ 32)
    (clean : ∀ line ∈ originalLines text.toList, ∀ column, ¬ StraySlash line column) :
    (prepared file text).Retains (originalLines text.toList) := by
  rw [← Text.fileLines_eq_originalLines] at few clean ⊢
  exact {
    fileLines := rfl
    numbered := by simp [prepared]
    increasing := pairwise_lineMap few file
    within := fun _ => within_of_mem_lineMap few
    code := fun _ _ _ => exists_comment_of_getElem? few
    discarded := fun _ _ => exists_blanks_of_not_mem_lineMap few
    visible := fun _ member => ⟨not_blank_of_mem_lines member, slash_notMem_lines clean member,
      newline_notMem_lines member⟩
    text := splitOn_text
    silent := text_eq_nil_iff }

/-- A text is refused just where a slash stands before the first comment of a line or on a line
without one, and the report is about the first of these. Any other text is prepared, and every line
of it is accounted for. -/
theorem ofText_retains (file text : String)
    (few : (originalLines text.toList).length < 2 ^ 32) :
    ((∃ diagnostic, ofText file text = .error diagnostic) ↔
      ∃ line ∈ originalLines text.toList, ∃ column, StraySlash line column) ∧
    (∀ diagnostic, ofText file text = .error diagnostic →
      readText file text = .error (.lexical diagnostic) ∧
      ∃ index line column, FirstStraySlash (originalLines text.toList) index line column ∧
        diagnostic.line.toNat = index + 1 ∧
        diagnostic = ⟨"expected \"//\" to start a comment", file, diagnostic.line,
          some (UInt32.ofNat column), some 1, some (String.ofList line)⟩) ∧
    ((∀ line ∈ originalLines text.toList, ∀ column, ¬ StraySlash line column) →
      ∃ source, ofText file text = .ok source ∧ source.file = file ∧
        source.Retains (originalLines text.toList)) := by
  refine ⟨ofText_fails_iff, fun diagnostic failed => ⟨by rw [readText, failed], ?_⟩,
    fun clean => ?_⟩
  · obtain ⟨index, line, column, first, rfl⟩ := exists_firstStraySlash failed
    have found := first.found
    rw [← Text.fileLines_eq_originalLines] at few found
    exact ⟨index, line, column, first, toNat_of_getElem?_fileLines few found, rfl⟩
  · cases made : ofText file text with
    | error diagnostic =>
      obtain ⟨line, member, column, stray⟩ := ofText_fails_iff.mp ⟨diagnostic, made⟩
      exact absurd stray (clean line member column)
    | ok source =>
      obtain ⟨_, rfl⟩ := ofText_eq_ok_iff.mp made
      exact ⟨_, rfl, rfl, retains_prepared few clean⟩

/-- A line with nothing but a comment, a blank line, and a comment behind code. -/
def notedText : String :=
  "// größe / breite\r\n\t\r\nmessage Size \x7b // in mm / inch\r\n\tint32 width\n\x7d\n"

/-- The same with a slash in the code of its third line. -/
def slashedText : String :=
  "// größe / breite\r\n\t\r\nmessage Größe / \x7b // in mm / inch\r\n\tint32 width\n\x7d\n"

set_option maxRecDepth 2000 in
theorem notedText_retained :
    (∃ source, ofText "size.idl" notedText = .ok source ∧
      source.Retains (originalLines notedText.toList)) ∧
    ∃ index line column, FirstStraySlash (originalLines slashedText.toList) index line column ∧
      index + 1 = 3 := by
  constructor
  · have clean : ∀ line ∈ originalLines notedText.toList, ∀ column, ¬ StraySlash line column := by
      have none : ∀ line ∈ originalLines notedText.toList, '/' ∉ beforeComment line := by decide
      intro line member column stray
      exact none line member (List.mem_of_getElem? (Text.straySlash_iff.mp stray))
    obtain ⟨source, made, _, retains⟩ :=
      (ofText_retains "size.idl" notedText (by decide)).2.2 clean
    exact ⟨source, made, retains⟩
  · have failed : ofText "size.idl" slashedText = .error
        ⟨"expected \"//\" to start a comment", "size.idl", 3, some 14, some 1,
          some "message Größe / \x7b // in mm / inch"⟩ := by cbv
    obtain ⟨_, index, line, column, first, same, _⟩ :=
      (ofText_retains "size.idl" slashedText (by decide)).2.1 _ failed
    exact ⟨index, line, column, first, same.symm⟩

end Source

end Idl
