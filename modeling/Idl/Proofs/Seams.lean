/-
This file prepares one text below another one. The lines of both come one after the other,
and those of the second text are counted from where the first one ends. What is cut off at
the end of the first text when it stands alone is still no code when something stands below
it, save for blanks behind its last line of code. So the code of both is that of the first
text, possibly with blanks behind it, and below it that of the second one.
-/

import Idl.Proofs.Insertion
import Idl.Proofs.Declared

namespace Idl

open Text (ReturnsEndLines pieces joinPieces trimEnd dropReturn)

/-! ### The lines of one text below another one -/

namespace Text

variable {first second : List Char}

theorem length_pieces (separator : Char) (text : List Char) :
    (pieces separator text).length = text.count separator + 1 := by
  induction text with
  | nil => rfl
  | cons character rest inductionHypothesis =>
    by_cases same : character = separator
    · subst same
      rw [pieces_separator, List.length_cons, inductionHypothesis, List.count_cons_self]
    · rw [pieces_cons same, List.count_cons_of_ne same, ← inductionHypothesis]
      rfl

theorem trimEnd_append (speaks : trimEnd second ≠ []) (first : List Char) :
    trimEnd (first ++ second) = first ++ trimEnd second := by
  induction first with
  | nil => rfl
  | cons character rest inductionHypothesis =>
    have some : (rest ++ trimEnd second).isEmpty = false :=
      List.isEmpty_eq_false_iff.mpr (List.append_ne_nil_of_right_ne_nil rest speaks)
    rw [List.cons_append, trimEnd_cons, inductionHypothesis, some]
    rfl

theorem trimEnd_append_of_silent (silent : trimEnd second = []) (first : List Char) :
    trimEnd (first ++ second) = trimEnd first := by
  induction first with
  | nil => exact silent
  | cons character rest inductionHypothesis =>
    rw [List.cons_append, trimEnd_cons, inductionHypothesis, trimEnd_cons]

theorem fileLines_of_speaks {text : List Char} (speaks : trimEnd text ≠ []) :
    fileLines text = (pieces '\n' (trimEnd text)).map dropReturn := by
  unfold fileLines
  split
  · next silent => exact absurd silent speaks
  · next first rest shape => rw [shape]

/-- Below another text, the lines of a text that says something are what they are. -/
theorem fileLines_append_line (speaks : trimEnd second ≠ []) (first : List Char) :
    fileLines (first ++ '\n' :: second) =
      (pieces '\n' first).map dropReturn ++ fileLines second := by
  have below : trimEnd ('\n' :: second) = '\n' :: trimEnd second :=
    trimEnd_append speaks ['\n']
  have whole : trimEnd (first ++ '\n' :: second) = first ++ '\n' :: trimEnd second := by
    rw [trimEnd_append (below ▸ List.cons_ne_nil _ _), below]
  rw [fileLines_of_speaks (whole ▸ List.append_ne_nil_of_right_ne_nil _ (List.cons_ne_nil _ _)),
    whole, pieces_append_separator, List.map_append, fileLines_of_speaks speaks]

/-- A text that says nothing adds no line to another one. -/
theorem fileLines_append_of_silent (silent : trimEnd second = []) (first : List Char) :
    fileLines (first ++ '\n' :: second) = fileLines first := by
  have below : trimEnd ('\n' :: second) = [] := by
    rw [trimEnd_cons, silent]
    rfl
  rw [fileLines, fileLines, trimEnd_append_of_silent below]

end Text

namespace Source

variable {file first second : String}

/-- The line with its number counted from further down. -/
def lineDown (lines : Nat) (line : List Char × Nat) : List Char × Nat := (line.1, lines + line.2)

theorem keptLines_down (lines : Nat) (numbered : List (List Char × Nat)) :
    keptLines (numbered.map (lineDown lines)) = (keptLines numbered).map (lineDown lines) := by
  rw [keptLines, keptLines, List.map_map, List.filter_map, List.filter_map, List.map_map]
  rfl

theorem firstSlash?_down (lines : Nat) (numbered : List (List Char × Nat)) :
    firstSlash? (numbered.map (lineDown lines)) =
      (firstSlash? numbered).map fun place => (lines + place.1, place.2) := by
  rw [firstSlash?, firstSlash?, List.findSome?_map, List.map_findSome?]
  refine congrArg (List.findSome? · _) (funext fun line => ?_)
  rw [Function.comp, Function.comp, Option.map_map]
  rfl

theorem toList_append_line (first second : String) :
    (first ++ "\n" ++ second).toList = first.toList ++ '\n' :: second.toList := by
  rw [String.toList_append, String.toList_append, List.append_assoc]
  rfl

theorem numberedLines_of_silent {text : String} (silent : trimEnd text.toList = []) :
    numberedLines text = [] := by
  rw [numberedLines, Text.fileLines, silent]
  rfl

theorem numberedLines_append_line (speaks : trimEnd second.toList ≠ []) (first : String) :
    numberedLines (first ++ "\n" ++ second) = numberedFrom 1 (pieces '\n' first.toList) ++
      (numberedLines second).map (lineDown (pieces '\n' first.toList).length) := by
  rw [numberedLines, toList_append_line, Text.fileLines_append_line speaks, List.zipIdx_append,
    List.length_map, Nat.add_comm 1, ← List.map_snd_add_zipIdx_eq_zipIdx]
  refine congrArg (List.append _) (List.map_congr_left fun line _ => ?_)
  exact Prod.ext rfl (Nat.add_comm _ _)

/-- The lines of code of a text below another one, and its slashes. -/
theorem exists_seam (returns : ReturnsEndLines first.toList) (second : String) :
    ∃ kept, SameCode kept (keptLines (numberedLines first)) ∧
      keptLines (numberedLines (first ++ "\n" ++ second)) = kept ++
        (keptLines (numberedLines second)).map (lineDown (pieces '\n' first.toList).length) ∧
      firstSlash? (numberedLines (first ++ "\n" ++ second)) =
        (firstSlash? (numberedLines first)).or ((firstSlash? (numberedLines second)).map
          fun place => ((pieces '\n' first.toList).length + place.1, place.2)) := by
  by_cases silent : trimEnd second.toList = []
  · have same : numberedLines (first ++ "\n" ++ second) = numberedLines first := by
      rw [numberedLines, toList_append_line, Text.fileLines_append_of_silent silent]
      rfl
    rw [same, numberedLines_of_silent silent]
    exact ⟨_, Or.inl rfl, (List.append_nil _).symm, (Option.or_none).symm⟩
  · obtain ⟨same, sameSlash⟩ := sameCode_numberedLines fun line member =>
      Text.return_notMem_dropReturn returns member
    rw [numberedLines_append_line silent, keptLines_append, firstSlash?_append, keptLines_down,
      firstSlash?_down, sameSlash]
    exact ⟨_, same, rfl, rfl⟩

theorem firstSlash?_eq_none_of_ofText {source : Source} {text : String}
    (ready : ofText file text = .ok source) : firstSlash? (numberedLines text) = none := by
  refine List.findSome?_eq_none_iff.mpr fun line member => ?_
  have clean := List.findSome?_eq_none_iff.mp (ofText_eq_ok_iff.mp ready).1 line member
  rw [straySlash?, Option.map_eq_none_iff] at clean
  rw [clean]
  rfl

/-- A text below another one is prepared if both are. -/
theorem ofText_append_line (returns : ReturnsEndLines first.toList)
    {firstSource secondSource : Source} (readyFirst : ofText file first = .ok firstSource)
    (readySecond : ofText file second = .ok secondSource) :
    ofText file (first ++ "\n" ++ second) = .ok (prepared file (first ++ "\n" ++ second)) := by
  obtain ⟨_, _, _, slash⟩ := exists_seam returns second
  refine ofText_of_firstSlash?_eq_none ?_
  rw [slash, firstSlash?_eq_none_of_ofText readyFirst, firstSlash?_eq_none_of_ofText readySecond]
  rfl

/-! ### The code of one text below another one -/

theorem SameCode.eq_nil_iff {whole trimmed : List (List Char × Nat)}
    (same : SameCode whole trimmed) : whole = [] ↔ trimmed = [] := by
  have lengths := congrArg List.length same.joinPieces_eq.1
  rw [List.length_map, List.length_map] at lengths
  rw [← List.length_eq_zero_iff, lengths, List.length_eq_zero_iff]

theorem joinPieces_append {separator : Char} {front back : List (List Char)}
    (frontSome : front ≠ []) (backSome : back ≠ []) :
    joinPieces separator (front ++ back) =
      joinPieces separator front ++ separator :: joinPieces separator back := by
  induction front with
  | nil => exact absurd rfl frontSome
  | cons part rest inductionHypothesis =>
    cases rest with
    | nil =>
      obtain ⟨next, others, rfl⟩ := List.exists_cons_of_ne_nil backSome
      rw [List.singleton_append, Text.joinPieces_cons_cons, Text.joinPieces_singleton]
    | cons second others =>
      rw [List.cons_append, List.cons_append, Text.joinPieces_cons_cons, ← List.cons_append,
        inductionHypothesis (List.cons_ne_nil _ _), Text.joinPieces_cons_cons, List.append_assoc,
        List.cons_append]

/-- The code of a text below another one: the code of one of them if the other one has none, and
else the code of both with a line feed between them. Blanks may stand behind that of the first. -/
theorem exists_text_seam (file : String) (returns : ReturnsEndLines first.toList)
    (second : String) : ∃ tail, (∀ character ∈ tail, Text.isBlank character) ∧
      (((prepared file second).lines = [] ∧
          (prepared file (first ++ "\n" ++ second)).text = (prepared file first).text ++ tail) ∨
        ((prepared file first).lines = [] ∧
          (prepared file (first ++ "\n" ++ second)).text = (prepared file second).text) ∨
        ((prepared file first).lines ≠ [] ∧ (prepared file second).lines ≠ [] ∧
          (prepared file (first ++ "\n" ++ second)).text =
            (prepared file first).text ++ tail ++ '\n' :: (prepared file second).text)) := by
  obtain ⟨kept, same, seam, _⟩ := exists_seam returns second
  obtain ⟨_, tail, blank, joined⟩ := same.joinPieces_eq
  have text : (prepared file (first ++ "\n" ++ second)).text =
      joinPieces '\n' (kept.map Prod.fst ++ (prepared file second).lines) := by
    rw [prepared, seam, List.map_append, List.map_map]
    rfl
  refine ⟨tail, blank, ?_⟩
  rw [text]
  by_cases noSecond : (prepared file second).lines = []
  · rw [noSecond, List.append_nil, joined]
    exact Or.inl ⟨rfl, rfl⟩
  · by_cases noFirst : (prepared file first).lines = []
    · rw [same.eq_nil_iff.mpr (List.map_eq_nil_iff.mp noFirst)]
      exact Or.inr (Or.inl ⟨noFirst, rfl⟩)
    · have some : kept.map Prod.fst ≠ [] := fun nothing =>
        noFirst (List.map_eq_nil_iff.mpr (same.eq_nil_iff.mp (List.map_eq_nil_iff.mp nothing)))
      rw [joinPieces_append some noSecond, joined]
      exact Or.inr (Or.inr ⟨noFirst, noSecond, rfl⟩)

/-- Everything is taken to that many lines further down. -/
def lower (lines : Nat) : Relocation := renumbering (lines + ·)

theorem lower_line (lines : Nat) (number : Nat) :
    (lower lines).line (UInt32.ofNat number) = UInt32.ofNat (lines + number) := by
  show UInt32.ofNat (lines + (UInt32.ofNat number).toNat) = UInt32.ofNat (lines + number)
  rw [UInt32.ofNat_add, UInt32.ofNat_add, UInt32.ofNat_toNat]

theorem lineMap_append_line (file : String) (returns : ReturnsEndLines first.toList)
    (second : String) :
    (prepared file (first ++ "\n" ++ second)).lineMap = (prepared file first).lineMap ++
      (prepared file second).lineMap.map (lower (pieces '\n' first.toList).length).line := by
  obtain ⟨kept, same, seam, _⟩ := exists_seam returns second
  have numbers := congrArg (List.map UInt32.ofNat) same.joinPieces_eq.1
  rw [List.map_map, List.map_map] at numbers
  simp only [prepared, seam, List.map_append, List.map_map, List.map_toArray, List.append_toArray]
  refine congrArg List.toArray (congrArg₂ List.append numbers ?_)
  exact List.map_congr_left fun line _ => (lower_line _ _).symm

theorem size_lineMap (file text : String) :
    (prepared file text).lineMap.size = (prepared file text).lines.length := by
  rw [prepared]
  simp only [List.size_toArray, List.length_map]

theorem lineNumber_of_getElem? {source : Source} {line : Nat} {number : UInt32}
    (found : source.lineMap[line]? = some number) : source.lineNumber line = number := by
  rw [lineNumber, found, Option.some_or, Option.getD_some]

/-- The lines of the first text keep their numbers. -/
theorem lineNumber_append_line (returns : ReturnsEndLines first.toList) (second : String)
    {line : Nat} (within : line < (prepared file first).lines.length) :
    (prepared file (first ++ "\n" ++ second)).lineNumber line =
      (prepared file first).lineNumber line := by
  rw [← size_lineMap] at within
  have found := Array.getElem?_eq_getElem within
  rw [lineNumber_of_getElem? found]
  refine lineNumber_of_getElem? ?_
  rw [lineMap_append_line file returns, Array.getElem?_append_left within, found]

/-- The lines of the second text have numbers as many lines further down as the first text has. -/
theorem lineNumber_append_line_below (returns : ReturnsEndLines first.toList) (second : String)
    {line : Nat} (within : line < (prepared file second).lines.length) :
    (prepared file (first ++ "\n" ++ second)).lineNumber
        ((prepared file first).lines.length + line) =
      (lower (pieces '\n' first.toList).length).line ((prepared file second).lineNumber line) := by
  rw [← size_lineMap] at within
  have found := Array.getElem?_eq_getElem within
  rw [lineNumber_of_getElem? found]
  refine lineNumber_of_getElem? ?_
  rw [lineMap_append_line file returns, ← size_lineMap,
    Array.getElem?_append_right (Nat.le_add_right _ _), Nat.add_sub_cancel_left,
    Array.getElem?_map, found]
  rfl

/-! ### The declarations of one text below another one -/

/-- Every token stands on a line of the code. -/
theorem line_lt_of_scans {text : String} {tokens : List Token} {final : Token}
    (scans : (prepared file text).start.Scans tokens final) :
    (∀ token ∈ tokens, token.line < (prepared file text).lines.length) ∧
      ((prepared file text).lines ≠ [] → final.line + 1 = (prepared file text).lines.length) := by
  have last : (prepared file text).lines ≠ [] →
      final.line + 1 = (prepared file text).lines.length := by
    intro some
    rw [scans.line_final, ← pieces_text some, Text.length_pieces]
    exact congrArg (· + 1) (Nat.zero_add _)
  refine ⟨?_, last⟩
  by_cases none : (prepared file text).lines = []
  · have blank : (prepared file text).text = [] := congrArg (joinPieces '\n') none
    rw [start, blank] at scans
    cases scans
    exact List.forall_mem_nil _
  · rw [← last none]
    exact fun token member => Nat.lt_succ_of_le (scans.line_le token member)

theorem tokenSpan_append_line (returns : ReturnsEndLines first.toList) (second : String)
    {token : Token} (within : token.line < (prepared file first).lines.length) :
    (prepared file (first ++ "\n" ++ second)).tokenSpan token =
      (prepared file first).tokenSpan token := by
  rw [tokenSpan, tokenSpan, span, span, lineNumber_append_line returns second within]

theorem takenTo_append_line (returns : ReturnsEndLines first.toList) (second : String)
    {token : Token} (within : token.line < (prepared file second).lines.length) :
    Token.TakenTo (lower (pieces '\n' first.toList).length) (prepared file second).tokenSpan
      (prepared file (first ++ "\n" ++ second)).tokenSpan token
      (token.down (prepared file first).lines.length) := by
  refine ⟨rfl, rfl, ?_⟩
  show Span.mk ((prepared file (first ++ "\n" ++ second)).lineNumber
    ((prepared file first).lines.length + token.line)) _ _ = _
  rw [lineNumber_append_line_below returns second within]
  rfl

theorem declares_nil_of_lines {text : String} {declarations : List Declaration}
    (none : (prepared file text).lines = [])
    (declares : (prepared file text).Declares declarations) : declarations = [] := by
  obtain ⟨tokens, final, scans, spelled⟩ := declares
  have blank : (prepared file text).text = [] := congrArg (joinPieces '\n') none
  rw [start, blank] at scans
  cases scans
  exact spelled.unique .empty

/-- The first token of a source with code in it is no line feed. -/
theorem exists_first_of_lines {text : String} {tokens : List Token} {final : Token}
    (some : (prepared file text).lines ≠ [])
    (scans : (prepared file text).start.Scans tokens final) :
    ∃ token others, tokens = token :: others ∧ token.kind ≠ .newline := by
  obtain ⟨line, others, shape⟩ := List.exists_cons_of_ne_nil some
  have member : line ∈ (prepared file text).lines := shape ▸ List.mem_cons_self
  obtain ⟨kept, inKept, same⟩ := List.mem_map.mp member
  have code : ¬ Text.isBlankLine line := by
    have notBlank := (List.mem_filter.mp inKept).2
    rwa [same, Bool.not_eq_true', ← Bool.not_eq_true] at notBlank
  have starts : ∃ rest, (prepared file text).text = line ++ rest := by
    have joined : (prepared file text).text = joinPieces '\n' (line :: others) :=
      congrArg (joinPieces '\n') shape
    rw [joined]
    cases others with
    | nil => exact ⟨[], by rw [Text.joinPieces_singleton, List.append_nil]⟩
    | cons next rest => exact ⟨_, Text.joinPieces_cons_cons _ _ _ _⟩
  obtain ⟨rest, starts⟩ := starts
  exact scans.exists_first starts (newline_notMem_lines member) code

/-- What is declared by a text and by another text below it. -/
theorem Declares.append_line (returns : ReturnsEndLines first.toList)
    {declarations others : List Declaration}
    (declaresFirst : (prepared file first).Declares declarations)
    (declaresSecond : (prepared file second).Declares others) :
    (prepared file (first ++ "\n" ++ second)).Declares (declarations ++
      others.map (Declaration.relocate (lower (pieces '\n' first.toList).length))) := by
  have seam := exists_text_seam file returns second
  have nothingFirst := fun none => declares_nil_of_lines none declaresFirst
  have nothingSecond := fun none => declares_nil_of_lines none declaresSecond
  obtain ⟨tokens, final, scans, spelled⟩ := declaresFirst
  obtain ⟨tokensBelow, last, scansBelow, spelledBelow⟩ := declaresSecond
  obtain ⟨within, ends⟩ := line_lt_of_scans scans
  have opens := fun some => exists_first_of_lines some scansBelow
  have withinBelow := (line_lt_of_scans scansBelow).1
  have scansDown := scansBelow.down (prepared file first).lines.length
  -- Each token has its place in the longer text.
  replace spelled := spelled.of_place_eq fun token member =>
    tokenSpan_append_line returns second (within token member)
  replace spelledBelow := spelledBelow.relocate (List.forall₂_map_right_iff.mpr
    (List.forall₂_same.mpr fun token member =>
      takenTo_append_line returns second (withinBelow token member)))
  obtain ⟨tail, blank, cases⟩ := seam
  have above := scans.append_blanks blank
  rcases cases with ⟨noSecond, text⟩ | ⟨noFirst, text⟩ | ⟨someFirst, someSecond, text⟩
  · have starts : (prepared file (first ++ "\n" ++ second)).start =
        ⟨(prepared file first).text ++ tail, 0, 0⟩ := by rw [start, text]
    rw [nothingSecond noSecond, List.map_nil, List.append_nil]
    rw [Declares, starts]
    exact ⟨tokens, _, above, spelled⟩
  · have starts : (prepared file (first ++ "\n" ++ second)).start =
        ⟨(prepared file second).text, 0, 0⟩ := by rw [start, text]
    rw [nothingFirst noFirst, List.nil_append]
    rw [noFirst] at scansDown spelledBelow
    rw [Declares, starts]
    exact ⟨_, _, scansDown, spelledBelow⟩
  · have starts : (prepared file (first ++ "\n" ++ second)).start =
        ⟨(prepared file first).text ++ tail ++ '\n' :: (prepared file second).text, 0, 0⟩ := by
      rw [start, text]
    obtain ⟨token, others, rfl, other⟩ := opens someSecond
    rw [← ends someFirst] at scansDown spelledBelow
    rw [Declares, starts]
    exact ⟨_, _, above.append_line scansDown, spelled.append rfl spelledBelow other⟩

end Source

end Idl
