/-
This file ties the lines of a file, as they are prepared for scanning, to the lines of the
text itself. What ends the text without saying anything is a last stretch of it, so all
lines but the last one that says something are untouched, that one is cut short at its
end, and the lines behind it are gone. A carriage return and a comment are likewise cut
off at the end of a line. So the code of a line is always a beginning of it, and a column
in the code is the same column in the text.
-/

import Idl.Source
import Mathlib.Data.List.DropRight

namespace Idl.Text

/-! ### Pieces -/

variable {separator : Char}

theorem pieces_cons_of_pieces {character : Char} (other : character ≠ separator)
    {rest first : List Char} {others : List (List Char)}
    (cutRest : pieces separator rest = first :: others) :
    pieces separator (character :: rest) = (character :: first) :: others := by
  obtain ⟨head, tail⟩ := List.cons.inj cutRest
  rw [pieces_cons other, head, tail]

/-- What stands before the first separator belongs to the first piece. -/
theorem cut_append {first : List Char} (clean : separator ∉ first) (rest : List Char) :
    cut separator (first ++ rest) = (first ++ (cut separator rest).1, (cut separator rest).2) := by
  induction first with
  | nil => rfl
  | cons character others inductionHypothesis =>
    rw [List.mem_cons, not_or] at clean
    have step := pieces_cons (Ne.symm clean.1) (others ++ rest)
    rw [inductionHypothesis clean.2, pieces] at step
    obtain ⟨head, tail⟩ := List.cons.inj step
    exact Prod.ext head tail

/-- A piece holds characters of the text, and not the separator. -/
theorem of_mem_pieces {text piece : List Char} (member : piece ∈ pieces separator text)
    {character : Char} (inPiece : character ∈ piece) :
    character ∈ text ∧ character ≠ separator := by
  induction text generalizing piece with
  | nil =>
    rw [pieces_nil, List.mem_singleton] at member
    exact nomatch member ▸ inPiece
  | cons first rest inductionHypothesis =>
    have later : ∀ {piece : List Char}, piece ∈ pieces separator rest → character ∈ piece →
        character ∈ first :: rest ∧ character ≠ separator := fun member inPiece =>
      (inductionHypothesis member inPiece).imp_left (List.mem_cons_of_mem first)
    by_cases same : first = separator
    · subst same
      rw [pieces_separator] at member
      rcases List.mem_cons.mp member with rfl | inRest
      · exact nomatch inPiece
      · exact later inRest inPiece
    · rw [pieces_cons same] at member
      rcases List.mem_cons.mp member with rfl | inRest
      · rcases List.mem_cons.mp inPiece with rfl | inFirst
        · exact ⟨List.mem_cons_self, same⟩
        · exact later List.mem_cons_self inFirst
      · exact later (List.mem_cons_of_mem _ inRest) inPiece

/-- The first piece is the beginning of the text, and the others are stretches of it. -/
theorem prefix_and_infix_of_cut (separator : Char) (text : List Char) :
    (cut separator text).1 <+: text ∧ ∀ piece ∈ (cut separator text).2, piece <:+: text := by
  induction text with
  | nil => exact ⟨List.prefix_rfl, nofun⟩
  | cons first rest inductionHypothesis =>
    obtain ⟨front, others⟩ := inductionHypothesis
    have later : ∀ {piece : List Char}, piece <:+: rest → piece <:+: first :: rest :=
      fun part => part.trans (List.suffix_cons first rest).isInfix
    by_cases same : first = separator
    · subst same
      obtain ⟨head, tail⟩ := List.cons.inj (pieces_separator first rest)
      rw [head, tail, pieces, List.forall_mem_cons]
      exact ⟨List.nil_prefix, later front.isInfix,
        fun piece member => later (others piece member)⟩
    · obtain ⟨head, tail⟩ := List.cons.inj (pieces_cons same rest)
      rw [head, tail]
      exact ⟨List.prefix_cons_inj first |>.mpr front,
        fun piece member => later (others piece member)⟩

/-- A piece is a stretch of the text. -/
theorem infix_of_mem_pieces {text piece : List Char} (member : piece ∈ pieces separator text) :
    piece <:+: text := by
  obtain ⟨front, others⟩ := prefix_and_infix_of_cut separator text
  rcases List.mem_cons.mp member with rfl | later
  · exact front.isInfix
  · exact others piece later

/-- Joining loses nothing of pieces without the separator. -/
theorem pieces_joinPieces {parts : List (List Char)} (some : parts ≠ [])
    (clean : ∀ part ∈ parts, separator ∉ part) :
    pieces separator (joinPieces separator parts) = parts := by
  induction parts with
  | nil => exact absurd rfl some
  | cons part rest inductionHypothesis =>
    rw [List.forall_mem_cons] at clean
    cases rest with
    | nil => rw [joinPieces_singleton, pieces_of_notMem clean.1]
    | cons second others =>
      rw [joinPieces_cons_cons, pieces_append_separator, pieces_of_notMem clean.1,
        inductionHypothesis (List.cons_ne_nil _ _) clean.2, List.singleton_append]

/-- A text that does not end in a separator ends as its last piece does. -/
theorem getLast?_of_joinPieces {front : List (List Char)} {last : List Char} {character : Char}
    (ends : (joinPieces separator (front ++ [last])).getLast? = some character)
    (other : character ≠ separator) : last.getLast? = some character := by
  induction front with
  | nil => rwa [List.nil_append, joinPieces_singleton] at ends
  | cons part rest inductionHypothesis =>
    refine inductionHypothesis ?_
    obtain ⟨second, others, shape⟩ := List.exists_cons_of_ne_nil
      (List.append_ne_nil_of_right_ne_nil rest (List.cons_ne_nil last []))
    rw [List.cons_append, shape, joinPieces_cons_cons, List.getLast?_append, List.getLast?_cons]
      at ends
    rw [shape]
    cases later : (joinPieces separator (second :: others)).getLast? with
    | none =>
      rw [later] at ends
      exact absurd (Option.some.inj ends).symm other
    | some found =>
      rw [later] at ends
      exact ends

/-- A longer text has the same pieces up to the last one, which goes on. -/
theorem pieces_append (separator : Char) (first second : List Char) :
    ∃ front last, pieces separator first = front ++ [last] ∧
      pieces separator (first ++ second) =
        front ++ (last ++ (cut separator second).1) :: (cut separator second).2 := by
  induction first with
  | nil => exact ⟨[], [], rfl, rfl⟩
  | cons character rest inductionHypothesis =>
    obtain ⟨front, last, cutRest, cutWhole⟩ := inductionHypothesis
    rw [List.cons_append]
    by_cases same : character = separator
    · subst same
      refine ⟨[] :: front, last, ?_, ?_⟩
      · rw [pieces_separator, cutRest, List.cons_append]
      · rw [pieces_separator, cutWhole, List.cons_append]
    · cases front with
      | nil =>
        exact ⟨[], character :: last, pieces_cons_of_pieces same cutRest,
          pieces_cons_of_pieces same cutWhole⟩
      | cons piece others =>
        exact ⟨(character :: piece) :: others, last, pieces_cons_of_pieces same cutRest,
          pieces_cons_of_pieces same cutWhole⟩

/-- A piece stands behind as many separators as there are pieces before it. -/
theorem add_length_le_of_getElem?_pieces {text piece : List Char} {index : Nat}
    (found : (pieces separator text)[index]? = some piece) :
    index + piece.length ≤ text.length := by
  induction text generalizing index piece with
  | nil =>
    rw [pieces_nil, List.getElem?_singleton] at found
    split at found
    · next first =>
      cases found
      rw [first]
      exact le_rfl
    · exact nomatch found
  | cons character rest inductionHypothesis =>
    by_cases same : character = separator
    · subst same
      rw [pieces_separator] at found
      cases index with
      | zero =>
        cases found
        exact Nat.zero_le _
      | succ before =>
        have bound := inductionHypothesis found
        rw [List.length_cons]
        omega
    · rw [pieces_cons same] at found
      cases index with
      | zero =>
        cases found
        have bound := inductionHypothesis
          (show (pieces separator rest)[0]? = some (cut separator rest).1 from rfl)
        rw [List.length_cons, List.length_cons]
        omega
      | succ before =>
        have bound := inductionHypothesis
          (show (pieces separator rest)[before + 1]? = some piece from found)
        rw [List.length_cons]
        omega

/-! ### What the end of a text says -/

/-- Trimming a text drops the characters at its end that say nothing. -/
theorem trimEnd_eq_rdropWhile (text : List Char) : trimEnd text = text.rdropWhile isTrailing := by
  have step : ∀ (front : List Char) (last : Char), trimEnd (front ++ [last]) =
      if isTrailing last then trimEnd front else front ++ [last] := by
    intro front last
    induction front with
    | nil => by_cases silent : isTrailing last <;> simp [trimEnd_cons, silent]
    | cons character rest inductionHypothesis =>
      rw [List.cons_append, trimEnd_cons, inductionHypothesis]
      by_cases silent : isTrailing last <;> simp [trimEnd_cons, silent]
  induction text using List.reverseRecOn with
  | nil => rfl
  | append_singleton front last inductionHypothesis =>
    rw [step, List.rdropWhile_concat, inductionHypothesis]

theorem exists_trimEnd_append (text : List Char) :
    ∃ silent, text = trimEnd text ++ silent ∧ ∀ character ∈ silent, isTrailing character := by
  rw [trimEnd_eq_rdropWhile]
  exact ⟨text.rtakeWhile isTrailing, List.rdropWhile_append_rtakeWhile.symm,
    fun _ member => List.mem_rtakeWhile_imp member⟩

theorem isTrailing_of_trimEnd_eq_nil {text : List Char} (blank : trimEnd text = []) :
    ∀ character ∈ text, isTrailing character := by
  rw [trimEnd_eq_rdropWhile] at blank
  exact List.rdropWhile_eq_nil_iff.mp blank

theorem not_isTrailing_of_getLast? {text : List Char} {last : Char}
    (ends : (trimEnd text).getLast? = some last) : isTrailing last = false := by
  have some : trimEnd text ≠ [] := fun blank => by
    rw [blank] at ends
    exact nomatch ends
  rw [List.getLast?_eq_some_getLast some] at ends
  cases ends
  simp only [trimEnd_eq_rdropWhile] at some ⊢
  exact Bool.eq_false_iff.mpr (List.rdropWhile_last_not isTrailing text some)

/-! ### Carriage returns -/

/-- At most one carriage return is dropped, at the end of the line. -/
theorem exists_dropReturn_append (line : List Char) :
    ∃ ending, line = dropReturn line ++ ending ∧ (ending = [] ∨ ending = ['\r']) := by
  rw [dropReturn]
  split
  · next ends =>
    have last := beq_iff_eq.mp ends
    refine ⟨['\r'], ?_, Or.inr rfl⟩
    exact (List.dropLast_append_getLast? _ last).symm
  · exact ⟨[], (List.append_nil line).symm, Or.inl rfl⟩

theorem dropReturn_append {first : List Char} (second : List Char)
    (keeps : first.getLast? ≠ some '\r') :
    dropReturn (first ++ second) = first ++ dropReturn second := by
  cases second using List.reverseRecOn with
  | nil =>
    have kept : dropReturn first = first := by
      rw [dropReturn, if_neg fun ends => keeps (beq_iff_eq.mp ends)]
    rw [List.append_nil, kept]
    exact (List.append_nil first).symm
  | append_singleton front last =>
    rw [dropReturn, dropReturn, ← List.append_assoc, List.getLast?_concat, List.getLast?_concat,
      List.dropLast_concat, List.dropLast_concat]
    split
    · rfl
    · rw [List.append_assoc]

/-! ### Comments -/

/-- The code of a line goes to its end, or to the two slashes of a comment. -/
theorem exists_beforeComment_append (line : List Char) :
    ∃ comment, line = beforeComment line ++ comment ∧
      (comment = [] ∨ ∃ words, comment = '/' :: '/' :: words) := by
  induction line with
  | nil => exact ⟨[], rfl, Or.inl rfl⟩
  | cons character rest inductionHypothesis =>
    obtain ⟨comment, shape, ends⟩ := inductionHypothesis
    by_cases opens : character = '/' ∧ rest.head? = some '/'
    · obtain ⟨rfl, second⟩ := opens
      obtain ⟨words, rfl⟩ := List.head?_eq_some_iff.mp second
      rw [beforeComment_slash_slash]
      exact ⟨_, rfl, Or.inr ⟨words, rfl⟩⟩
    · refine ⟨comment, ?_, ends⟩
      rw [beforeComment_cons opens, List.cons_append, ← shape]

/-- What stands in front of the first slash is code. -/
theorem beforeComment_append_of_notMem {first : List Char} (clean : '/' ∉ first)
    (second : List Char) : beforeComment (first ++ second) = first ++ beforeComment second := by
  induction first with
  | nil => rfl
  | cons character rest inductionHypothesis =>
    rw [List.mem_cons, not_or] at clean
    rw [List.cons_append, beforeComment_cons fun opens => clean.1 opens.1.symm,
      inductionHypothesis clean.2, List.cons_append]

theorem beforeComment_of_notMem {line : List Char} (clean : '/' ∉ line) :
    beforeComment line = line := by
  have whole := beforeComment_append_of_notMem clean []
  rwa [List.append_nil, beforeComment_nil, List.append_nil] at whole

/-- What is added behind a line without a slash of its own is code unless the line has a comment
already. -/
theorem beforeComment_append {first second : List Char} (clean : '/' ∉ second) :
    beforeComment (first ++ second) = beforeComment first ++ second ∨
      beforeComment (first ++ second) = beforeComment first := by
  induction first with
  | nil => exact Or.inl (beforeComment_of_notMem clean)
  | cons character rest inductionHypothesis =>
    rw [List.cons_append]
    by_cases opens : character = '/' ∧ rest.head? = some '/'
    · obtain ⟨rfl, slash⟩ := opens
      obtain ⟨words, rfl⟩ := List.head?_eq_some_iff.mp slash
      rw [List.cons_append, beforeComment_slash_slash, beforeComment_slash_slash]
      exact Or.inr rfl
    · have opensNot : ¬ (character = '/' ∧ (rest ++ second).head? = some '/') := by
        rintro ⟨slash, next⟩
        cases rest with
        | nil => exact clean (List.mem_of_mem_head? next)
        | cons head others => exact opens ⟨slash, next⟩
      rw [beforeComment_cons opens, beforeComment_cons opensNot, List.cons_append]
      exact inductionHypothesis.imp (congrArg (List.cons character))
        (congrArg (List.cons character))

/-! ### The lines of a file -/

/-- The lines of a text that says something, and what has become of them: all but one are as they
were, save for a carriage return at their end; that one is cut short; and those behind it are
gone. -/
structure SpokenLines (text : List Char) where
  front : List (List Char)
  last : List Char
  silent : List Char
  more : List (List Char)
  pieces_eq : pieces '\n' text = front ++ (last ++ silent) :: more
  fileLines_eq : fileLines text = front.map dropReturn ++ [last]
  last_ends : ∃ character, last.getLast? = some character ∧ isTrailing character = false
  silent_trailing : ∀ character ∈ silent, isTrailing character
  more_trailing : ∀ line ∈ more, ∀ character ∈ line, isTrailing character

theorem nonempty_spokenLines {text : List Char} (speaks : trimEnd text ≠ []) :
    Nonempty (SpokenLines text) := by
  obtain ⟨silent, shape, trailing⟩ := exists_trimEnd_append text
  obtain ⟨front, last, cutTrimmed, cutText⟩ := pieces_append '\n' (trimEnd text) silent
  rw [← shape] at cutText
  obtain ⟨final, ends⟩ : ∃ final, (trimEnd text).getLast? = some final :=
    Option.ne_none_iff_exists'.mp fun none => speaks (List.getLast?_eq_none_iff.mp none)
  have audible := not_isTrailing_of_getLast? ends
  -- The last line has the end of the trimmed text, so no carriage return is dropped from it.
  have joined : (joinPieces '\n' (front ++ [last])).getLast? = some final := by
    rw [← cutTrimmed, joinPieces_pieces, ends]
  have lastEnds : last.getLast? = some final := by
    refine getLast?_of_joinPieces joined ?_
    rintro rfl
    exact absurd audible (by decide)
  have uncut : dropReturn last = last := by
    rw [dropReturn, if_neg]
    rw [lastEnds]
    intro same
    rw [Option.some.inj (beq_iff_eq.mp same)] at audible
    exact absurd audible (by decide)
  have lines : fileLines text = front.map dropReturn ++ [last] := by
    obtain ⟨first, rest, trimmed⟩ := List.exists_cons_of_ne_nil speaks
    rw [fileLines, trimmed]
    show (pieces '\n' (first :: rest)).map dropReturn = _
    rw [← trimmed, cutTrimmed, List.map_append, List.map_singleton, uncut]
  have inSilent : ∀ line ∈ pieces '\n' silent, ∀ character ∈ line, isTrailing character :=
    fun line member character inLine => trailing character (of_mem_pieces member inLine).1
  exact ⟨{
    front := front
    last := last
    silent := (cut '\n' silent).1
    more := (cut '\n' silent).2
    pieces_eq := cutText
    fileLines_eq := lines
    last_ends := ⟨final, lastEnds, audible⟩
    silent_trailing := inSilent _ List.mem_cons_self
    more_trailing := fun line member => inSilent line (List.mem_cons_of_mem _ member) }⟩

theorem SpokenLines.dropReturn_last {text : List Char} (lines : SpokenLines text) :
    dropReturn (lines.last ++ lines.silent) = lines.last ++ dropReturn lines.silent := by
  refine dropReturn_append lines.silent fun same => ?_
  obtain ⟨character, isLast, audible⟩ := lines.last_ends
  cases isLast.symm.trans same
  exact absurd audible (by decide)

/-- A line of a file is the beginning of the line of the text that has its number, and what is
missing says nothing. -/
theorem exists_append_of_getElem?_fileLines {text line : List Char} {index : Nat}
    (found : (fileLines text)[index]? = some line) :
    ∃ silent, (pieces '\n' text)[index]? = some (line ++ silent) ∧
      ∀ character ∈ silent, isTrailing character := by
  have speaks : trimEnd text ≠ [] := fun blank => by
    rw [fileLines, blank] at found
    exact nomatch found
  obtain ⟨lines⟩ := nonempty_spokenLines speaks
  rw [lines.fileLines_eq] at found
  rw [lines.pieces_eq]
  rcases Nat.lt_or_ge index lines.front.length with inFront | behind
  · rw [List.getElem?_append_left (by rwa [List.length_map]), List.getElem?_map] at found
    obtain ⟨whole, here, rfl⟩ := Option.map_eq_some_iff.mp found
    obtain ⟨ending, shape, ends⟩ := exists_dropReturn_append whole
    refine ⟨ending, ?_, ?_⟩
    · rw [List.getElem?_append_left inFront, here, ← shape]
    · rcases ends with rfl | rfl
      · exact nofun
      · exact List.forall_mem_singleton.mpr rfl
  · rw [List.getElem?_append_right (by rwa [List.length_map]), List.length_map,
      List.getElem?_singleton] at found
    split at found
    · next last =>
      cases found
      refine ⟨lines.silent, ?_, lines.silent_trailing⟩
      rw [List.getElem?_append_right behind, last, List.getElem?_cons_zero]
    · exact nomatch found

end Idl.Text
