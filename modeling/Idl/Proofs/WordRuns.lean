/-
This file says what the lexemes of a text are without scanning it. A lexeme is a run of
characters of words that goes on in neither direction, or a single character that is
neither a blank nor part of a word. Each of them is known by where it stands, so the
lexemes of a text are listed in one order only, and if no word is cut, those of a text with
more text before it are those of both.
-/

import Idl.Proofs.Alphabet

namespace Idl

open Text (isBlank isWordCharacter Apart)

namespace Text

/-! ### Lexemes -/

/-- Between what stands before it and what stands behind it, a run of characters of words that
goes on in neither direction. -/
structure IsRun (before run after : List Char) : Prop where
  nonempty : run ≠ []
  inside : ∀ character ∈ run, isWordCharacter character
  opens : ∀ character ∈ before.getLast?, ¬ isWordCharacter character
  stops : ∀ character ∈ after.head?, ¬ isWordCharacter character

/-- What is a token of the text that it stands in. -/
inductive IsLexeme (before : List Char) : List Char → List Char → Prop where
  | run {run after : List Char} (isRun : IsRun before run after) : IsLexeme before run after
  | single {character : Char} {after : List Char} (notBlank : ¬ isBlank character)
      (noWord : ¬ isWordCharacter character) : IsLexeme before [character] after

/-- These are the lexemes of the text, each with what stands before it, in the order in which they
stand in the text. -/
structure Lexes (text : List Char) (lexemes : List (List Char × List Char)) : Prop where
  mem_iff : ∀ before lexeme, (before, lexeme) ∈ lexemes ↔
    ∃ after, text = before ++ (lexeme ++ after) ∧ IsLexeme before lexeme after
  inOrder : lexemes.Pairwise fun first second => first.1 ++ first.2 <+: second.1

namespace IsLexeme

variable {first before lexeme after rest : List Char} {character : Char}

/-- A lexeme is known by its first character: a run if that is part of a word, and that character
alone if it is not. -/
theorem cases_head (isLexeme : IsLexeme before lexeme after)
    (split : lexeme ++ after = character :: rest) : ¬ isBlank character ∧
      if isWordCharacter character then IsRun before lexeme after else lexeme = [character] := by
  cases isLexeme with
  | run isRun =>
    obtain ⟨other, others, rfl⟩ := List.exists_cons_of_ne_nil isRun.nonempty
    obtain ⟨rfl, _⟩ := List.cons.inj split
    have word := isRun.inside other List.mem_cons_self
    rw [if_pos word]
    exact ⟨fun blank => not_isWordCharacter_of_isBlank blank word, isRun⟩
  | single notBlank noWord =>
    obtain ⟨rfl, _⟩ := List.cons.inj split
    rw [if_neg noWord]
    exact ⟨notBlank, rfl⟩

/-- A lexeme of the end of a text is one of the whole text, if no word is cut. -/
theorem append (isLexeme : IsLexeme before lexeme after)
    (apart : Apart first (before ++ (lexeme ++ after))) :
    IsLexeme (first ++ before) lexeme after := by
  cases isLexeme with
  | single notBlank noWord => exact .single notBlank noWord
  | run isRun =>
    refine .run { isRun with opens := fun last ends => ?_ }
    cases before with
    | cons _ _ =>
      rw [Option.mem_def, List.getLast?_append_of_ne_nil _ (List.cons_ne_nil _ _)] at ends
      exact isRun.opens last ends
    | nil =>
      obtain ⟨next, others, rfl⟩ := List.exists_cons_of_ne_nil isRun.nonempty
      rw [List.append_nil] at ends
      exact fun word => apart last ends next rfl word (isRun.inside next List.mem_cons_self)

theorem of_append (isLexeme : IsLexeme (first ++ before) lexeme after) :
    IsLexeme before lexeme after := by
  cases isLexeme with
  | single notBlank noWord => exact .single notBlank noWord
  | run isRun =>
    refine .run { isRun with opens := fun last ends => isRun.opens last ?_ }
    rw [Option.mem_def] at ends ⊢
    rw [List.getLast?_append, ends, Option.some_or]

end IsLexeme

namespace Lexes

variable {rest : List Char} {lexemes : List (List Char × List Char)}

theorem nil : Lexes [] [] := by
  refine ⟨fun before lexeme => ⟨nofun, ?_⟩, .nil⟩
  rintro ⟨after, split, isLexeme⟩
  obtain ⟨rfl, nothing⟩ := List.append_eq_nil_iff.mp split.symm
  obtain ⟨rfl, rfl⟩ := List.append_eq_nil_iff.mp nothing
  cases isLexeme with
  | run isRun => exact absurd rfl isRun.nonempty

/-- Lexemes of a text that is put before another one, between which no word is cut. -/
theorem prepend (lexes : Lexes rest lexemes) (first : List Char)
    (own : List (List Char × List Char)) (apart : Apart first rest)
    (mem_iff : ∀ before lexeme, (before, lexeme) ∈ own ↔ before.length < first.length ∧
      ∃ after, first ++ rest = before ++ (lexeme ++ after) ∧ IsLexeme before lexeme after)
    (inOrder : own.Pairwise fun first second => first.1 ++ first.2 <+: second.1)
    (inside : ∀ lexeme ∈ own, lexeme.1 ++ lexeme.2 <+: first) :
    Lexes (first ++ rest) (own ++ lexemes.map fun lexeme => (first ++ lexeme.1, lexeme.2)) := by
  constructor
  · intro before lexeme
    rw [List.mem_append, List.mem_map]
    constructor
    · rintro (ours | ⟨⟨later, word⟩, member, same⟩)
      · exact ((mem_iff before lexeme).mp ours).2
      · cases same
        obtain ⟨after, rfl, isLexeme⟩ := (lexes.mem_iff later word).mp member
        exact ⟨after, (List.append_assoc _ _ _).symm, isLexeme.append apart⟩
    · rintro ⟨after, split, isLexeme⟩
      by_cases short : before.length < first.length
      · exact Or.inl ((mem_iff before lexeme).mpr ⟨short, after, split, isLexeme⟩)
      · obtain ⟨later, rfl⟩ := List.prefix_of_prefix_length_le (List.prefix_append first rest)
          (split ▸ List.prefix_append before _) (Nat.not_lt.mp short)
        rw [List.append_assoc, List.append_cancel_left_eq] at split
        exact Or.inr ⟨(later, lexeme),
          (lexes.mem_iff later lexeme).mpr ⟨after, split, isLexeme.of_append⟩, rfl⟩
  · rw [List.pairwise_append, List.pairwise_map]
    refine ⟨inOrder, lexes.inOrder.imp fun before => ?_, fun ours member later shifted => ?_⟩
    · rw [List.append_assoc]
      exact (List.prefix_append_right_inj first).mpr before
    · obtain ⟨_, _, rfl⟩ := List.mem_map.mp shifted
      exact (inside ours member).trans (List.prefix_append _ _)

theorem blank {character : Char} (blank : isBlank character) (lexes : Lexes rest lexemes) :
    Lexes (character :: rest) (lexemes.map fun lexeme => (character :: lexeme.1, lexeme.2)) := by
  have apart := apart_of_not_isWordCharacter (not_isWordCharacter_of_isBlank blank) rest
  refine lexes.prepend [character] [] apart (fun before lexeme => ⟨nofun, ?_⟩) .nil nofun
  rintro ⟨short, after, split, isLexeme⟩
  obtain rfl := List.eq_nil_of_length_eq_zero (Nat.lt_one_iff.mp short)
  exact absurd blank (isLexeme.cases_head split.symm).1

theorem single {character : Char} (notBlank : ¬ isBlank character)
    (noWord : ¬ isWordCharacter character) (lexes : Lexes rest lexemes) :
    Lexes (character :: rest)
      (([], [character]) :: lexemes.map fun lexeme => (character :: lexeme.1, lexeme.2)) := by
  refine lexes.prepend [character] [([], [character])] (apart_of_not_isWordCharacter noWord rest)
    (fun before lexeme => ?_) (List.pairwise_singleton _ _)
    (List.forall_mem_singleton.mpr List.prefix_rfl)
  rw [List.mem_singleton, Prod.mk.injEq]
  constructor
  · rintro ⟨rfl, rfl⟩
    exact ⟨Nat.zero_lt_one, rest, rfl, .single notBlank noWord⟩
  · rintro ⟨short, after, split, isLexeme⟩
    obtain rfl := List.eq_nil_of_length_eq_zero (Nat.lt_one_iff.mp short)
    have alone := (isLexeme.cases_head split.symm).2
    rw [if_neg noWord] at alone
    exact ⟨rfl, alone⟩

theorem word {word : List Char} (nonempty : word ≠ [])
    (inside : ∀ character ∈ word, isWordCharacter character)
    (stops : ∀ character ∈ rest.head?, ¬ isWordCharacter character) (lexes : Lexes rest lexemes) :
    Lexes (word ++ rest)
      (([], word) :: lexemes.map fun lexeme => (word ++ lexeme.1, lexeme.2)) := by
  refine lexes.prepend word [([], word)] (apart_of_stops word stops)
    (fun before lexeme => ?_) (List.pairwise_singleton _ _)
    (List.forall_mem_singleton.mpr List.prefix_rfl)
  rw [List.mem_singleton, Prod.mk.injEq]
  constructor
  · rintro ⟨rfl, rfl⟩
    exact ⟨List.length_pos_of_ne_nil nonempty, rest, rfl, .run ⟨nonempty, inside, nofun, stops⟩⟩
  · rintro ⟨short, after, split, isLexeme⟩
    -- The lexeme opens inside the word, so it is a run, and no run opens behind a part of a word.
    obtain ⟨remainder, rfl⟩ := List.prefix_of_prefix_length_le
      (split ▸ List.prefix_append before _) (List.prefix_append word rest) short.le
    obtain ⟨next, others, rfl⟩ : ∃ next others, remainder = next :: others :=
      List.exists_cons_of_ne_nil fun nothing => by simp [nothing] at short
    rw [List.append_assoc, List.append_cancel_left_eq] at split
    have isRun := (isLexeme.cases_head split.symm).2
    rw [if_pos (inside next (List.mem_append_right _ List.mem_cons_self))] at isRun
    cases before with
    | cons other between =>
      refine absurd (inside _ (List.mem_append_left _ (List.getLast_mem (List.cons_ne_nil _ _)))) ?_
      exact isRun.opens _ (List.getLast?_eq_getLast_of_ne_nil (List.cons_ne_nil other between))
    | nil =>
      refine ⟨rfl, ?_⟩
      rw [← takeWhile_append_of_stops isRun.inside isRun.stops, ← split]
      exact takeWhile_append_of_stops inside stops

end Lexes

end Text

end Idl
