/-
This file says how far a text can be scanned. A character does not fit behind those before
it if it is foreign to the language, or if it is a digit where a word would have to open.
Up to the first such character the tokens are those of the text before it, and it is the
character that is reported; a text without one is scanned to its end. Whether a character
fits is a matter of the character right before it and of nothing else, so what fits in a
text fits at the same place of every text that goes on from there.
-/

import Idl.Proofs.Scanning

namespace Idl

open Text (isBlank isWordStart isWordCharacter)

namespace Text

/-- The characters that the language is written in. -/
def InAlphabet (character : Char) : Prop :=
  character ∈ [' ', '\t', '\n', '\x7b', '\x7d', '(', ')', ','] ∨ isWordCharacter character

/-- The character does not fit behind the others: it is foreign to the language, or a digit that
continues no word. -/
def Misfits (before : List Char) (character : Char) : Prop :=
  ¬ InAlphabet character ∨
    character.isDigit ∧ ∀ last ∈ before.getLast?, ¬ isWordCharacter last

/-- Every character of the text fits behind those before it. -/
def Fits (text : List Char) : Prop :=
  ∀ before character after, text = before ++ character :: after → ¬ Misfits before character

/-- The character is the first of a text that does not fit behind those before it. -/
structure FirstMisfit (text before : List Char) (character : Char) : Prop where
  stands : ∃ after, text = before ++ character :: after
  misfits : Misfits before character
  fits : Fits before

/-! ### Single characters -/

theorem isWordCharacter_of_isDigit {character : Char} (digit : character.isDigit) :
    isWordCharacter character := by
  rw [isWordCharacter, Char.isAlphanum, digit, Bool.or_true, Bool.true_or]

theorem isWordStart_or_isDigit {character : Char} (word : isWordCharacter character) :
    isWordStart character ∨ character.isDigit := by
  simp only [isWordCharacter, Char.isAlphanum, Bool.or_eq_true] at word
  simp only [isWordStart, Bool.or_eq_true]
  rcases word with (letter | digit) | underscore
  · exact Or.inl (Or.inl letter)
  · exact Or.inr digit
  · exact Or.inl (Or.inr underscore)

theorem not_isDigit_of_isWordStart {character : Char} (opens : isWordStart character) :
    ¬ character.isDigit := by
  have range : ∀ {low high : UInt32}, low ≤ character.val ∧ character.val ≤ high →
      low.toNat ≤ character.toNat ∧ character.toNat ≤ high.toNat :=
    fun inside => inside.imp UInt32.le_iff_toNat_le.mp UInt32.le_iff_toNat_le.mp
  intro digit
  have digitRange : 48 ≤ character.toNat ∧ character.toNat ≤ 57 :=
    range ((Bool.and_eq_true_iff.mp digit).imp of_decide_eq_true of_decide_eq_true)
  rcases Bool.or_eq_true_iff.mp opens with letter | underscore
  · rcases Bool.or_eq_true_iff.mp letter with upper | lower
    · have upperRange : 65 ≤ character.toNat ∧ character.toNat ≤ 90 :=
        range (of_decide_eq_true upper)
      omega
    · have lowerRange : 97 ≤ character.toNat ∧ character.toNat ≤ 122 :=
        range ((Bool.and_eq_true_iff.mp lower).imp of_decide_eq_true of_decide_eq_true)
      omega
  · rw [beq_iff_eq.mp underscore] at digit
    exact absurd digit (by decide)

theorem inAlphabet_of_isWordStart {character : Char} (opens : isWordStart character) :
    InAlphabet character :=
  Or.inr (isWordCharacter_of_isWordStart opens)

theorem inAlphabet_of_isBlank {character : Char} (blank : isBlank character) :
    InAlphabet character := by
  rw [isBlank, Bool.or_eq_true, beq_iff_eq, beq_iff_eq] at blank
  rcases blank with rfl | rfl <;> exact Or.inl (by decide)

theorem inAlphabet_of_punctuation {character : Char} {kind : TokenKind}
    (mark : Cursor.punctuation? character = some kind) : InAlphabet character := by
  unfold Cursor.punctuation? at mark
  split at mark <;> first | exact Or.inl (by decide) | exact nomatch mark

theorem not_isWordCharacter_of_isBlank {character : Char} (blank : isBlank character) :
    ¬ isWordCharacter character := by
  rw [isBlank, Bool.or_eq_true, beq_iff_eq, beq_iff_eq] at blank
  rcases blank with rfl | rfl <;> decide

theorem not_isWordCharacter_of_punctuation {character : Char} {kind : TokenKind}
    (mark : Cursor.punctuation? character = some kind) : ¬ isWordCharacter character := by
  unfold Cursor.punctuation? at mark
  split at mark <;> first | decide | exact nomatch mark

theorem not_isBlank_of_punctuation {character : Char} {kind : TokenKind}
    (mark : Cursor.punctuation? character = some kind) : ¬ isBlank character := by
  unfold Cursor.punctuation? at mark
  split at mark <;> first | decide | exact nomatch mark

/-- No token opens with the character, nor is it a blank. -/
structure OpensNothing (character : Char) : Prop where
  notBlank : ¬ isBlank character
  notFeed : character ≠ '\n'
  noMark : Cursor.punctuation? character = none
  noWord : ¬ isWordStart character

/-- What opens nothing is foreign to the language or a digit. -/
theorem opensNothing_iff {character : Char} :
    OpensNothing character ↔ ¬ InAlphabet character ∨ character.isDigit := by
  constructor
  · rintro ⟨notBlank, notFeed, noMark, noWord⟩
    by_cases digit : character.isDigit
    · exact Or.inr digit
    · refine Or.inl fun inside => ?_
      rcases inside with listed | word
      · simp only [List.mem_cons, List.not_mem_nil, or_false] at listed
        rcases listed with rfl | rfl | rfl | rfl | rfl | rfl | rfl | rfl
        · exact notBlank rfl
        · exact notBlank rfl
        · exact notFeed rfl
        all_goals exact absurd noMark (Option.some_ne_none _)
      · exact (isWordStart_or_isDigit word).elim noWord digit
  · intro bad
    have excluded : InAlphabet character → character.isDigit := fun inside =>
      bad.resolve_left fun foreign => foreign inside
    refine ⟨fun blank => ?_, ?_, ?_, fun opens => ?_⟩
    · have digit := excluded (inAlphabet_of_isBlank blank)
      rw [isBlank, Bool.or_eq_true, beq_iff_eq, beq_iff_eq] at blank
      rcases blank with rfl | rfl <;> exact absurd digit (by decide)
    · rintro rfl
      exact absurd (excluded (Or.inl (by decide))) (by decide)
    · refine Option.eq_none_iff_forall_ne_some.mpr fun kind mark => ?_
      have digit := excluded (inAlphabet_of_punctuation mark)
      unfold Cursor.punctuation? at mark
      split at mark <;> first | exact absurd digit (by decide) | cases mark
    · exact not_isDigit_of_isWordStart opens (excluded (inAlphabet_of_isWordStart opens))

/-! ### Misfits -/

namespace Misfits

variable {earlier before : List Char} {character : Char}

theorem opensNothing (misfits : Misfits before character) : OpensNothing character :=
  opensNothing_iff.mpr (misfits.imp_right And.left)

/-- What does not fit behind a text does not fit behind the end of it either. -/
theorem of_append (earlier : List Char) (misfits : Misfits (earlier ++ before) character) :
    Misfits before character := by
  refine misfits.imp_right (And.imp_right fun boundary last ends => boundary last ?_)
  rw [Option.mem_def] at ends ⊢
  rw [List.getLast?_append, ends, Option.some_or]

/-- What does not fit behind some text does not fit behind more of it either, if it
continues no word. -/
theorem append (misfits : Misfits before character)
    (boundary : before = [] → ∀ last ∈ earlier.getLast?, ¬ isWordCharacter last) :
    Misfits (earlier ++ before) character := by
  refine misfits.imp_right (And.imp_right fun stops last ends => ?_)
  cases before with
  | nil =>
    rw [List.append_nil] at ends
    exact boundary rfl last ends
  | cons first rest =>
    rw [Option.mem_def, List.getLast?_append_of_ne_nil _ (List.cons_ne_nil first rest)] at ends
    exact stops last ends

/-- Where a word ends, only what is foreign to the language does not fit. -/
theorem of_not_isWordCharacter (opens : OpensNothing character)
    (stops : ¬ isWordCharacter character) : Misfits before character :=
  Or.inl ((opensNothing_iff.mp opens).resolve_right
    fun digit => stops (isWordCharacter_of_isDigit digit))

/-- What does not fit behind a word does not continue the word. -/
theorem not_isWordCharacter (misfits : Misfits before character) (nonempty : before ≠ [])
    (word : ∀ last ∈ before, isWordCharacter last) : ¬ isWordCharacter character := by
  rcases misfits with foreign | ⟨_, boundary⟩
  · exact fun word => foreign (Or.inr word)
  · exact absurd (word _ (List.getLast_mem nonempty))
      (boundary _ (List.getLast?_eq_getLast_of_ne_nil nonempty))

end Misfits

/-! ### Texts in which everything fits -/

theorem fits_nil : Fits [] := by
  intro before character after split
  exact absurd split.symm (List.append_ne_nil_of_right_ne_nil _ (List.cons_ne_nil _ _))

theorem fits_singleton {character : Char} (inside : InAlphabet character)
    (stop : ¬ isWordCharacter character) : Fits [character] := by
  intro before found after split misfits
  cases before with
  | nil =>
    cases split
    exact misfits.elim (fun foreign => foreign inside) fun digit =>
      stop (isWordCharacter_of_isDigit digit.1)
  | cons other between =>
    exact fits_nil between found after (List.cons.inj split).2 (misfits.of_append [other])

theorem fits_of_isBlank {character : Char} (blank : isBlank character) : Fits [character] :=
  fits_singleton (inAlphabet_of_isBlank blank) (not_isWordCharacter_of_isBlank blank)

theorem fits_newline : Fits ['\n'] := fits_singleton (Or.inl (by decide)) (by decide)

theorem fits_of_punctuation {character : Char} {kind : TokenKind}
    (mark : Cursor.punctuation? character = some kind) : Fits [character] :=
  fits_singleton (inAlphabet_of_punctuation mark) (not_isWordCharacter_of_punctuation mark)

theorem fits_of_word {first : Char} {word : List Char} (opens : isWordStart first)
    (goesOn : ∀ character ∈ word, isWordCharacter character) : Fits (first :: word) := by
  intro before character after split
  have inside : ∀ character ∈ first :: word, isWordCharacter character :=
    List.forall_mem_cons.mpr ⟨isWordCharacter_of_isWordStart opens, goesOn⟩
  rintro (foreign | ⟨digit, boundary⟩)
  · exact foreign (Or.inr (inside character (split ▸ List.mem_append_right _ List.mem_cons_self)))
  · cases before with
    | nil =>
      cases split
      exact not_isDigit_of_isWordStart opens digit
    | cons other between =>
      refine boundary _ (List.getLast?_eq_getLast_of_ne_nil (List.cons_ne_nil _ _)) ?_
      exact inside _ (split ▸ List.mem_append_left _ (List.getLast_mem _))

theorem Fits.append {first rest : List Char} (fits : Fits first) (fitsRest : Fits rest) :
    Fits (first ++ rest) := by
  intro before character after split misfits
  rcases List.append_eq_append_iff.mp split with
    ⟨between, rfl, behind⟩ | ⟨between, whole, behind⟩
  · exact fitsRest between character after behind (misfits.of_append first)
  · cases between with
    | nil =>
      rw [List.append_nil] at whole
      rw [← whole, ← List.append_nil first] at misfits
      exact fitsRest [] character after behind.symm (misfits.of_append first)
    | cons other later =>
      obtain ⟨rfl, _⟩ := List.cons.inj behind
      exact fits before character later whole misfits

/-! ### Where words are apart -/

/-- No word reaches from the end of one text into the next one. -/
def Apart (first rest : List Char) : Prop :=
  ∀ last ∈ first.getLast?, ∀ next ∈ rest.head?, isWordCharacter last → ¬ isWordCharacter next

theorem apart_of_not_isWordCharacter {character : Char} (stop : ¬ isWordCharacter character)
    (rest : List Char) : Apart [character] rest := by
  rintro _ ⟨⟩ _ _ word
  exact absurd word stop

theorem apart_of_stops {rest : List Char} (first : List Char)
    (stops : ∀ character ∈ rest.head?, ¬ isWordCharacter character) : Apart first rest :=
  fun _ _ next goesOn _ => stops next goesOn

/-- What does not fit where a text is cut does not fit in the whole text, if no word is cut. -/
theorem misfits_behind {first before after : List Char} (apart : Apart first (before ++ after))
    (misfits : ∀ character ∈ after.head?, Misfits before character) :
    ∀ character ∈ after.head?, Misfits (first ++ before) character := by
  intro character next
  have misfit := misfits character next
  by_cases word : isWordCharacter character
  · refine misfit.append fun nothing last ends goesOn => ?_
    subst nothing
    exact apart last ends character next goesOn word
  · exact .of_not_isWordCharacter misfit.opensNothing word

end Text

open Text (Misfits FirstMisfit OpensNothing Apart)

namespace Cursor

variable {source : Source} {before after rest : List Char} {line column : Nat}
  {tokens : List Token} {final : Token} {character : Char}

/-! ### Scanning up to the first misfit -/

theorem next_of_opensNothing (opens : OpensNothing character) :
    next source ⟨character :: rest, line, column⟩ =
      .error (invalid source ⟨character :: rest, line, column⟩ character) := by
  rw [next, skipBlanks_of_not_blank opens.notBlank, scan]
  simp only [beq_iff_eq, opens.notFeed, opens.noMark, opens.noWord, ↓reduceIte,
    Bool.false_eq_true]

/-- The text can be scanned up to its end or up to a character that does not fit. -/
def ScansUpTo (text : List Char) (line column : Nat) : Prop :=
  ∃ before after tokens final, text = before ++ after ∧
    Scans ⟨before, line, column⟩ tokens final ∧
      ∀ character ∈ after.head?, Misfits before character

/-- What can be scanned behind a token or a blank can be scanned from before it. -/
theorem ScansUpTo.prepend {first : List Char} {laterLine laterColumn : Nat}
    (later : ScansUpTo rest laterLine laterColumn) (apart : Apart first rest)
    (extend : ∀ {before after : List Char} {tokens : List Token} {final : Token},
      rest = before ++ after → Scans ⟨before, laterLine, laterColumn⟩ tokens final →
        ∃ tokens, Scans ⟨first ++ before, line, column⟩ tokens final) :
    ScansUpTo (first ++ rest) line column := by
  obtain ⟨before, after, _, final, rfl, scans, misfits⟩ := later
  obtain ⟨tokens, longer⟩ := extend rfl scans
  exact ⟨first ++ before, after, tokens, final, (List.append_assoc _ _ _).symm, longer,
    Text.misfits_behind apart misfits⟩

theorem scansUpTo (text : List Char) (line column : Nat) : ScansUpTo text line column := by
  induction bound : text.length using Nat.strongRecOn generalizing text line column with
  | ind count inductionHypothesis =>
    cases text with
    | nil => exact ⟨[], [], [], _, rfl, .ending, nofun⟩
    | cons first rest =>
      have shorter : rest.length < count := bound ▸ Nat.lt_succ_self _
      have later := fun line column => inductionHypothesis rest.length shorter rest line column rfl
      by_cases blank : isBlank first
      · exact (later line (column + 1)).prepend
          (Text.apart_of_not_isWordCharacter (Text.not_isWordCharacter_of_isBlank blank) _)
          fun _ scans => ⟨_, .blank blank scans⟩
      by_cases feed : first = '\n'
      · subst feed
        exact (later (line + 1) 0).prepend (Text.apart_of_not_isWordCharacter (by decide) _)
          fun _ scans => ⟨_, .feed scans⟩
      by_cases opens : isWordStart first
      · have whole : first :: rest =
            (first :: rest.takeWhile isWordCharacter) ++ rest.dropWhile isWordCharacter := by
          rw [List.cons_append, List.takeWhile_append_dropWhile]
        have stops := Text.stops_dropWhile rest
        have behind := inductionHypothesis (rest.dropWhile isWordCharacter).length
          (lt_of_le_of_lt (List.dropWhile_suffix _).length_le shorter)
          (rest.dropWhile isWordCharacter) line
          (column + (first :: rest.takeWhile isWordCharacter).length) rfl
        rw [whole]
        refine behind.prepend (Text.apart_of_stops _ stops) fun split scans => ⟨_, .word opens
          (fun _ => List.mem_takeWhile_imp) (fun character next => ?_) scans⟩
        refine stops character ?_
        rw [split, List.head?_append, Option.mem_def.mp next]
        exact Option.some_or
      cases mark : punctuation? first with
      | some kind =>
        exact (later line (column + 1)).prepend (Text.apart_of_not_isWordCharacter
          (Text.not_isWordCharacter_of_punctuation mark) _) fun _ scans => ⟨_, .mark mark scans⟩
      | none =>
        refine ⟨[], first :: rest, [], _, rfl, .ending, ?_⟩
        rintro _ ⟨⟩
        exact (Text.opensNothing_iff.mp ⟨blank, feed, mark, opens⟩).imp_right fun digit =>
          ⟨digit, nofun⟩

/-! ### What is delivered -/

theorem Scans.fits {cursor : Cursor} (scans : cursor.Scans tokens final) :
    Text.Fits cursor.rest := by
  induction scans with
  | ending => exact Text.fits_nil
  | blank blank _ inductionHypothesis =>
    exact (Text.fits_of_isBlank blank).append inductionHypothesis
  | feed _ inductionHypothesis => exact Text.fits_newline.append inductionHypothesis
  | mark mark _ inductionHypothesis =>
    exact (Text.fits_of_punctuation mark).append inductionHypothesis
  | word opens goesOn _ _ inductionHypothesis =>
    exact (Text.fits_of_word opens goesOn).append inductionHypothesis

/-- Before a character that does not fit, the tokens of the text before it are delivered, and then
the character is reported. -/
theorem Scans.deliver_misfit {cursor : Cursor} (scans : cursor.Scans tokens final)
    (misfits : Misfits cursor.rest character) (source : Source) (after : List Char) :
    source.supply.deliver ⟨cursor.rest ++ character :: after, cursor.line, cursor.column⟩ =
      (tokens, some (invalid source ⟨character :: after, final.line, final.column⟩ character)) := by
  induction scans with
  | ending => exact TokenSupply.deliver_of_error (next_of_opensNothing misfits.opensNothing)
  | @blank blank rest line column _ _ isBlank _ inductionHypothesis =>
    have same : source.supply.next ⟨blank :: (rest ++ character :: after), line, column⟩ =
        source.supply.next ⟨rest ++ character :: after, line, column + 1⟩ :=
      congrArg (scan source) (skipBlanks_cons isBlank)
    rw [← inductionHypothesis (misfits.of_append [blank])]
    exact TokenSupply.deliver_congr same
  | @feed rest line column _ _ _ inductionHypothesis =>
    have handed : source.supply.next ⟨'\n' :: (rest ++ character :: after), line, column⟩ =
        .ok (⟨.newline, "\n", line, column⟩, ⟨rest ++ character :: after, line + 1, 0⟩) := rfl
    exact (TokenSupply.deliver_of_ok handed nofun).trans
      (by rw [inductionHypothesis (misfits.of_append ['\n'])])
  | @mark first _ rest line column _ _ mark _ inductionHypothesis =>
    have handed : source.supply.next ⟨first :: (rest ++ character :: after), line, column⟩ = _ :=
      next_of_mark _ line column mark
    exact (TokenSupply.deliver_of_ok handed (ne_of_punctuation mark).2).trans
      (by rw [inductionHypothesis (misfits.of_append [first])])
  | @word first word rest line column _ _ opens goesOn stops _ inductionHypothesis =>
    have stopsBehind : ∀ next ∈ (rest ++ character :: after).head?, ¬ isWordCharacter next := by
      cases rest with
      | cons next _ => exact stops
      | nil =>
        rintro _ ⟨⟩
        rw [List.append_nil] at misfits
        exact misfits.not_isWordCharacter (List.cons_ne_nil _ _)
          (List.forall_mem_cons.mpr ⟨Text.isWordCharacter_of_isWordStart opens, goesOn⟩)
    have handed : source.supply.next ⟨first :: (word ++ (rest ++ character :: after)), line,
        column⟩ = _ := next_of_word line column opens goesOn stopsBehind
    rw [List.cons_append, List.append_assoc]
    exact (TokenSupply.deliver_of_ok handed (wordKind_ne _).2).trans
      (by rw [inductionHypothesis (misfits.of_append (first :: word))])

end Cursor

end Idl
