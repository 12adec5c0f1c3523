/-
This file says what scanning makes of a text as a relation between the characters that are
left and the tokens that they hold, one rule to a token. The supply of a source delivers
just what the relation says, so texts can be put together: one text below another one holds
the tokens of both with a line feed between them, and those of the second text stand as many
lines further down as the first one has. Where a text stands has no bearing on what its
tokens are.
-/

import Idl.Proofs.TrailingBlanks

namespace Idl

open Text (isBlank isWordStart isWordCharacter pieces)

/-- What is delivered from a position on depends on the first step only. -/
theorem TokenSupply.deliver_congr {Fault Position : Type} {supply : TokenSupply Fault Position}
    {position other : Position} (same : supply.next position = supply.next other) :
    supply.deliver position = supply.deliver other := by
  cases handed : supply.next other with
  | error fault => rw [deliver_of_error handed, deliver_of_error (same.trans handed)]
  | ok pair =>
    obtain ⟨token, rest⟩ := pair
    by_cases ends : token.kind = .endOfFile
    · rw [deliver_of_final handed ends, deliver_of_final (same.trans handed) ends]
    · rw [deliver_of_ok handed ends, deliver_of_ok (same.trans handed) ends]

/-! ### Words and what follows them -/

namespace Text

variable {word rest : List Char}

theorem takeWhile_append_of_stops (goesOn : ∀ character ∈ word, isWordCharacter character)
    (stops : ∀ character ∈ rest.head?, ¬ isWordCharacter character) :
    (word ++ rest).takeWhile isWordCharacter = word := by
  rw [List.takeWhile_append_of_pos goesOn]
  cases rest with
  | nil => exact List.append_nil word
  | cons next _ => rw [List.takeWhile_cons_of_neg (stops next rfl), List.append_nil]

theorem dropWhile_append_of_stops (goesOn : ∀ character ∈ word, isWordCharacter character)
    (stops : ∀ character ∈ rest.head?, ¬ isWordCharacter character) :
    (word ++ rest).dropWhile isWordCharacter = rest := by
  rw [List.dropWhile_append_of_pos goesOn]
  cases rest with
  | nil => rfl
  | cons next _ => exact List.dropWhile_cons_of_neg (stops next rfl)

/-- Behind all the characters of a word stands none that goes on the word. -/
theorem stops_dropWhile (rest : List Char) :
    ∀ character ∈ (rest.dropWhile isWordCharacter).head?, ¬ isWordCharacter character := by
  intro character next
  have stopped := List.head?_dropWhile_not isWordCharacter rest
  rw [Option.mem_def.mp next] at stopped
  exact Bool.eq_false_iff.mp stopped

end Text

namespace Cursor

/-! ### Scanning to the end -/

/-- From the cursor on stand these tokens, and then the end of the file. -/
inductive Scans : Cursor → List Token → Token → Prop where
  | ending {line column : Nat} : Scans ⟨[], line, column⟩ [] ⟨.endOfFile, "", line, column⟩
  | blank {character : Char} {rest : List Char} {line column : Nat} {tokens : List Token}
      {final : Token} (blank : isBlank character)
      (later : Scans ⟨rest, line, column + 1⟩ tokens final) :
      Scans ⟨character :: rest, line, column⟩ tokens final
  | feed {rest : List Char} {line column : Nat} {tokens : List Token} {final : Token}
      (later : Scans ⟨rest, line + 1, 0⟩ tokens final) :
      Scans ⟨'\n' :: rest, line, column⟩ (⟨.newline, "\n", line, column⟩ :: tokens) final
  | mark {character : Char} {kind : TokenKind} {rest : List Char} {line column : Nat}
      {tokens : List Token} {final : Token} (mark : punctuation? character = some kind)
      (later : Scans ⟨rest, line, column + 1⟩ tokens final) :
      Scans ⟨character :: rest, line, column⟩
        (⟨kind, String.ofList [character], line, column⟩ :: tokens) final
  /-- A word goes on as far as it can. -/
  | word {first : Char} {word rest : List Char} {line column : Nat} {tokens : List Token}
      {final : Token} (opens : isWordStart first) (goesOn : ∀ character ∈ word,
        isWordCharacter character) (stops : ∀ character ∈ rest.head?, ¬ isWordCharacter character)
      (later : Scans ⟨rest, line, column + (first :: word).length⟩ tokens final) :
      Scans ⟨first :: (word ++ rest), line, column⟩
        (⟨wordKind (String.ofList (first :: word)), String.ofList (first :: word), line,
          column⟩ :: tokens) final

variable {source : Source} {cursor : Cursor} {rest tail below : List Char} {line column : Nat}
  {tokens others : List Token} {final last : Token}

theorem skipBlanks_cons {character : Char} (blank : isBlank character) :
    skipBlanks ⟨character :: rest, line, column⟩ = skipBlanks ⟨rest, line, column + 1⟩ := by
  rw [skipBlanks, skipBlanks, List.dropWhile_cons_of_pos blank, List.takeWhile_cons_of_pos blank,
    List.length_cons, Nat.add_comm _ 1, ← Nat.add_assoc]

theorem skipBlanks_of_not_blank {character : Char} (code : ¬ isBlank character) :
    skipBlanks ⟨character :: rest, line, column⟩ = ⟨character :: rest, line, column⟩ := by
  rw [skipBlanks, List.dropWhile_cons_of_neg code, List.takeWhile_cons_of_neg code]
  rfl

theorem Scans.of_skipBlanks (scans : cursor.skipBlanks.Scans tokens final) :
    cursor.Scans tokens final := by
  obtain ⟨rest, line, column⟩ := cursor
  induction rest generalizing column with
  | nil => exact scans
  | cons character rest inductionHypothesis =>
    by_cases blank : isBlank character
    · rw [skipBlanks_cons blank] at scans
      exact .blank blank (inductionHypothesis _ scans)
    · rwa [skipBlanks_of_not_blank blank] at scans

theorem Scans.kind_final (scans : cursor.Scans tokens final) : final.kind = .endOfFile := by
  induction scans with
  | ending => rfl
  | blank _ _ inductionHypothesis | feed _ inductionHypothesis | mark _ _ inductionHypothesis
  | word _ _ _ _ inductionHypothesis => exact inductionHypothesis

/-! ### What a source delivers -/

/-- A token that is scanned stands before what is scanned from behind it on. -/
theorem Scans.of_scan {token : Token} {later : Cursor}
    (scanned : cursor.scan source = .ok (token, later)) :
    (token.kind = .endOfFile → cursor.Scans [] token) ∧
      (token.kind ≠ .endOfFile → ∀ {tokens : List Token} {final : Token},
        later.Scans tokens final → cursor.Scans (token :: tokens) final) := by
  obtain ⟨rest, line, column⟩ := cursor
  unfold scan at scanned
  split at scanned
  · next nothing =>
    cases scanned
    cases nothing
    exact ⟨fun _ => .ending, fun goesOn => absurd rfl goesOn⟩
  · next first rest behind =>
    cases behind
    split at scanned
    · next feed =>
      cases scanned
      rw [beq_iff_eq.mp feed]
      exact ⟨nofun, fun _ _ _ => .feed⟩
    · split at scanned
      · next kind mark =>
        cases scanned
        exact ⟨fun ends => absurd ends (ne_of_punctuation mark).2, fun _ _ _ => .mark mark⟩
      · split at scanned
        · next opens =>
          cases scanned
          refine ⟨fun ends => absurd ends (wordKind_ne _).2, fun _ _ _ later => ?_⟩
          have scans := Scans.word opens (fun _ => List.mem_takeWhile_imp)
            (Text.stops_dropWhile rest) later
          rwa [List.takeWhile_append_dropWhile] at scans
        · cases scanned

theorem next_of_mark (rest : List Char) (line column : Nat) {character : Char}
    {kind : TokenKind} (mark : punctuation? character = some kind) :
    next source ⟨character :: rest, line, column⟩ =
      .ok (⟨kind, String.ofList [character], line, column⟩, ⟨rest, line, column + 1⟩) := by
  unfold punctuation? at mark
  split at mark <;> cases mark <;> rfl

theorem not_isBlank_of_isWordStart {character : Char} (opens : isWordStart character) :
    ¬ isBlank character := by
  rw [isBlank, Bool.or_eq_true, beq_iff_eq, beq_iff_eq]
  rintro (rfl | rfl) <;> exact absurd opens (by decide)

theorem next_of_word (line column : Nat) {first : Char} {word : List Char}
    (opens : isWordStart first) (goesOn : ∀ character ∈ word, isWordCharacter character)
    (stops : ∀ character ∈ rest.head?, ¬ isWordCharacter character) :
    next source ⟨first :: (word ++ rest), line, column⟩ =
      .ok (⟨wordKind (String.ofList (first :: word)), String.ofList (first :: word), line, column⟩,
        ⟨rest, line, column + (first :: word).length⟩) := by
  have noFeed : ¬ (first == '\n') = true := by
    rw [beq_iff_eq]
    rintro rfl
    exact absurd opens (by decide)
  have noMark : punctuation? first = none := by
    unfold punctuation?
    split <;> first | rfl | exact absurd opens (by decide)
  rw [next, skipBlanks_of_not_blank (not_isBlank_of_isWordStart opens), scan]
  simp only [noFeed, noMark, opens, Bool.false_eq_true, ↓reduceIte,
    Text.takeWhile_append_of_stops goesOn stops, Text.dropWhile_append_of_stops goesOn stops]
  rfl

theorem Scans.deliver (source : Source) (scans : cursor.Scans tokens final) :
    source.supply.deliver cursor = (tokens ++ [final], none) := by
  induction scans with
  | @ending line column =>
    have last : source.supply.next ⟨[], line, column⟩ = .ok (⟨.endOfFile, "", line, column⟩, _) :=
      rfl
    exact TokenSupply.deliver_of_final last rfl
  | @blank character rest line column _ _ blank _ inductionHypothesis =>
    have same : source.supply.next ⟨character :: rest, line, column⟩ =
        source.supply.next ⟨rest, line, column + 1⟩ :=
      congrArg (scan source) (skipBlanks_cons blank)
    rw [← inductionHypothesis]
    exact TokenSupply.deliver_congr same
  | @feed rest line column _ _ _ inductionHypothesis =>
    have handed : source.supply.next ⟨'\n' :: rest, line, column⟩ =
        .ok (⟨.newline, "\n", line, column⟩, ⟨rest, line + 1, 0⟩) := rfl
    rw [TokenSupply.deliver_of_ok handed nofun, inductionHypothesis]
    rfl
  | @mark character _ rest line column _ _ mark _ inductionHypothesis =>
    have handed : source.supply.next ⟨character :: rest, line, column⟩ = _ :=
      next_of_mark rest line column mark
    rw [TokenSupply.deliver_of_ok handed (ne_of_punctuation mark).2, inductionHypothesis]
    rfl
  | @word first word rest line column _ _ opens goesOn stops _ inductionHypothesis =>
    have handed : source.supply.next ⟨first :: (word ++ rest), line, column⟩ = _ :=
      next_of_word line column opens goesOn stops
    rw [TokenSupply.deliver_of_ok handed (wordKind_ne _).2, inductionHypothesis]
    rfl

theorem exists_scans (faultless : (source.supply.deliver cursor).2 = none) :
    ∃ tokens final, source.supply.deliver cursor = (tokens ++ [final], none) ∧
      cursor.Scans tokens final := by
  induction cursor using source.supply.induction with
  | fails failed =>
    rw [TokenSupply.deliver_of_error failed] at faultless
    exact nomatch faultless
  | ends handed ends =>
    exact ⟨[], _, TokenSupply.deliver_of_final handed ends,
      .of_skipBlanks ((Scans.of_scan handed).1 ends)⟩
  | goesOn handed goesOn inductionHypothesis =>
    rw [TokenSupply.deliver_of_ok handed goesOn] at faultless ⊢
    obtain ⟨tokens, final, delivered, scans⟩ := inductionHypothesis faultless
    exact ⟨_ :: tokens, final, by rw [delivered, List.cons_append],
      .of_skipBlanks ((Scans.of_scan handed).2 goesOn scans)⟩

end Cursor

/-- The tokens of a source are those that stand in its code. -/
theorem Source.tokens_eq_ok_iff_scans {source : Source} {tokens : List Token} {final : Token} :
    source.tokens = .ok (tokens ++ [final]) ↔ source.start.Scans tokens final := by
  rw [Source.tokens, TokenSupply.tokens_eq_ok_iff]
  constructor
  · intro delivered
    obtain ⟨others, last, same, scans⟩ := Cursor.exists_scans (congrArg Prod.snd delivered)
    obtain ⟨rfl, rfl⟩ :=
      List.append_singleton_inj.mp (congrArg Prod.fst (same.symm.trans delivered))
    exact scans
  · exact Cursor.Scans.deliver source

/-- The token that many lines further down. -/
def Token.down (lines : Nat) (token : Token) : Token :=
  { token with line := lines + token.line }

namespace Cursor.Scans

variable {cursor : Cursor} {rest tail below : List Char} {line column : Nat}
  {tokens others : List Token} {final last : Token}

/-! ### Putting texts together -/

theorem of_blanks (blank : ∀ character ∈ tail, isBlank character) :
    Scans ⟨tail, line, column⟩ [] ⟨.endOfFile, "", line, column + tail.length⟩ := by
  induction tail generalizing column with
  | nil => exact .ending
  | cons character rest inductionHypothesis =>
    rw [List.forall_mem_cons] at blank
    have later := @inductionHypothesis (column + 1) blank.2
    rw [Nat.add_assoc, Nat.add_comm 1] at later
    exact .blank blank.1 later

/-- A word does not go on past a character that is no part of words. -/
theorem stops_cons {character : Char} (other : isWordCharacter character = false) :
    ∀ next ∈ (character :: rest).head?, ¬ isWordCharacter next := by
  rintro _ ⟨⟩
  rw [other]
  exact Bool.false_ne_true

/-- What follows a word goes on to follow it when something that is no part of a word is added. -/
theorem stops_append (stops : ∀ character ∈ rest.head?, ¬ isWordCharacter character)
    (tailStops : ∀ character ∈ tail.head?, ¬ isWordCharacter character) :
    ∀ character ∈ (rest ++ tail).head?, ¬ isWordCharacter character := by
  cases rest with
  | nil => exact tailStops
  | cons first others => exact stops

/-- Blanks at the end of a text put its end further to the right. -/
theorem append_blanks (scans : cursor.Scans tokens final)
    (blank : ∀ character ∈ tail, isBlank character) :
    Scans ⟨cursor.rest ++ tail, cursor.line, cursor.column⟩ tokens
      { final with column := final.column + tail.length } := by
  induction scans with
  | ending => exact of_blanks blank
  | blank blank _ inductionHypothesis => exact .blank blank inductionHypothesis
  | feed _ inductionHypothesis => exact .feed inductionHypothesis
  | mark mark _ inductionHypothesis => exact .mark mark inductionHypothesis
  | @word first word rest line column _ _ opens goesOn stops _ inductionHypothesis =>
    have tailStops : ∀ character ∈ tail.head?, ¬ isWordCharacter character := by
      intro character first
      have isBlank := blank character (List.mem_of_mem_head? first)
      rw [Text.isBlank, Bool.or_eq_true, beq_iff_eq, beq_iff_eq] at isBlank
      rcases isBlank with rfl | rfl <;> decide
    have scans := Scans.word opens goesOn (stops_append stops tailStops) inductionHypothesis
    rwa [← List.append_assoc] at scans

/-- One text below another one: the tokens of the first one, a line feed, and the tokens of the
second one. -/
theorem append_line (scans : cursor.Scans tokens final)
    (after : Scans ⟨below, final.line + 1, 0⟩ others last) :
    Scans ⟨cursor.rest ++ '\n' :: below, cursor.line, cursor.column⟩
      (tokens ++ ⟨.newline, "\n", final.line, final.column⟩ :: others) last := by
  induction scans with
  | ending => exact .feed after
  | blank blank _ inductionHypothesis => exact .blank blank (inductionHypothesis after)
  | feed _ inductionHypothesis => exact .feed (inductionHypothesis after)
  | mark mark _ inductionHypothesis => exact .mark mark (inductionHypothesis after)
  | @word first word rest line column _ _ opens goesOn stops _ inductionHypothesis =>
    have scans := Scans.word opens goesOn (stops_append stops (stops_cons rfl))
      (inductionHypothesis after)
    rwa [← List.append_assoc] at scans

/-! ### Lines -/

/-- The same text further down holds the same tokens further down. -/
theorem down (lines : Nat) (scans : cursor.Scans tokens final) :
    Scans ⟨cursor.rest, lines + cursor.line, cursor.column⟩ (tokens.map (Token.down lines))
      (final.down lines) := by
  induction scans with
  | ending => exact .ending
  | blank blank _ inductionHypothesis => exact .blank blank inductionHypothesis
  | feed _ inductionHypothesis => exact .feed inductionHypothesis
  | mark mark _ inductionHypothesis => exact .mark mark inductionHypothesis
  | word opens goesOn stops _ inductionHypothesis =>
    exact .word opens goesOn stops inductionHypothesis

/-- The file ends on its last line. -/
theorem line_final (scans : cursor.Scans tokens final) :
    final.line = cursor.line + cursor.rest.count '\n' := by
  have otherwise : ∀ {character : Char} {rest : List Char}, character ≠ '\n' →
      (character :: rest).count '\n' = rest.count '\n' :=
    fun other => List.count_cons_of_ne other
  induction scans with
  | ending => rfl
  | blank blank _ inductionHypothesis =>
    rw [otherwise (ne_of_apply_ne isBlank (by rw [blank]; decide))]
    exact inductionHypothesis
  | feed _ inductionHypothesis =>
    rw [List.count_cons_self, Nat.add_comm _ 1, ← Nat.add_assoc]
    exact inductionHypothesis
  | mark mark _ inductionHypothesis =>
    rw [otherwise (ne_of_apply_ne punctuation? (by rw [mark]; exact nofun))]
    exact inductionHypothesis
  | @word first word rest line column _ _ opens goesOn _ _ inductionHypothesis =>
    have clean : '\n' ∉ word := fun member => absurd (goesOn _ member) (by decide)
    rw [otherwise (ne_of_apply_ne isWordStart (by rw [opens]; decide)), List.count_append,
      List.count_eq_zero_of_not_mem clean, Nat.zero_add]
    exact inductionHypothesis

theorem line_le (scans : cursor.Scans tokens final) :
    ∀ token ∈ tokens, token.line ≤ final.line := by
  induction scans with
  | ending => exact nofun
  | blank _ _ inductionHypothesis => exact inductionHypothesis
  | feed later inductionHypothesis =>
    refine List.forall_mem_cons.mpr ⟨?_, inductionHypothesis⟩
    rw [later.line_final, Nat.add_assoc]
    exact Nat.le_add_right _ _
  | mark _ later inductionHypothesis | word _ _ _ later inductionHypothesis =>
    refine List.forall_mem_cons.mpr ⟨?_, inductionHypothesis⟩
    rw [later.line_final]
    exact Nat.le_add_right _ _

/-- A line with more than blanks on it holds a token, and the line feed is not the first. -/
theorem exists_first (scans : cursor.Scans tokens final) {line rest : List Char}
    (starts : cursor.rest = line ++ rest) (clean : '\n' ∉ line)
    (code : ¬ Text.isBlankLine line) :
    ∃ token others, tokens = token :: others ∧ token.kind ≠ .newline := by
  induction scans generalizing line with
  | ending =>
    obtain ⟨rfl, _⟩ := List.append_eq_nil_iff.mp starts.symm
    exact absurd rfl code
  | @blank character behind _ _ _ _ blank _ inductionHypothesis =>
    cases line with
    | nil => exact absurd rfl code
    | cons first others =>
      obtain ⟨rfl, behind⟩ := List.cons.inj starts
      refine inductionHypothesis behind (fun member => clean (List.mem_cons_of_mem _ member)) ?_
      intro blankLine
      refine code ?_
      rw [Text.isBlankLine, List.all_cons, blank]
      exact blankLine
  | feed =>
    cases line with
    | nil => exact absurd rfl code
    | cons first others =>
      obtain ⟨rfl, _⟩ := List.cons.inj starts
      exact absurd List.mem_cons_self clean
  | mark mark => exact ⟨_, _, rfl, (ne_of_punctuation mark).1⟩
  | word => exact ⟨_, _, rfl, (wordKind_ne _).1⟩

end Cursor.Scans

/-! ### Words without places -/

/-- The token without its place. -/
def Token.unplaced (token : Token) : Token := ⟨token.kind, token.text, 0, 0⟩

/-- The text holds these tokens, wherever it stands. -/
def Text.Holds (text : List Char) (words : List Token) : Prop :=
  ∀ line column, ∃ tokens final, Cursor.Scans ⟨text, line, column⟩ tokens final ∧
    tokens.map Token.unplaced = words

namespace Text.Holds

variable {rest : List Char} {words : List Token}

theorem nil : Holds [] [] := fun _ _ => ⟨[], _, .ending, rfl⟩

theorem blank {character : Char} (blank : isBlank character) (later : Holds rest words) :
    Holds (character :: rest) words := by
  intro line column
  obtain ⟨tokens, final, scans, same⟩ := later line (column + 1)
  exact ⟨tokens, final, .blank blank scans, same⟩

theorem feed (later : Holds rest words) :
    Holds ('\n' :: rest) (⟨.newline, "\n", 0, 0⟩ :: words) := by
  intro line column
  obtain ⟨tokens, final, scans, rfl⟩ := later (line + 1) 0
  exact ⟨_, final, .feed scans, rfl⟩

theorem mark {character : Char} {kind : TokenKind}
    (mark : Cursor.punctuation? character = some kind) (later : Holds rest words) :
    Holds (character :: rest) (⟨kind, String.ofList [character], 0, 0⟩ :: words) := by
  intro line column
  obtain ⟨tokens, final, scans, rfl⟩ := later line (column + 1)
  exact ⟨_, final, .mark mark scans, rfl⟩

theorem word {text : String} (word : isWord text.toList)
    (stops : ∀ character ∈ rest.head?, ¬ isWordCharacter character) (later : Holds rest words) :
    Holds (text.toList ++ rest) (⟨Cursor.wordKind text, text, 0, 0⟩ :: words) := by
  intro line column
  cases shape : text.toList with
  | nil =>
    rw [shape] at word
    exact nomatch word
  | cons first others =>
    rw [shape, isWord, Bool.and_eq_true, List.all_eq_true] at word
    obtain ⟨tokens, final, scans, rfl⟩ := later line (column + (first :: others).length)
    have whole : String.ofList (first :: others) = text := by rw [← shape, String.ofList_toList]
    rw [← whole]
    exact ⟨_, final, .word word.1 word.2 stops scans, rfl⟩

end Text.Holds

end Idl
