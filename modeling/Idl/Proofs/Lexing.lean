/-
This file says what the scanner makes of any code at all. The tokens of a text are its
lexemes in the order in which they stand there, each at its place, and with the blanks
between them they make up the whole text. Whether a text has such a list of tokens shows in
its single characters and in the first character of each run; where it has none, the tokens
of what stands before the first character that does not fit are delivered, and the report
names that character.
-/

import Idl.Proofs.WordRuns

namespace Idl

open Text (isBlank isWordStart isWordCharacter)

namespace Text

/-! ### The tokens of lexemes -/

/-- The kind of a lexeme. Two words open declarations, and every other word is a name; nothing at
all is the end of the file. -/
def kindOf : List Char → TokenKind
  | [] => .endOfFile
  | ['\n'] => .newline
  | ['\x7b'] => .leftBrace
  | ['\x7d'] => .rightBrace
  | ['('] => .leftParenthesis
  | [')'] => .rightParenthesis
  | [','] => .comma
  | word =>
    if word = "message".toList then .message
    else if word = "service".toList then .service
    else .identifier

/-- The line of what stands behind a text: the number of line feeds before it. -/
def lineBehind (before : List Char) : Nat := before.count '\n'

/-- The column of what stands behind a text: the number of characters since the last line feed. -/
def columnBehind (before : List Char) : Nat :=
  (before.rtakeWhile fun character => character != '\n').length

/-- The token that a lexeme is behind what stands before it. -/
def tokenBehind (before lexeme : List Char) : Token :=
  ⟨kindOf lexeme, String.ofList lexeme, lineBehind before, columnBehind before⟩

/-- With these blanks before each of them, the tokens make up the text. -/
structure Fills (text : List Char) (tokens : List Token) (gaps : List (List Char)) : Prop where
  length : gaps.length = tokens.length
  blank : ∀ gap ∈ gaps, ∀ character ∈ gap, isBlank character
  whole : text = (List.zipWith (fun gap token => gap ++ token.text.toList) gaps tokens).flatten

namespace Fills

variable {rest : List Char} {tokens : List Token} {token : Token} {gap : List Char}
  {gaps : List (List Char)} {character : Char}

theorem skip (blank : isBlank character) (fills : Fills rest tokens (gap :: gaps)) :
    Fills (character :: rest) tokens ((character :: gap) :: gaps) := by
  cases tokens with
  | nil => exact nomatch fills.length
  | cons token tokens =>
    obtain ⟨gapBlank, gapsBlank⟩ := List.forall_mem_cons.mp fills.blank
    refine ⟨fills.length, List.forall_mem_cons.mpr ⟨?_, gapsBlank⟩, ?_⟩
    · exact List.forall_mem_cons.mpr ⟨blank, gapBlank⟩
    · rw [fills.whole]
      rfl

theorem take {text : List Char} (whole : text = token.text.toList ++ rest)
    (fills : Fills rest tokens gaps) : Fills text (token :: tokens) ([] :: gaps) := by
  refine ⟨congrArg Nat.succ fills.length, List.forall_mem_cons.mpr ⟨nofun, fills.blank⟩, ?_⟩
  rw [whole, fills.whole]
  rfl

end Fills

theorem kindOf_punctuation {character : Char} {kind : TokenKind}
    (mark : Cursor.punctuation? character = some kind) : kindOf [character] = kind := by
  unfold Cursor.punctuation? at mark
  split at mark <;> cases mark <;> rfl

theorem kindOf_word {first : Char} (opens : isWordStart first) (word : List Char) :
    kindOf (first :: word) = Cursor.wordKind (String.ofList (first :: word)) := by
  have spells : ∀ text : String,
      first :: word = text.toList ↔ (String.ofList (first :: word) == text) = true := by
    intro text
    rw [beq_iff_eq]
    exact ⟨fun same => by rw [same, String.ofList_toList],
      fun same => by rw [← same, String.toList_ofList]⟩
  unfold kindOf
  split
  case h_8 => simp only [spells, Cursor.wordKind]
  case h_1 same => exact absurd same (List.cons_ne_nil _ _)
  all_goals
    next same =>
      obtain ⟨rfl, _⟩ := List.cons.inj same
      exact absurd opens (by decide)

theorem lineBehind_append (before : List Char) {lexeme : List Char} (clean : '\n' ∉ lexeme) :
    lineBehind (before ++ lexeme) = lineBehind before := by
  rw [lineBehind, List.count_append, List.count_eq_zero_of_not_mem clean, Nat.add_zero, lineBehind]

theorem columnBehind_append (before : List Char) {lexeme : List Char} (clean : '\n' ∉ lexeme) :
    columnBehind (before ++ lexeme) = columnBehind before + lexeme.length := by
  have allKept : ∀ character ∈ lexeme.reverse, (character != '\n') = true := by
    intro character member
    rw [bne_iff_ne]
    rintro rfl
    exact clean (List.mem_reverse.mp member)
  rw [columnBehind, List.rtakeWhile, List.reverse_append, List.takeWhile_append_of_pos allKept,
    List.reverse_append, List.reverse_reverse, List.length_append]
  rfl

theorem lineBehind_feed (before : List Char) :
    lineBehind (before ++ ['\n']) = lineBehind before + 1 := by
  rw [lineBehind, List.count_append, List.count_singleton_self, lineBehind]

theorem columnBehind_feed (before : List Char) : columnBehind (before ++ ['\n']) = 0 := by
  rw [columnBehind, List.rtakeWhile_concat_neg _ _ _ (by decide), List.length_nil]

/-- The tokens of lexemes of a text that stands behind another one. -/
def tokensBehind (earlier : List Char) (lexemes : List (List Char × List Char)) : List Token :=
  lexemes.map fun lexeme => tokenBehind (earlier ++ lexeme.1) lexeme.2

theorem tokensBehind_map (earlier first : List Char) (lexemes : List (List Char × List Char)) :
    tokensBehind earlier (lexemes.map fun lexeme => (first ++ lexeme.1, lexeme.2)) =
      tokensBehind (earlier ++ first) lexemes := by
  simp only [tokensBehind, List.map_map, Function.comp_def, List.append_assoc]

/-- Behind a text, these are the tokens of the lexemes of another one, and the end of the file. -/
def TokensAt (earlier rest : List Char) (tokens : List Token) (final : Token) : Prop :=
  ∃ lexemes, Lexes rest lexemes ∧ tokens = tokensBehind earlier lexemes ∧
    final = tokenBehind (earlier ++ rest) []

namespace TokensAt

variable {earlier rest : List Char} {character : Char} {tokens : List Token} {final : Token}

theorem nil (earlier : List Char) : TokensAt earlier [] [] (tokenBehind earlier []) :=
  ⟨[], .nil, rfl, by rw [List.append_nil]⟩

theorem blank (blank : isBlank character)
    (later : TokensAt (earlier ++ [character]) rest tokens final) :
    TokensAt earlier (character :: rest) tokens final := by
  obtain ⟨lexemes, lexes, rfl, rfl⟩ := later
  refine ⟨_, lexes.blank blank, (tokensBehind_map earlier [character] lexemes).symm, ?_⟩
  rw [List.append_assoc, List.singleton_append]

theorem single (notBlank : ¬ isBlank character) (noWord : ¬ isWordCharacter character)
    (later : TokensAt (earlier ++ [character]) rest tokens final) :
    TokensAt earlier (character :: rest) (tokenBehind earlier [character] :: tokens) final := by
  obtain ⟨lexemes, lexes, rfl, rfl⟩ := later
  refine ⟨_, lexes.single notBlank noWord, ?_, by rw [List.append_assoc, List.singleton_append]⟩
  exact List.cons_eq_cons.mpr ⟨congrArg (tokenBehind · [character]) (List.append_nil earlier).symm,
    (tokensBehind_map earlier [character] lexemes).symm⟩

theorem word {word : List Char} (nonempty : word ≠ [])
    (inside : ∀ character ∈ word, isWordCharacter character)
    (stops : ∀ character ∈ rest.head?, ¬ isWordCharacter character)
    (later : TokensAt (earlier ++ word) rest tokens final) :
    TokensAt earlier (word ++ rest) (tokenBehind earlier word :: tokens) final := by
  obtain ⟨lexemes, lexes, rfl, rfl⟩ := later
  refine ⟨_, lexes.word nonempty inside stops, ?_, by rw [List.append_assoc]⟩
  exact List.cons_eq_cons.mpr ⟨congrArg (tokenBehind · word) (List.append_nil earlier).symm,
    (tokensBehind_map earlier word lexemes).symm⟩

end TokensAt

end Text

open Text (Lexes Fills Fits FirstMisfit TokensAt tokenBehind tokensBehind lineBehind columnBehind)

namespace Cursor.Scans

variable {cursor : Cursor} {tokens : List Token} {final : Token}

/-- What is scanned behind a text are the tokens of the lexemes that stand there. -/
theorem tokensAt (scans : cursor.Scans tokens final) {earlier : List Char}
    (line : cursor.line = lineBehind earlier) (column : cursor.column = columnBehind earlier) :
    TokensAt earlier cursor.rest tokens final := by
  induction scans generalizing earlier with
  | ending =>
    cases line
    cases column
    exact .nil earlier
  | @blank character _ _ _ _ _ blank _ inductionHypothesis =>
    cases line
    cases column
    have clean : '\n' ∉ [character] := by
      rw [List.mem_singleton]
      rintro rfl
      exact absurd blank (by decide)
    exact .blank blank (inductionHypothesis (Text.lineBehind_append _ clean).symm
      (Text.columnBehind_append _ clean).symm)
  | feed _ inductionHypothesis =>
    cases line
    cases column
    exact .single (by decide) (by decide) (inductionHypothesis (Text.lineBehind_feed earlier).symm
      (Text.columnBehind_feed earlier).symm)
  | @mark character _ _ _ _ _ _ mark _ inductionHypothesis =>
    cases line
    cases column
    have clean : '\n' ∉ [character] := by
      rw [List.mem_singleton]
      rintro rfl
      exact nomatch mark
    rw [← Text.kindOf_punctuation mark]
    exact .single (Text.not_isBlank_of_punctuation mark)
      (Text.not_isWordCharacter_of_punctuation mark)
      (inductionHypothesis (Text.lineBehind_append _ clean).symm
        (Text.columnBehind_append _ clean).symm)
  | @word first word _ _ _ _ _ opens goesOn stops _ inductionHypothesis =>
    cases line
    cases column
    have inside : ∀ character ∈ first :: word, isWordCharacter character :=
      List.forall_mem_cons.mpr ⟨Text.isWordCharacter_of_isWordStart opens, goesOn⟩
    have clean : '\n' ∉ first :: word := fun member => absurd (inside _ member) (by decide)
    rw [← Text.kindOf_word opens]
    exact .word (List.cons_ne_nil _ _) inside stops
      (inductionHypothesis (Text.lineBehind_append _ clean).symm
        (Text.columnBehind_append _ clean).symm)

/-- With the blanks that are skipped, what is scanned is the text. -/
theorem exists_fills (scans : cursor.Scans tokens final) :
    ∃ gap gaps, Fills cursor.rest (tokens ++ [final]) (gap :: gaps) := by
  induction scans with
  | ending => exact ⟨[], [], rfl, by simp, rfl⟩
  | blank blank _ inductionHypothesis =>
    obtain ⟨gap, gaps, fills⟩ := inductionHypothesis
    exact ⟨_, gaps, fills.skip blank⟩
  | feed _ inductionHypothesis =>
    obtain ⟨gap, gaps, fills⟩ := inductionHypothesis
    exact ⟨[], _, fills.take (by rw [show "\n".toList = ['\n'] from rfl]; rfl)⟩
  | mark _ _ inductionHypothesis | word _ _ _ _ inductionHypothesis =>
    obtain ⟨gap, gaps, fills⟩ := inductionHypothesis
    exact ⟨[], _, fills.take (by rw [String.toList_ofList]; rfl)⟩

end Cursor.Scans

namespace Text

/-- Every character of a text fits if each belongs to the language and no run opens with a digit. -/
theorem fits_iff {text : List Char} : Fits text ↔
    (∀ character ∈ text, InAlphabet character) ∧
      ∀ before run after, text = before ++ (run ++ after) → IsRun before run after →
        ∀ first ∈ run.head?, ¬ first.isDigit := by
  constructor
  · intro fits
    constructor
    · intro character member
      obtain ⟨before, after, split⟩ := List.append_of_mem member
      by_contra foreign
      exact fits before character after split (Or.inl foreign)
    · rintro before (_ | ⟨first, others⟩) after split isRun _ ⟨⟩ digit
      exact fits before first (others ++ after) split (Or.inr ⟨digit, isRun.opens⟩)
  · rintro ⟨inside, noDigit⟩ before character after rfl (foreign | ⟨digit, boundary⟩)
    · exact foreign (inside character (List.mem_append_right _ List.mem_cons_self))
    · -- The digit opens the run that goes on as far as there are characters of words.
      refine noDigit before (character :: after.takeWhile isWordCharacter)
        (after.dropWhile isWordCharacter) ?_ ⟨List.cons_ne_nil _ _, ?_, boundary, ?_⟩ character rfl
        digit
      · rw [List.cons_append, List.takeWhile_append_dropWhile]
      · exact List.forall_mem_cons.mpr ⟨isWordCharacter_of_isDigit digit,
          fun _ => List.mem_takeWhile_imp⟩
      · exact stops_dropWhile after

end Text

namespace Source

variable {source : Source}

/-- A source is scanned to its end, or up to the first character that does not fit. -/
theorem scans_or_misfits (source : Source) :
    (∃ tokens final, source.start.Scans tokens final) ∨
      ∃ before character after tokens final, source.text = before ++ character :: after ∧
        FirstMisfit source.text before character ∧ Cursor.Scans ⟨before, 0, 0⟩ tokens final := by
  obtain ⟨before, after, tokens, final, split, scans, misfits⟩ :=
    Cursor.scansUpTo source.text 0 0
  cases after with
  | nil =>
    rw [List.append_nil] at split
    refine Or.inl ⟨tokens, final, ?_⟩
    rw [start, split]
    exact scans
  | cons character after =>
    exact Or.inr ⟨before, character, after, tokens, final, split,
      ⟨⟨after, split⟩, misfits character rfl, scans.fits⟩, scans⟩

theorem exists_tokens_iff_fits (source : Source) :
    (∃ tokens, source.tokens = .ok tokens) ↔ Fits source.text := by
  constructor
  · rintro ⟨all, read⟩
    obtain ⟨delivered, faultless⟩ := tokens_eq_ok_iff.mp read
    obtain ⟨tokens, final, shape, _⟩ := exists_final faultless
    rw [delivered.symm.trans shape] at read
    exact (tokens_eq_ok_iff_scans.mp read).fits
  · intro fits
    rcases source.scans_or_misfits with
      ⟨tokens, final, scans⟩ | ⟨before, character, after, _, _, split, misfit, _⟩
    · exact ⟨_, tokens_eq_ok_iff_scans.mpr scans⟩
    · exact absurd misfit.misfits (fits before character after split)

/-- The tokens of a source are the lexemes of its code, each at its place, and the end of the
file. -/
theorem tokens_eq_lexemes {all : List Token} (read : source.tokens = .ok all) :
    ∃ lexemes gaps, Lexes source.text lexemes ∧ Fills source.text all gaps ∧
      all = tokensBehind [] lexemes ++ [tokenBehind source.text []] ∧
      ∀ token ∈ tokensBehind [] lexemes, token.kind ≠ .endOfFile := by
  obtain ⟨delivered, faultless⟩ := tokens_eq_ok_iff.mp read
  obtain ⟨tokens, final, shape, _⟩ := exists_final faultless
  have same := delivered.symm.trans shape
  subst same
  have scans := tokens_eq_ok_iff_scans.mp read
  obtain ⟨lexemes, lexes, rfl, rfl⟩ := @Cursor.Scans.tokensAt _ _ _ scans [] rfl rfl
  obtain ⟨gap, gaps, fills⟩ := scans.exists_fills
  exact ⟨lexemes, gap :: gaps, lexes, fills, rfl, fun token member =>
    kind_ne_endOfFile delivered member⟩

/-- The report is about a character behind a text: it names the character and shows its line. -/
structure ReportsMisfit (source : Source) (diagnostic : Diagnostic) (before : List Char)
    (character : Char) : Prop where
  message : diagnostic.message = "invalid character " ++ Text.quote (String.singleton character)
  file : diagnostic.file = source.file
  line : diagnostic.line = source.lineNumber (lineBehind before)
  column : diagnostic.column.map UInt32.toNat = some (columnBehind before)
  spanLength : diagnostic.spanLength = some 1
  sourceLine : diagnostic.sourceLine =
    (source.fileLine? (source.lineNumber (lineBehind before))).map String.ofList

/-- Where a source is not scanned to its end, the tokens before the first character that does not
fit are those of the text before it, and the character is reported. -/
theorem reports_firstMisfit (short : source.text.length < 2 ^ 32) {diagnostic : Diagnostic}
    (failed : source.tokens = .error diagnostic) :
    ∃ before character, FirstMisfit source.text before character ∧
      (∃ final, tokens { source with text := before } = .ok (source.delivered ++ [final])) ∧
      source.ReportsMisfit diagnostic before character := by
  rcases source.scans_or_misfits with
    ⟨tokens, final, scans⟩ | ⟨before, character, after, tokens, final, split, misfit, scans⟩
  · exact nomatch failed.symm.trans (tokens_eq_ok_iff_scans.mpr scans)
  · have delivered : source.supply.deliver source.start =
        (tokens, some (Cursor.invalid source ⟨character :: after, final.line, final.column⟩
          character)) := by
      rw [start, split]
      exact scans.deliver_misfit misfit.misfits source after
    have reported : diagnostic = _ := Except.error.inj (failed.symm.trans (by
      rw [Source.tokens, TokenSupply.tokens, delivered]))
    obtain ⟨_, _, _, rfl⟩ := @Cursor.Scans.tokensAt _ _ _ scans [] rfl rfl
    refine ⟨before, character, misfit,
      ⟨tokenBehind before [], tokens_eq_ok_iff_scans.mpr ?_⟩, ?_⟩
    · rw [Source.delivered, delivered]
      exact scans
    · have inside : columnBehind before ≤ before.length :=
        (List.rtakeWhile_suffix _ before).length_le
      have fits : columnBehind before < 2 ^ 32 := by
        refine lt_of_le_of_lt (inside.trans ?_) short
        rw [split, List.length_append]
        exact Nat.le_add_right _ _
      subst reported
      exact ⟨rfl, rfl, rfl, congrArg some (UInt32.toNat_ofNat_of_lt fits), rfl, rfl⟩

/-- The scanner accepts just the texts whose characters all belong to the language and in which no
run of characters of words opens with a digit. The tokens of such a text are its runs and its
other characters apart from the blanks, each at its place and in the order of the text. In any
other text the first character that does not fit is reported, behind the tokens of what stands
before it. -/
theorem tokens_exact {source : Source} (short : source.text.length < 2 ^ 32) :
    ((∃ tokens, source.tokens = .ok tokens) ↔
      (∀ character ∈ source.text, Text.InAlphabet character) ∧
        ∀ before run after, source.text = before ++ (run ++ after) →
          Text.IsRun before run after → ∀ first ∈ run.head?, ¬ first.isDigit) ∧
    (∀ all, source.tokens = .ok all → ∃ lexemes gaps,
      Lexes source.text lexemes ∧ Fills source.text all gaps ∧
        all = tokensBehind [] lexemes ++ [tokenBehind source.text []] ∧
        ∀ token ∈ tokensBehind [] lexemes, token.kind ≠ .endOfFile) ∧
    ∀ diagnostic, source.tokens = .error diagnostic → ∃ before character,
      FirstMisfit source.text before character ∧
        (∃ final, tokens { source with text := before } = .ok (source.delivered ++ [final])) ∧
        source.ReportsMisfit diagnostic before character :=
  ⟨source.exists_tokens_iff_fits.trans Text.fits_iff, fun _ => tokens_eq_lexemes,
    fun _ => reports_firstMisfit short⟩

/-- Code that no preparation leaves behind: a digit in no word, and a carriage return. -/
def strayDigit : Source where
  file := "stray.idl"
  text := "message_ (\n \tservice7,9\r".toList
  lines := []
  lineMap := #[4, 9]
  fileLines := #[[], "// ß".toList]

/-- The run that opens with a digit is found, so a report is made, and the report is what the
theorem says. -/
theorem strayDigit_reported :
    strayDigit.text.length < 2 ^ 32 ∧
      ∃ diagnostic, strayDigit.tokens = .error diagnostic ∧ ∃ before character,
        FirstMisfit strayDigit.text before character ∧
          (∃ final, tokens { strayDigit with text := before } =
            .ok (strayDigit.delivered ++ [final])) ∧
          strayDigit.ReportsMisfit diagnostic before character := by
  have short : strayDigit.text.length < 2 ^ 32 := by decide
  obtain ⟨accepts, _, reports⟩ := tokens_exact short
  have isRun : Text.IsRun "message_ (\n \tservice7,".toList ['9'] ['\r'] := by
    refine ⟨List.cons_ne_nil _ _, List.forall_mem_singleton.mpr (by decide),
      fun last before => ?_, fun next after => ?_⟩
    · cases before
      decide
    · cases after
      decide
  refine ⟨short, ?_⟩
  cases read : strayDigit.tokens with
  | error diagnostic => exact ⟨diagnostic, rfl, reports diagnostic read⟩
  | ok tokens => exact absurd rfl ((accepts.mp ⟨tokens, read⟩).2 _ _ _ rfl isRun '9' rfl)

end Source

end Idl
