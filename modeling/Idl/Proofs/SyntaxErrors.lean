/-
This file shows that a syntax error stands on the first wrong token. What was read before
it is the beginning of a sentence, and together with it no longer is. The report of an
unexpected token names that token and the one before it; the words of a report are cut
at their spaces to show that the two can be read off its text without ambiguity.
-/

import Idl.Proofs.Lexemes
import Mathlib

namespace Idl

namespace Text

/-! ### The words of a text -/

/-- The words of a text, cut at its spaces. -/
def words (text : String) : List (List Char) := pieces ' ' text.toList

theorem words_append_space (first second : String) :
    words (first ++ (" " ++ second)) = words first ++ words second := by
  rw [words, String.toList_append, String.toList_append]
  exact pieces_append_separator ' ' first.toList second.toList

theorem words_injective {first second : String} (same : words first = words second) :
    first = second :=
  String.toList_inj.mp (pieces_injective same)

/-! ### Quoted texts -/

theorem space_notMem_escape {character : Char} (other : character ≠ ' ') :
    ' ' ∉ escape character := by
  have digits : ∀ number < 32, Nat.digitChar (number / 16) ≠ ' ' ∧
      Nat.digitChar (number % 16) ≠ ' ' := by
    decide
  unfold escape
  repeat' split
  any_goals decide
  · next control =>
    obtain ⟨high, low⟩ := digits _ control
    simp [Ne.symm high, Ne.symm low]
  · simpa using Ne.symm other

theorem space_notMem_quote {text : String} (absent : ' ' ∉ text.toList) :
    ' ' ∉ (quote text).toList := by
  rw [quote, String.toList_ofList, quoted]
  simp only [List.mem_cons, List.mem_append, List.mem_flatMap, List.not_mem_nil, or_false,
    not_or, not_exists, not_and]
  refine ⟨by decide, fun character member => ?_, by decide⟩
  exact space_notMem_escape fun same => absent (same ▸ member)

end Text

/-! ### The words of tokens -/

theorem Lexeme.space_notMem {kind : TokenKind} {text : String} (lexeme : Lexeme kind text) :
    ' ' ∉ text.toList := by
  cases lexeme with
  | identifier name =>
    have word := name.word
    cases characters : text.toList with
    | nil => exact List.not_mem_nil
    | cons first rest =>
      rw [characters, Text.isWord, Bool.and_eq_true, List.all_eq_true] at word
      obtain ⟨opens, goesOn⟩ := word
      rintro (_ | ⟨_, member⟩)
      · exact absurd opens (by decide)
      · exact absurd (goesOn ' ' member) (by decide)
  | _ => decide

namespace Token

/-- A token other than the end of the file is shown as one word, a quoted text. -/
theorem words_describe {token : Token} (lexeme : Lexeme token.kind token.text)
    (goesOn : token.kind ≠ .endOfFile) :
    Text.words token.describe = [(Text.quote token.text).toList] := by
  rw [describe, if_neg fun final => goesOn (beq_iff_eq.mp final)]
  exact Text.pieces_of_notMem (Text.space_notMem_quote lexeme.space_notMem)

/-- No word of a token is one of those that reports are written with. -/
theorem notMem_words_describe {token : Token} (lexeme : Lexeme token.kind token.text) :
    "after".toList ∉ Text.words token.describe ∧ "but".toList ∉ Text.words token.describe := by
  by_cases final : token.kind = .endOfFile
  · rw [describe, if_pos (beq_iff_eq.mpr final)]
    decide
  · have opens : (Text.quote token.text).toList.head? = some '"' := by
      rw [Text.quote, String.toList_ofList, Text.quoted, List.head?_cons]
    rw [words_describe lexeme final, List.mem_singleton, List.mem_singleton]
    refine ⟨fun same => ?_, fun same => ?_⟩ <;> rw [← same] at opens <;> exact nomatch opens

end Token

/-! ### Reports of unexpected tokens -/

namespace SyntaxFault

/-- What is said when something was expected behind a token and something else was found. -/
def behind (expected previous found : String) : String :=
  "expected " ++ expected ++ " after " ++ previous ++ ", but got " ++ found

theorem words_behind (expected previous found : String) :
    Text.words (behind expected previous found) =
      ("expected".toList :: Text.words expected) ++ "after".toList ::
        (Text.words (previous ++ ",") ++ "but".toList :: "got".toList :: Text.words found) := by
  have spaced : behind expected previous found = "expected" ++ (" " ++ (expected ++ (" " ++
      ("after" ++ (" " ++ ((previous ++ ",") ++ (" " ++ ("but" ++ (" " ++ ("got" ++
        (" " ++ found))))))))))) := by
    rw [← String.toList_inj]
    simp [behind]
  rw [spaced]
  simp only [Text.words_append_space]
  rfl

theorem after_notMem_expected (phase : Phase) :
    "after".toList ∉ Text.words phase.expected ∧
      "after".toList ∉ Text.words (phase.expected ++ ",") := by
  cases phase with
  | keyword kind => cases kind <;> decide
  | _ =>
    simp only [Phase.expected]
    decide

/-- The two tokens that a report speaks of can be read off its text. -/
theorem eq_of_behind_eq {phase : Phase} {before token : Token}
    (beforeLexeme : Lexeme before.kind before.text) (goesOn : before.kind ≠ .endOfFile)
    (lexeme : Lexeme token.kind token.text) {expected previous found : String}
    (same : behind phase.expected before.describe token.describe =
      behind expected previous found) :
    previous = before.describe ∧ found = token.describe := by
  have word : Text.words (before.describe ++ ",") = [(before.describe ++ ",").toList] := by
    refine Text.pieces_of_notMem fun member => ?_
    rw [String.toList_append, List.mem_append, Token.describe,
      if_neg fun final => goesOn (beq_iff_eq.mp final)] at member
    rcases member with inWord | inComma
    · exact Text.space_notMem_quote beforeLexeme.space_notMem inWord
    · exact absurd inComma (by decide)
  have ends : (before.describe ++ ",").toList.getLast? = some ',' := by simp
  have afterWord : "after".toList ≠ (before.describe ++ ",").toList := by
    intro equal
    rw [← equal] at ends
    exact nomatch ends
  have butWord : "but".toList ≠ (before.describe ++ ",").toList := by
    intro equal
    rw [← equal] at ends
    exact nomatch ends
  obtain ⟨afterToken, butToken⟩ := Token.notMem_words_describe lexeme
  -- The word `after` stands only once in the report, and so does `but` behind it.
  have notBefore : "after".toList ∉ "expected".toList :: Text.words phase.expected := by
    rw [List.mem_cons, not_or]
    exact ⟨by decide, (after_notMem_expected phase).1⟩
  have notBehind : "after".toList ∉ [(before.describe ++ ",").toList] ++
      "but".toList :: "got".toList :: Text.words token.describe := by
    simp only [List.singleton_append, List.mem_cons, not_or]
    exact ⟨afterWord, by decide, by decide, afterToken⟩
  have cut := congrArg Text.words same
  rw [words_behind, words_behind, word] at cut
  obtain ⟨_, _, rest⟩ := (List.append_cons_inj_of_notMem notBefore notBehind).mp cut
  have notInWord : "but".toList ∉ [(before.describe ++ ",").toList] :=
    fun member => butWord (List.mem_singleton.mp member)
  have notLater : "but".toList ∉ "got".toList :: Text.words token.describe := by
    rw [List.mem_cons, not_or]
    exact ⟨by decide, butToken⟩
  obtain ⟨comma, _, shown⟩ := (List.append_cons_inj_of_notMem notInWord notLater).mp rest
  obtain ⟨_, foundWords⟩ := List.cons.inj shown
  have joined : before.describe ++ "," = previous ++ "," :=
    Text.words_injective (word.trans comma)
  rw [← String.toList_inj, String.toList_append, String.toList_append] at joined
  exact ⟨(String.toList_inj.mp (List.append_cancel_right joined)).symm,
    (Text.words_injective foundWords).symm⟩

/-- A report that speaks of no token before the one at fault cannot be mistaken for one that
does. -/
theorem message_none_ne_behind {phase : Phase} {token : Token}
    (lexeme : Lexeme token.kind token.text) (expected previous found : String) :
    (unexpected phase.expected none token).message ≠ behind expected previous found := by
  intro same
  have spaced : (unexpected phase.expected none token).message = "expected" ++ (" " ++
      ((phase.expected ++ ",") ++ (" " ++ ("but" ++ (" " ++ ("got" ++ (" " ++
        token.describe))))))) := by
    rw [← String.toList_inj]
    simp [message]
  have cut := congrArg Text.words (spaced.symm.trans same)
  simp only [words_behind, Text.words_append_space] at cut
  have member : "after".toList ∈ Text.words "expected" ++ (Text.words (phase.expected ++ ",") ++
      (Text.words "but" ++ (Text.words "got" ++ Text.words token.describe))) := by
    rw [cut]
    simp
  simp only [List.mem_append] at member
  rcases member with inExpected | inPhase | inBut | inGot | inToken
  · exact absurd inExpected (by decide)
  · exact (after_notMem_expected phase).2 inPhase
  · exact absurd inBut (by decide)
  · exact absurd inGot (by decide)
  · exact (Token.notMem_words_describe lexeme).1 inToken

theorem message_emptyBody_ne_behind (heading : Heading) (expected previous found : String) :
    (emptyBody heading).message ≠ behind expected previous found := by
  intro same
  have heads := congrArg (fun text : String => text.toList.head?) same
  cases kind : heading.kind <;>
    simp [message, behind, kind, DeclarationKind.word] at heads

/-- Of two tokens a report speaks only where one was read before the one that is refused. -/
theorem exists_previous_of_message {phase : Phase} {before : List Token} {token : Token}
    (lexemes : ∀ earlier ∈ before, Lexeme earlier.kind earlier.text)
    (goesOn : ∀ earlier ∈ before, earlier.kind ≠ .endOfFile)
    (lexeme : Lexeme token.kind token.text) {expected previous found : String}
    (same : (phase.fault before.getLast? token).message = behind expected previous found) :
    ∃ last, before.getLast? = some last ∧ previous = last.describe ∧ found = token.describe := by
  unfold Phase.fault at same
  split at same
  · exact absurd same (message_emptyBody_ne_behind _ expected previous found)
  · cases last : before.getLast? with
    | none =>
      rw [last] at same
      exact absurd same (message_none_ne_behind lexeme expected previous found)
    | some earlier =>
      rw [last] at same
      have member := List.mem_of_getLast? last
      exact ⟨earlier, rfl,
        eq_of_behind_eq (lexemes earlier member) (goesOn earlier member) lexeme same⟩

end SyntaxFault

/-! ### The first wrong token -/

namespace Source

open Grammar

/-- A report blames the first wrong token of a source. It stands where that token does; what was
read before the token can still be completed to a sentence, and together with it no longer can. If
the report says what was expected after some token, then that is the token right before. -/
structure Blames (source : Source) (diagnostic : Diagnostic) (index : Nat) (token : Token) :
    Prop where
  delivered : source.delivered[index]? = some token
  line : diagnostic.line = (source.tokenSpan token).line
  column : diagnostic.column = some (source.tokenSpan token).column
  spanLength : diagnostic.spanLength = some (source.tokenSpan token).length
  viable : Viable ((source.delivered.take index).map Token.kind)
  wrong : ¬ Viable ((source.delivered.take (index + 1)).map Token.kind)
  words : ∀ expected previous found : String,
    diagnostic.message =
        "expected " ++ expected ++ " after " ++ previous ++ ", but got " ++ found →
      1 ≤ index ∧ found = token.describe ∧
        ∃ last, source.delivered[index - 1]? = some last ∧ previous = last.describe

/-- Every syntax error stands on the first wrong token. -/
theorem syntactic_blames_first_wrong {source : Source} {diagnostic : Diagnostic}
    (failed : source.parse = .error (.syntactic diagnostic)) :
    ∃ index token, source.Blames diagnostic index token := by
  rcases parse_cases source with
    ⟨_, _, _, ⟨_, parsed⟩ | ⟨_, _, lexical⟩⟩ |
    ⟨before, token, after, progress, reader, delivered, follows,
      ⟨_, _, semantic⟩ | ⟨_, _, out, syntactic⟩⟩
  · exact nomatch failed.symm.trans parsed
  · exact nomatch failed.symm.trans lexical
  · exact nomatch failed.symm.trans semantic
  have shown : diagnostic = source.diagnostic
      (progress.phase.fault before.getLast? token).message (source.tokenSpan token) :=
    CompileError.syntactic.inj (Except.error.inj (failed.symm.trans syntactic))
  obtain ⟨here, front, whole⟩ := take_delivered delivered
  refine ⟨before.length, token, here, by rw [shown]; rfl, by rw [shown]; rfl,
    by rw [shown]; rfl, ?_, ?_, ?_⟩
  · rw [front]
    exact (viable_iff_reads source.tokenSpan before).mpr ⟨progress, follows.reads⟩
  · rw [whole]
    exact not_viable_of_refused follows.reads out
  · intro expected previous found message
    have lexemes := lexeme_of_mem_delivered source
    rw [delivered, List.forall_mem_append, List.forall_mem_cons] at lexemes
    obtain ⟨last, isLast, previousShown, foundShown⟩ :=
      SyntaxFault.exists_previous_of_message lexemes.1
        (fun earlier member => kind_ne_endOfFile delivered member) lexemes.2.1
        ((congrArg Diagnostic.message shown).symm.trans message)
    have nonempty : 1 ≤ before.length :=
      List.length_pos_of_mem (List.mem_of_getLast? isLast)
    refine ⟨nonempty, foundShown, last, ?_, previousShown⟩
    rw [delivered, List.getElem?_append_left (Nat.sub_one_lt_of_lt nonempty),
      ← List.getLast?_eq_getElem?, isLast]

/-- A member whose name is missing. -/
def namelessMember : Source :=
  ⟨"notes.idl", "message Note \x7b\n\tText\n\x7d".toList, [], #[3, 5, 6], #[]⟩

/-- What is said about it. -/
def missingName : Diagnostic :=
  ⟨"expected a member name after \"Text\", but got \"\\n\"", "notes.idl", 5, some 5, some 1, none⟩

theorem namelessMember_blames :
    namelessMember.parse = .error (.syntactic missingName) ∧
      ∃ index token, namelessMember.Blames missingName index token := by
  have failed : namelessMember.parse = .error (.syntactic missingName) := by cbv
  exact ⟨failed, syntactic_blames_first_wrong failed⟩

end Source

end Idl
