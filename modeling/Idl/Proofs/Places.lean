/-
This file shows that tokens stand where they say. A cursor counts line feeds and the
characters since the last of them, so what lies before it on its line of the code has as
many characters as its column says. Each token is therefore found at its column on its
line, a line feed at the end of its line, and so is the character that belongs to no
token.
-/

import Idl.Proofs.Lexemes
import Idl.Proofs.Lines

namespace Idl

open Text (pieces cut)

/-! ### What a supply delivers along the way -/

namespace TokenSupply

variable {Fault Position : Type} {supply : TokenSupply Fault Position}

/-- What holds of every position holds of the tokens handed out there, and of the fault that ends
them. -/
theorem deliver_of_invariant {Holds : Position → Prop} {Property : Token → Prop}
    {Ends : Fault → Prop}
    (kept : ∀ {position rest : Position} {token : Token}, Holds position →
      supply.next position = .ok (token, rest) → Property token ∧ Holds rest)
    (fails : ∀ {position : Position} {fault : Fault}, Holds position →
      supply.next position = .error fault → Ends fault)
    {position : Position} (holds : Holds position) :
    (∀ token ∈ (supply.deliver position).1, Property token) ∧
      ∀ fault, (supply.deliver position).2 = some fault → Ends fault := by
  induction position using supply.induction with
  | fails failed =>
    rw [deliver_of_error failed]
    exact ⟨nofun, fun fault same => Option.some.inj same ▸ fails holds failed⟩
  | ends last final =>
    rw [deliver_of_final last final]
    exact ⟨List.forall_mem_singleton.mpr (kept holds last).1, nofun⟩
  | goesOn handed goesOn inductionHypothesis =>
    obtain ⟨property, later⟩ := kept holds handed
    rw [deliver_of_ok handed goesOn]
    exact ⟨List.forall_mem_cons.mpr ⟨property, (inductionHypothesis later).1⟩,
      (inductionHypothesis later).2⟩

end TokenSupply

/-! ### Where a cursor stands -/

/-- The token stands on its line at its column, and a line feed or the end of the file behind all
else that is on the line. -/
def Token.StandsOn (lines : List (List Char)) (token : Token) : Prop :=
  ∃ before after, lines[token.line]? = some (before ++ after) ∧ before.length = token.column ∧
    if token.kind = .newline then after = [] else ∃ rest, after = token.text.toList ++ rest

/-- The cursor has come as far as its line and its column say: before it on its line stand as many
characters, and behind it what is still to be scanned. -/
def Cursor.StandsIn (text : List Char) (cursor : Cursor) : Prop :=
  ∃ earlier before, pieces '\n' text =
      earlier ++ (before ++ (cut '\n' cursor.rest).1) :: (cut '\n' cursor.rest).2 ∧
    earlier.length = cursor.line ∧ before.length = cursor.column

namespace Cursor

variable {source : Source} {text first rest : List Char} {cursor later : Cursor} {token : Token}

theorem standsIn_start (source : Source) : source.start.StandsIn source.text :=
  ⟨[], [], rfl, rfl, rfl⟩

/-- What stands behind a cursor stands on its line up to the next line feed. -/
theorem StandsIn.getElem? (stands : cursor.StandsIn text) (behind : cursor.rest = first ++ rest)
    (clean : '\n' ∉ first) :
    ∃ before after, (pieces '\n' text)[cursor.line]? = some (before ++ (first ++ after)) ∧
      before.length = cursor.column ∧ after = (cut '\n' rest).1 := by
  obtain ⟨earlier, before, shape, line, column⟩ := stands
  refine ⟨before, (cut '\n' rest).1, ?_, column, rfl⟩
  rw [shape, ← line, List.getElem?_append_right le_rfl, Nat.sub_self, List.getElem?_cons_zero,
    behind, Text.cut_append clean]

theorem StandsIn.advance (stands : cursor.StandsIn text) (behind : cursor.rest = first ++ rest)
    (clean : '\n' ∉ first) :
    StandsIn text ⟨rest, cursor.line, cursor.column + first.length⟩ := by
  obtain ⟨earlier, before, shape, line, column⟩ := stands
  refine ⟨earlier, before ++ first, ?_, line, by rw [List.length_append, column]⟩
  rw [shape, behind, Text.cut_append clean, List.append_assoc]

theorem StandsIn.feed (stands : cursor.StandsIn text) (behind : cursor.rest = '\n' :: rest) :
    StandsIn text ⟨rest, cursor.line + 1, 0⟩ := by
  obtain ⟨earlier, before, shape, line, column⟩ := stands
  refine ⟨earlier ++ [before], [], ?_, by rw [List.length_append, line]; rfl, rfl⟩
  have next : cut '\n' ('\n' :: rest) = ([], (cut '\n' rest).1 :: (cut '\n' rest).2) := rfl
  rw [shape, behind, next, List.append_nil, List.append_assoc, List.nil_append,
    List.singleton_append]

theorem StandsIn.skipBlanks (stands : cursor.StandsIn text) :
    cursor.skipBlanks.StandsIn text := by
  refine stands.advance (List.takeWhile_append_dropWhile (p := Text.isBlank)).symm fun feed => ?_
  exact absurd (List.mem_takeWhile_imp feed) (by decide)

/-- A token without a line feed in it stands where it is scanned. -/
theorem StandsIn.tokenStandsOn (stands : cursor.StandsIn text)
    (behind : cursor.rest = first ++ rest) (clean : '\n' ∉ first) {kind : TokenKind}
    (other : kind ≠ .newline) :
    (cursor.token kind first).StandsOn (pieces '\n' text) := by
  obtain ⟨before, after, found, column, _⟩ := stands.getElem? behind clean
  refine ⟨before, first ++ after, found, column, ?_⟩
  rw [if_neg (show (cursor.token kind first).kind ≠ .newline from other)]
  exact ⟨after, by rw [Cursor.token, String.toList_ofList]⟩

theorem ne_of_punctuation {character : Char} {kind : TokenKind}
    (mark : punctuation? character = some kind) : kind ≠ .newline ∧ kind ≠ .endOfFile := by
  unfold punctuation? at mark
  split at mark <;> cases mark <;> decide

theorem wordKind_ne (word : String) : wordKind word ≠ .newline ∧ wordKind word ≠ .endOfFile := by
  unfold wordKind
  split
  · decide
  · split <;> decide

/-- A token stands where it is scanned, and the cursor behind it goes on from there. -/
theorem StandsIn.scan (stands : cursor.StandsIn text)
    (scanned : cursor.scan source = .ok (token, later)) :
    token.StandsOn (pieces '\n' text) ∧ later.StandsIn text := by
  unfold Cursor.scan at scanned
  split at scanned
  · next nothing =>
    cases scanned
    have behind : cursor.rest = [] ++ [] := nothing
    exact ⟨stands.tokenStandsOn behind List.not_mem_nil (by decide), stands⟩
  · next first rest behind =>
    split at scanned
    · next feed =>
      cases scanned
      rw [beq_iff_eq.mp feed] at behind ⊢
      obtain ⟨before, after, found, column, rfl⟩ :=
        stands.getElem? (behind.trans (List.nil_append _).symm) List.not_mem_nil
      exact ⟨⟨before, [], found, column, rfl⟩, stands.feed behind⟩
    · next other =>
      have clean : '\n' ∉ [first] := fun member =>
        other (beq_iff_eq.mpr (List.mem_singleton.mp member).symm)
      split at scanned
      · next kind mark =>
        cases scanned
        exact ⟨stands.tokenStandsOn behind clean (ne_of_punctuation mark).1,
          stands.advance (show cursor.rest = [first] ++ rest from behind) clean⟩
      · split at scanned
        · cases scanned
          have whole : cursor.rest = first :: rest.takeWhile Text.isWordCharacter ++
              rest.dropWhile Text.isWordCharacter := by
            rw [List.cons_append, List.takeWhile_append_dropWhile, behind]
          have cleanWord : '\n' ∉ first :: rest.takeWhile Text.isWordCharacter := by
            rw [List.mem_cons, not_or]
            refine ⟨fun same => other (beq_iff_eq.mpr same.symm), fun member => ?_⟩
            exact absurd (List.mem_takeWhile_imp member) (by decide)
          exact ⟨stands.tokenStandsOn whole cleanWord (wordKind_ne _).1,
            stands.advance whole cleanWord⟩
        · exact nomatch scanned

/-- A character that belongs to no token stands where it is reported. -/
theorem StandsIn.scan_error (stands : cursor.StandsIn text) {diagnostic : Diagnostic}
    (failed : cursor.scan source = .error diagnostic) :
    ∃ character line before after, (pieces '\n' text)[line]? = some (before ++ character :: after) ∧
      diagnostic = source.diagnostic (invalidMessage character)
        (source.span line before.length 1) := by
  unfold Cursor.scan at failed
  split at failed
  · exact nomatch failed
  · next first rest behind =>
    split at failed
    · exact nomatch failed
    · next other =>
      have clean : '\n' ∉ [first] := fun member =>
        other (beq_iff_eq.mpr (List.mem_singleton.mp member).symm)
      split at failed
      · exact nomatch failed
      · split at failed
        · exact nomatch failed
        · cases failed
          obtain ⟨before, after, found, column, _⟩ :=
            stands.getElem? (show cursor.rest = [first] ++ rest from behind) clean
          exact ⟨first, cursor.line, before, after, found, by rw [column]; rfl⟩

end Cursor

/-- A source without code declares nothing. -/
theorem Source.parse_of_text_nil {source : Source} (nothing : source.text = []) :
    source.parse = .ok .empty := by
  have start : source.start = ⟨[], 0, 0⟩ := by rw [Source.start, nothing]
  have last : source.supply.next source.start = .ok (⟨.endOfFile, "", 0, 0⟩, ⟨[], 0, 0⟩) := by
    rw [start]
    rfl
  rw [Reader.parse_eq, TokenSupply.deliver_of_final last rfl]
  rfl

/-- Every token of a source stands where it says, and so does the character that ends them. -/
theorem Source.places (source : Source) :
    (∀ token ∈ source.delivered, token.StandsOn (pieces '\n' source.text)) ∧
      ∀ diagnostic, source.fault? = some diagnostic → ∃ character line before after,
        (pieces '\n' source.text)[line]? = some (before ++ character :: after) ∧
          diagnostic = source.diagnostic (Cursor.invalidMessage character)
            (source.span line before.length 1) := by
  refine TokenSupply.deliver_of_invariant ?_ ?_ (Cursor.standsIn_start source)
  · exact fun stands handed => Cursor.StandsIn.scan stands.skipBlanks handed
  · exact fun stands failed => Cursor.StandsIn.scan_error stands.skipBlanks failed

end Idl
