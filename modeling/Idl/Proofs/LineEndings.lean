/-
This file shows that it makes no difference how the lines of a text end. A line feed ends
a line, and a carriage return in front of it belongs to that ending; some lines of a text
may end in the one way and some in the other. A carriage return behind the last line that
says something is cut off with the end of the text, every other one with the end of its
line, so the same lines are prepared, and all that follows is the same.
-/

import Idl.Proofs.Seams
import Mathlib

namespace Idl

namespace Text

/-- The second text is the first one with carriage returns put in front of some of its line
feeds. -/
inductive Returned : List Char → List Char → Prop where
  | nil : Returned [] []
  | same (character : Char) {rest other : List Char} (later : Returned rest other) :
      Returned (character :: rest) (character :: other)
  | feed {rest other : List Char} (later : Returned rest other) :
      Returned ('\n' :: rest) ('\r' :: '\n' :: other)

namespace Returned

variable {text other : List Char}

theorem refl (text : List Char) : Returned text text := by
  induction text with
  | nil => exact .nil
  | cons character _ inductionHypothesis => exact .same character inductionHypothesis

theorem append {first second firstOther secondOther : List Char}
    (returned : Returned first firstOther) (later : Returned second secondOther) :
    Returned (first ++ second) (firstOther ++ secondOther) := by
  induction returned with
  | nil => exact later
  | same character _ inductionHypothesis => exact .same character inductionHypothesis
  | feed _ inductionHypothesis => exact .feed inductionHypothesis

theorem eq_nil_iff (returned : Returned text other) : text = [] ↔ other = [] := by
  cases returned <;> simp

/-- The end that says nothing begins at the same character. -/
theorem trimEnd (returned : Returned text other) :
    Returned (Text.trimEnd text) (Text.trimEnd other) := by
  induction returned with
  | nil => exact .nil
  | @same character rest other _ inductionHypothesis =>
    have ends : (Text.trimEnd rest).isEmpty = (Text.trimEnd other).isEmpty := by
      rw [Bool.eq_iff_iff, List.isEmpty_iff, List.isEmpty_iff, inductionHypothesis.eq_nil_iff]
    rw [trimEnd_cons, trimEnd_cons, ends]
    split
    · exact .nil
    · exact .same character inductionHypothesis
  | @feed rest other _ inductionHypothesis =>
    by_cases silent : Text.trimEnd rest = []
    · have otherSilent := inductionHypothesis.eq_nil_iff.mp silent
      rw [trimEnd_cons, trimEnd_cons, trimEnd_cons, silent, otherSilent]
      exact .nil
    · have otherSpeaks : Text.trimEnd other ≠ [] :=
        fun otherSilent => silent (inductionHypothesis.eq_nil_iff.mpr otherSilent)
      have kept : Text.trimEnd ('\n' :: rest) = '\n' :: Text.trimEnd rest :=
        trimEnd_append silent ['\n']
      have otherKept : Text.trimEnd ('\r' :: '\n' :: other) = '\r' :: '\n' :: Text.trimEnd other :=
        trimEnd_append otherSpeaks ['\r', '\n']
      rw [kept, otherKept]
      exact .feed inductionHypothesis

/-- The same lines are left once carriage returns have been dropped. -/
theorem map_dropReturn_pieces (returned : Returned text other) (noReturn : '\r' ∉ text) :
    (pieces '\n' other).map dropReturn = pieces '\n' text := by
  induction returned with
  | nil => rfl
  | @same character rest other _ inductionHypothesis =>
    rw [List.mem_cons, not_or] at noReturn
    have later := inductionHypothesis noReturn.2
    by_cases feed : character = '\n'
    · subst feed
      rw [pieces_separator, pieces_separator, List.map_cons, later]
      rfl
    · rw [pieces, pieces, List.map_cons] at later
      obtain ⟨head, tail⟩ := List.cons.inj later
      have first : dropReturn (character :: (cut '\n' other).1) =
          character :: (cut '\n' rest).1 := by
        have keeps : [character].getLast? ≠ some '\r' :=
          fun ends => noReturn.1 (Option.some.inj ends).symm
        rw [← head]
        exact dropReturn_append (cut '\n' other).1 keeps
      rw [pieces_cons feed, pieces_cons feed, List.map_cons, first, tail]
  | @feed rest other _ inductionHypothesis =>
    have later := inductionHypothesis fun inRest => noReturn (List.mem_cons_of_mem _ inRest)
    have alone : pieces '\n' ('\r' :: '\n' :: other) = ['\r'] :: pieces '\n' other :=
      pieces_append_separator '\n' ['\r'] other
    rw [alone, pieces_separator, List.map_cons, later]
    rfl

theorem fileLines_eq (returned : Returned text other) (noReturn : '\r' ∉ text) :
    fileLines other = fileLines text := by
  have trimmed := returned.trimEnd
  by_cases silent : Text.trimEnd text = []
  · rw [fileLines, fileLines, silent, trimmed.eq_nil_iff.mp silent]
  · have otherSpeaks : Text.trimEnd other ≠ [] :=
      fun otherSilent => silent (trimmed.eq_nil_iff.mpr otherSilent)
    have without : '\r' ∉ Text.trimEnd text := by
      obtain ⟨ending, shape, _⟩ := exists_trimEnd_append text
      exact fun inTrimmed => noReturn (shape ▸ List.mem_append_left ending inTrimmed)
    rw [fileLines_of_speaks silent, fileLines_of_speaks otherSpeaks,
      trimmed.map_dropReturn_pieces without, (refl _).map_dropReturn_pieces without]

end Returned

end Text

/-- A text is prepared by its lines alone. -/
theorem Source.ofText_of_fileLines {file text other : String}
    (same : Text.fileLines other.toList = Text.fileLines text.toList) :
    ofText file other = ofText file text := by
  rw [ofText, same, ofText]

/-- Carriage returns in front of line feeds, of some or of all, make no difference: the same source
is prepared or the same slash is reported, and so the same comes out of compiling and checking. -/
theorem line_endings_indifferent (file : String) {text other : String}
    (noReturn : '\r' ∉ text.toList) (returned : Text.Returned text.toList other.toList) :
    Source.ofText file other = Source.ofText file text ∧
      compileText file other = compileText file text ∧
      checkText file other = checkText file text := by
  have prepared : Source.ofText file other = Source.ofText file text :=
    Source.ofText_of_fileLines (returned.fileLines_eq noReturn)
  have read : readText file other = readText file text := by
    rw [readText, prepared, readText]
  refine ⟨prepared, ?_, ?_⟩
  · rw [compileText, read, compileText]
  · rw [checkText, read, checkText]

/-- A message over three lines and a blank one, and a comment. -/
def feedText : String := "message Pair \x7b\n\tint8 left // Here.\n\n\x7d\n"

/-- The message with carriage returns at the ends of some of its lines. -/
def mixedText : String := "message Pair \x7b\r\n\tint8 left // Here.\n\r\n\x7d\r\n"

set_option maxRecDepth 2000 in
theorem mixedText_compiles :
    '\r' ∉ feedText.toList ∧ Text.Returned feedText.toList mixedText.toList ∧
      compileText "pair.idl" mixedText = .ok pairSchema := by
  have noReturn : '\r' ∉ feedText.toList := by decide
  have lines : feedText.toList = "message Pair \x7b".toList ++ '\n' ::
      ("\tint8 left // Here.\n".toList ++ '\n' :: ("\x7d".toList ++ ['\n'])) := rfl
  have mixedLines : mixedText.toList = "message Pair \x7b".toList ++ '\r' :: '\n' ::
      ("\tint8 left // Here.\n".toList ++ '\r' :: '\n' ::
        ("\x7d".toList ++ ['\r', '\n'])) := rfl
  have returned : Text.Returned feedText.toList mixedText.toList := by
    rw [lines, mixedLines]
    exact (Text.Returned.refl _).append (.feed ((Text.Returned.refl _).append
      (.feed ((Text.Returned.refl _).append (.feed .nil)))))
  have compiled : compileText "pair.idl" feedText = .ok pairSchema := by cbv
  refine ⟨noReturn, returned, ?_⟩
  rw [(line_endings_indifferent "pair.idl" noReturn returned).2.1, compiled]

end Idl
