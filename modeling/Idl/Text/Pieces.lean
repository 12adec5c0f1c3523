/-
This file cuts a text at each occurrence of a separating character. There is one
piece more than there are separators, and pieces may be empty; joining the pieces
with the separator gives the text back.
-/

namespace Idl.Text

/-- The first piece of a text, and the pieces after it. -/
def cut (separator : Char) (text : List Char) : List Char × List (List Char) :=
  text.foldr (fun character pieces =>
    if character == separator then ([], pieces.1 :: pieces.2)
    else (character :: pieces.1, pieces.2)) ([], [])

/-- The pieces of a text, of which there is always at least one. -/
def pieces (separator : Char) (text : List Char) : List (List Char) :=
  (cut separator text).1 :: (cut separator text).2

/-- The pieces with the separator between each two of them. -/
def joinPieces (separator : Char) (pieces : List (List Char)) : List Char :=
  [separator].intercalate pieces

@[simp] theorem pieces_nil (separator : Char) : pieces separator [] = [[]] := rfl

theorem pieces_separator (separator : Char) (rest : List Char) :
    pieces separator (separator :: rest) = [] :: pieces separator rest := by
  simp [pieces, cut]

theorem pieces_cons {separator character : Char} (other : character ≠ separator)
    (rest : List Char) :
    pieces separator (character :: rest) =
      (character :: (cut separator rest).1) :: (cut separator rest).2 := by
  simp [pieces, cut, other]

@[simp] theorem joinPieces_singleton (separator : Char) (piece : List Char) :
    joinPieces separator [piece] = piece := by
  simp [joinPieces, List.intercalate]

theorem joinPieces_cons_cons (separator : Char) (first second : List Char)
    (rest : List (List Char)) :
    joinPieces separator (first :: second :: rest) =
      first ++ separator :: joinPieces separator (second :: rest) := by
  simp [joinPieces, List.intercalate, List.intersperse]

/-- Cutting loses nothing. -/
theorem joinPieces_pieces (separator : Char) (text : List Char) :
    joinPieces separator (pieces separator text) = text := by
  induction text with
  | nil => rfl
  | cons character rest inductionHypothesis =>
    by_cases same : character = separator
    · subst same
      rw [pieces_separator, pieces, joinPieces_cons_cons, List.nil_append]
      exact congrArg (List.cons character) inductionHypothesis
    · rw [pieces_cons same]
      rw [pieces] at inductionHypothesis
      cases later : (cut separator rest).2 with
      | nil =>
        rw [later, joinPieces_singleton] at inductionHypothesis
        rw [joinPieces_singleton, inductionHypothesis]
      | cons second others =>
        rw [later, joinPieces_cons_cons] at inductionHypothesis
        rw [joinPieces_cons_cons, List.cons_append, inductionHypothesis]

theorem pieces_append_separator (separator : Char) (first second : List Char) :
    pieces separator (first ++ separator :: second) =
      pieces separator first ++ pieces separator second := by
  induction first with
  | nil => rw [List.nil_append, pieces_separator, pieces_nil, List.singleton_append]
  | cons character rest inductionHypothesis =>
    rw [List.cons_append]
    by_cases same : character = separator
    · subst same
      rw [pieces_separator, pieces_separator, inductionHypothesis, List.cons_append]
    · rw [pieces_cons same, pieces_cons same, List.cons_append]
      rw [pieces, pieces, List.cons_append] at inductionHypothesis
      obtain ⟨head, tail⟩ := List.cons.inj inductionHypothesis
      rw [head, tail]

theorem pieces_of_notMem {separator : Char} {text : List Char} (absent : separator ∉ text) :
    pieces separator text = [text] := by
  induction text with
  | nil => rfl
  | cons character rest inductionHypothesis =>
    rw [List.mem_cons, not_or] at absent
    have later := inductionHypothesis absent.2
    rw [pieces] at later
    obtain ⟨head, tail⟩ := List.cons.inj later
    rw [pieces_cons (Ne.symm absent.1), head, tail]

theorem pieces_injective {separator : Char} {first second : List Char}
    (same : pieces separator first = pieces separator second) : first = second := by
  rw [← joinPieces_pieces separator first, same, joinPieces_pieces]

end Idl.Text
