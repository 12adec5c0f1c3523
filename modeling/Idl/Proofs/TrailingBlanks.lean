/-
This file shows that blanks at the end of the code say nothing. The same tokens are
scanned whatever blanks stand behind a text, and the same character ends them; only the
column in which the file ends is another one.
-/

import Idl.Proofs.Places
import Idl.Proofs.Rereading

namespace Idl

namespace Text

variable {tail : List Char}

/-- A word does not go on in blanks. -/
theorem takeWhile_append_of_blank (blank : ∀ character ∈ tail, isBlank character)
    (rest : List Char) :
    (rest ++ tail).takeWhile isWordCharacter = rest.takeWhile isWordCharacter ∧
      (rest ++ tail).dropWhile isWordCharacter = rest.dropWhile isWordCharacter ++ tail := by
  have noWord : ∀ character, isBlank character = true → ¬ isWordCharacter character := by
    intro character blank
    rw [isBlank, Bool.or_eq_true, beq_iff_eq, beq_iff_eq] at blank
    rcases blank with rfl | rfl <;> decide
  induction rest with
  | nil =>
    cases tail with
    | nil => exact ⟨rfl, rfl⟩
    | cons first others =>
      have stops := noWord first (blank first List.mem_cons_self)
      exact ⟨List.takeWhile_cons_of_neg stops, List.dropWhile_cons_of_neg stops⟩
  | cons first others inductionHypothesis =>
    rw [List.cons_append]
    by_cases word : isWordCharacter first
    · rw [List.takeWhile_cons_of_pos word, List.takeWhile_cons_of_pos word,
        List.dropWhile_cons_of_pos word, List.dropWhile_cons_of_pos word, inductionHypothesis.1]
      exact ⟨rfl, inductionHypothesis.2⟩
    · rw [List.takeWhile_cons_of_neg word, List.takeWhile_cons_of_neg word,
        List.dropWhile_cons_of_neg word, List.dropWhile_cons_of_neg word]
      exact ⟨rfl, rfl⟩

end Text

/-! ### Scanning in front of blanks -/

namespace Cursor

variable {source other : Source} {base tail otherTail rest : List Char} {first : Char}
  {line column : Nat}

theorem ne_endOfFile_of_scan {token : Token} {later : Cursor}
    (scanned : scan source ⟨first :: rest, line, column⟩ = .ok (token, later)) :
    token.kind ≠ .endOfFile := by
  unfold scan at scanned
  dsimp only at scanned
  split at scanned
  · cases scanned
    exact (nomatch ·)
  · split at scanned
    · next kind mark =>
      cases scanned
      exact (ne_of_punctuation mark).2
    · split at scanned
      · cases scanned
        exact (wordKind_ne _).2
      · exact nomatch scanned

/-- What is scanned in front of blanks is what is scanned without them. -/
theorem scan_append_of_ok (blank : ∀ character ∈ tail, Text.isBlank character) {token : Token}
    {later : Cursor} (scanned : scan source ⟨first :: rest, line, column⟩ = .ok (token, later)) :
    scan other ⟨first :: (rest ++ tail), line, column⟩ =
      .ok (token, ⟨later.rest ++ tail, later.line, later.column⟩) := by
  obtain ⟨word, behind⟩ := Text.takeWhile_append_of_blank blank rest
  unfold scan at scanned ⊢
  dsimp only at scanned ⊢
  rw [word, behind]
  split at scanned
  · next feed =>
    cases scanned
    rw [if_pos feed]
    rfl
  · next other =>
    rw [if_neg other]
    split at scanned
    · cases scanned
      rfl
    · split at scanned
      · next opens =>
        cases scanned
        rw [if_pos opens]
        rfl
      · exact nomatch scanned

theorem scan_append_of_error {diagnostic : Diagnostic}
    (failed : scan source ⟨first :: rest, line, column⟩ = .error diagnostic) :
    diagnostic = source.diagnostic (invalidMessage first) (source.span line column 1) ∧
      scan other ⟨first :: (rest ++ tail), line, column⟩ =
        .error (other.diagnostic (invalidMessage first) (other.span line column 1)) := by
  unfold scan at failed ⊢
  dsimp only at failed ⊢
  split at failed
  · exact nomatch failed
  · next other =>
    rw [if_neg other]
    split at failed
    · exact nomatch failed
    · split at failed
      · exact nomatch failed
      · next foreign =>
        cases failed
        rw [if_neg foreign]
        exact ⟨rfl, rfl⟩

/-- In front of nothing but blanks the file ends. -/
theorem next_of_blank (blank : ∀ character ∈ base, Text.isBlank character) :
    next source ⟨base, line, column⟩ =
      .ok (⟨.endOfFile, "", line, column + base.length⟩, ⟨[], line, column + base.length⟩) := by
  have nothing : base.dropWhile Text.isBlank = [] := List.dropWhile_eq_nil_iff.mpr blank
  have all : base.takeWhile Text.isBlank = base := List.takeWhile_eq_self_iff.mpr blank
  rw [next, skipBlanks, nothing, all]
  rfl

theorem skipBlanks_append (stripped : base.dropWhile Text.isBlank = first :: rest) :
    skipBlanks ⟨base ++ tail, line, column⟩ =
      ⟨first :: (rest ++ tail), line, column + (base.takeWhile Text.isBlank).length⟩ := by
  have behind : (base ++ tail).dropWhile Text.isBlank = first :: (rest ++ tail) := by
    rw [List.dropWhile_append, stripped]
    rfl
  have parts :=
    congrArg List.length (List.takeWhile_append_dropWhile (p := Text.isBlank) (l := base))
  rw [stripped, List.length_append, List.length_cons] at parts
  have before : (base ++ tail).takeWhile Text.isBlank = base.takeWhile Text.isBlank := by
    rw [List.takeWhile_append, if_neg (by omega)]
  rw [skipBlanks, behind, before]

end Cursor

namespace Source

variable {tail otherTail : List Char}

/-- The same tokens are handed out of the same code, and the same character ends them if one
does. -/
theorem deliver_append (source other : Source)
    (blank : ∀ character ∈ tail, Text.isBlank character)
    (otherBlank : ∀ character ∈ otherTail, Text.isBlank character) (base : List Char)
    (line column : Nat) :
    List.Forall₂ Token.Like (source.supply.deliver ⟨base ++ tail, line, column⟩).1
        (other.supply.deliver ⟨base ++ otherTail, line, column⟩).1 ∧
      FaultsAlike source other (source.supply.deliver ⟨base ++ tail, line, column⟩).2
        (other.supply.deliver ⟨base ++ otherTail, line, column⟩).2 := by
  -- One step scans a whole word, so the induction is on how much is left and not on its characters.
  induction bound : base.length using Nat.strongRecOn generalizing base line column with
  | ind count inductionHypothesis =>
    cases stripped : base.dropWhile Text.isBlank with
    | nil =>
      have baseBlank := List.dropWhile_eq_nil_iff.mp stripped
      have last : source.supply.next ⟨base ++ tail, line, column⟩ = _ :=
        Cursor.next_of_blank (List.forall_mem_append.mpr ⟨baseBlank, blank⟩)
      have otherLast : other.supply.next ⟨base ++ otherTail, line, column⟩ = _ :=
        Cursor.next_of_blank (List.forall_mem_append.mpr ⟨baseBlank, otherBlank⟩)
      rw [TokenSupply.deliver_of_final last rfl, TokenSupply.deliver_of_final otherLast rfl]
      exact ⟨.cons ⟨rfl, rfl, rfl, fun goesOn => absurd rfl goesOn⟩ .nil, .none⟩
    | cons first rest =>
      have start : source.supply.next ⟨base ++ tail, line, column⟩ = Cursor.scan source _ :=
        congrArg (Cursor.scan source) (Cursor.skipBlanks_append stripped)
      have otherStart : other.supply.next ⟨base ++ otherTail, line, column⟩ = Cursor.scan other _ :=
        congrArg (Cursor.scan other) (Cursor.skipBlanks_append stripped)
      cases scanned : Cursor.scan source
          ⟨first :: rest, line, column + (base.takeWhile Text.isBlank).length⟩ with
      | error diagnostic =>
        rw [(Cursor.scan_append_of_error scanned).2] at start otherStart
        rw [TokenSupply.deliver_of_error start, TokenSupply.deliver_of_error otherStart]
        exact ⟨.nil, .invalid _ _ _⟩
      | ok pair =>
        obtain ⟨token, later⟩ := pair
        have goesOn := Cursor.ne_endOfFile_of_scan scanned
        rw [Cursor.scan_append_of_ok blank scanned] at start
        rw [Cursor.scan_append_of_ok otherBlank scanned] at otherStart
        rw [TokenSupply.deliver_of_ok start goesOn, TokenSupply.deliver_of_ok otherStart goesOn]
        have shorter : later.rest.length < base.length := by
          have handed : Cursor.next source ⟨base, line, column⟩ = .ok (token, later) := by
            rw [Cursor.next, Cursor.skipBlanks, stripped]
            exact scanned
          exact Cursor.next_length_lt handed goesOn
        obtain ⟨tokens, faults⟩ :=
          inductionHypothesis _ (bound ▸ shorter) later.rest later.line later.column rfl
        exact ⟨.cons (.refl token) tokens, faults⟩

/-- Two sources with the same code are scanned alike, whatever blanks they end in. -/
theorem scansLike_of_blank {source other : Source} {base : List Char}
    (text : source.text = base ++ tail) (otherText : other.text = base ++ otherTail)
    (blank : ∀ character ∈ tail, Text.isBlank character)
    (otherBlank : ∀ character ∈ otherTail, Text.isBlank character) : source.ScansLike other := by
  obtain ⟨tokens, faults⟩ := deliver_append source other blank otherBlank base 0 0
  rw [← text, ← otherText] at tokens faults
  exact ⟨tokens, faults⟩

end Source

end Idl
