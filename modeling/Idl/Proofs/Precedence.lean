/-
This file settles which report is made where several could be. A source can be wrong in
three ways: its tokens end in a character that belongs to none, one of its tokens cannot
follow those before it, or a declaration repeats a name. A repeated name is found when
the token behind the declaration has been scanned and before that token is looked at; so
it is reported before anything that is wrong further on, save for a character right
behind its closing brace.
-/

import Idl.Proofs.Reading
import Mathlib.Order.Bounds.Basic

namespace Idl

open Grammar Declaration Progress

/-! ### Where declarations stand -/

/-- A declaration and its place among the tokens: the declarations before it, its first and its
last token, and the token that names it. -/
structure Occurrence where
  earlier : List Declaration
  declaration : Declaration
  opening : Nat
  closing : Nat
  name : Token

namespace Occurrence

/-- The declaration does stand there in a source. -/
structure In (source : Source) (occurrence : Occurrence) : Prop where
  within : occurrence.closing < source.delivered.length
  code : SpellsCode source.tokenSpan (source.delivered.take (occurrence.closing + 1))
    (occurrence.earlier ++ [occurrence.declaration])
  statement : SpellsStatement source.tokenSpan
    ((source.delivered.take (occurrence.closing + 1)).drop occurrence.opening)
    occurrence.declaration
  name : source.delivered[occurrence.opening + 1]? = some occurrence.name

variable {source : Source} {occurrence : Occurrence}

/-- The token that names a declaration has its name and its place. -/
theorem In.named (stands : occurrence.In source) :
    occurrence.declaration.name = occurrence.name.text ∧
      occurrence.declaration.span = source.tokenSpan occurrence.name := by
  obtain ⟨keyword, name, body, closing, shape, _, _, sameName, sameSpan⟩ :=
    stands.statement.exists_name
  have second := congrArg (fun tokens : List Token => tokens[1]?) shape
  rw [List.getElem?_drop, List.getElem?_cons_succ, List.getElem?_cons_zero] at second
  rw [List.getElem?_take] at second
  split at second
  · cases stands.name.symm.trans second
    exact ⟨sameName, sameSpan⟩
  · exact nomatch second

/-- The last token of a declaration is the brace that closes it. -/
theorem In.closed (stands : occurrence.In source) :
    ∃ token, source.delivered[occurrence.closing]? = some token ∧ token.kind = .rightBrace := by
  obtain ⟨keyword, name, body, closing, shape, _, closingKind, _⟩ :=
    stands.statement.exists_name
  have last := congrArg List.getLast? shape
  rw [← List.cons_append, ← List.cons_append, List.getLast?_concat, List.getLast?_drop] at last
  split at last
  · exact nomatch last
  · rw [List.getLast?_take, if_neg (Nat.succ_ne_zero _), Nat.add_sub_cancel,
      List.getElem?_eq_getElem stands.within, Option.some_or] at last
    exact ⟨closing, (List.getElem?_eq_getElem stands.within).trans last, closingKind⟩

/-- Where nothing else ends the tokens, one of them stands behind every declaration. -/
theorem In.succ_closing_lt (stands : occurrence.In source) (faultless : source.fault? = none) :
    occurrence.closing + 1 < source.delivered.length := by
  obtain ⟨brace, found, braceKind⟩ := stands.closed
  obtain ⟨tokens, final, delivered, finalKind⟩ := Source.exists_final faultless
  have within := stands.within
  rw [delivered, List.length_append, List.length_singleton] at within ⊢
  refine Nat.succ_lt_succ (Nat.lt_of_le_of_ne (Nat.le_of_lt_succ within) fun same => ?_)
  rw [delivered, same, List.getElem?_concat_length] at found
  cases found
  exact nomatch braceKind.symm.trans finalKind

/-- Every declaration that is read stands somewhere. -/
theorem exists_in {before after : List Token} {earlier : List Declaration}
    {declaration : Declaration} (delivered : source.delivered = before ++ after)
    (spelled : SpellsCode source.tokenSpan before (earlier ++ [declaration])) :
    ∃ occurrence : Occurrence, occurrence.In source ∧ occurrence.earlier = earlier ∧
      occurrence.declaration = declaration ∧ occurrence.closing + 1 = before.length := by
  obtain ⟨front, last, rfl, statement⟩ := spelled.exists_last
  obtain ⟨keyword, name, body, closing, shape, _⟩ := statement.exists_name
  let occurrence : Occurrence :=
    ⟨earlier, declaration, front.length, front.length + (body.length + 2), name⟩
  have length : occurrence.closing + 1 = (front ++ last).length := by
    simp [occurrence, shape]
    omega
  have whole : source.delivered.take (occurrence.closing + 1) = front ++ last := by
    rw [delivered, length, List.take_left]
  refine ⟨occurrence, ⟨?_, whole ▸ spelled, ?_, ?_⟩, rfl, rfl, length⟩
  · have fits := (List.prefix_append (front ++ last) after).length_le
    rw [← delivered, ← length] at fits
    exact fits
  · rw [whole, List.drop_left]
    exact statement
  · simp [occurrence, delivered, shape]

end Occurrence

/-! ### The three ways to be wrong -/

/-- Two declarations of one name in one namespace, the second of them the first to repeat a
name. -/
structure Repeats (source : Source) (original repeated : Occurrence) : Prop where
  originalIn : original.In source
  repeatedIn : repeated.In source
  before : original.earlier ++ [original.declaration] <+: repeated.earlier
  distinct : Schema.Distinct repeated.earlier
  clash : Clash original.declaration repeated.declaration

namespace Source

variable {source : Source}

/-- The token there is the first with which a source is no longer the beginning of a sentence. -/
def FirstWrong (source : Source) (index : Nat) : Prop :=
  IsLeast {index | index < source.delivered.length ∧
    ¬ Viable ((source.delivered.take (index + 1)).map Token.kind)} index

/-- What is reported of a declaration that repeats a name. -/
def repetitionReport (source : Source) (original repeated : Occurrence) : Diagnostic :=
  source.diagnostic
    ("repeated " ++ repeated.declaration.kind.word ++ " " ++ Text.quote repeated.name.text ++
      ", first declared at line " ++ toString (source.tokenSpan original.name).line.toNat)
    (source.tokenSpan repeated.name)

end Source

/-! ### Repeated names -/

variable {source : Source} {original repeated : Occurrence} {before after : List Token}
  {progress : Progress} {reader : Reader} {token : Token} {index : Nat}

theorem repeated_repetition (originalIn : original.In source) (repeatedIn : repeated.In source) :
    Reader.repeated source (repetition original.declaration repeated.declaration) =
      .semantic (source.repetitionReport original repeated) := by
  rw [Source.repetitionReport, ← originalIn.named.2, ← repeatedIn.named.1, ← repeatedIn.named.2]
  rfl

namespace Repeats

/-- A repeated name is reported as soon as a token has been scanned behind it. -/
theorem parse_eq (repeats : Repeats source original repeated)
    (room : repeated.closing + 1 < source.delivered.length) :
    source.parse = .error (.semantic (source.repetitionReport original repeated)) := by
  have delivered : source.delivered = source.delivered.take (repeated.closing + 1) ++
      [source.delivered[repeated.closing + 1]] ++
        source.delivered.drop (repeated.closing + 1 + 1) := by
    rw [List.append_assoc, List.singleton_append, ← List.drop_eq_getElem_cons room,
      List.take_append_drop]
  have reads := reads_closed_iff.mpr repeats.repeatedIn.code
  obtain ⟨reader, fed, follows⟩ := Reader.exists_follows reads repeats.distinct
  have member : original.declaration ∈ repeated.earlier :=
    repeats.before.subset (List.mem_append_right _ (List.mem_singleton_self _))
  have failed := Schema.declareAll_of_clash repeats.distinct member repeats.clash
  rw [← repeated_repetition repeats.originalIn repeats.repeatedIn]
  refine Source.parse_of_feedAll_error ?_
  rw [delivered]
  refine Reader.feedAll_append_of_error ?_ _
  rw [Reader.feedAll_append_singleton, fed]
  exact Reader.feed_of_repetition (follows.settle_eq.trans failed)

end Repeats

/-- A declaration with the name of one before it is the first to repeat a name if those before it
have distinct names. -/
theorem exists_repeats_of_clash (delivered : source.delivered = before ++ after)
    {earlier : List Declaration} {first declaration : Declaration}
    (spelled : SpellsCode source.tokenSpan before (earlier ++ [declaration]))
    (distinct : Schema.Distinct earlier) (member : first ∈ earlier)
    (clash : Clash first declaration) :
    ∃ original repeated, Repeats source original repeated ∧
      repeated.closing + 1 = before.length ∧ original.declaration = first ∧
      repeated.declaration = declaration := by
  obtain ⟨repeated, repeatedIn, rfl, rfl, length⟩ := Occurrence.exists_in delivered spelled
  obtain ⟨one, other, shape⟩ := List.append_of_mem member
  have parts : repeated.earlier ++ [repeated.declaration] =
      (one ++ [first]) ++ (other ++ [repeated.declaration]) := by
    rw [shape]
    simp
  rw [parts] at spelled
  obtain ⟨front, rest, rfl, spelledFront⟩ := spelled.exists_append
  rw [List.append_assoc] at delivered
  obtain ⟨original, originalIn, rfl, rfl, _⟩ := Occurrence.exists_in delivered spelledFront
  refine ⟨original, repeated, ⟨originalIn, repeatedIn, ⟨other, ?_⟩, distinct, clash⟩, length,
    rfl, rfl⟩
  rw [shape, List.append_assoc, List.singleton_append]

/-- Where a repeated name is found, the declaration that repeats it has just been read. -/
theorem exists_repeats (delivered : source.delivered = before ++ after)
    (follows : Reader.Follows source before progress reader) {found : Repetition}
    (failed : Schema.declareAll progress.declared = .error found) :
    ∃ original repeated, Repeats source original repeated ∧
      repeated.closing + 1 = before.length ∧
      found = repetition original.declaration repeated.declaration := by
  obtain ⟨settled, phase⟩ := progress
  have declared := follows.schema
  cases closed : phase.closed? with
  | none =>
    rw [Progress.declared, closed, Option.toList_none, List.append_nil] at failed
    cases failed.symm.trans declared
  | some declaration =>
    rw [Progress.declared, closed, Option.toList_some] at failed
    have reads := follows.reads
    rw [Phase.closed?_eq_some closed, reads_closed_iff] at reads
    have distinct := Schema.distinct_of_declareAll declared
    obtain ⟨first, member, clash, rfl⟩ := Schema.exists_clash_of_declareAll distinct failed
    obtain ⟨original, repeated, repeats, length, rfl, rfl⟩ :=
      exists_repeats_of_clash delivered reads distinct member clash
    exact ⟨original, repeated, repeats, length, rfl⟩

/-! ### Wrong tokens -/

theorem firstWrong_of_refused (delivered : source.delivered = before ++ token :: after)
    (reads : Reads source.tokenSpan .start before progress)
    (refused : progress.phase.next? source.tokenSpan token = none) :
    source.FirstWrong before.length := by
  obtain ⟨here, _, whole⟩ := Source.take_delivered delivered
  have within : before.length < source.delivered.length := (List.getElem?_eq_some_iff.mp here).1
  refine ⟨⟨within, whole ▸ not_viable_of_refused reads refused⟩, ?_⟩
  rintro index ⟨_, wrong⟩
  refine Nat.le_of_not_gt fun early => wrong ?_
  have front : source.delivered.take (index + 1) <+: before := by
    rw [delivered, List.take_append_of_le_length early]
    exact List.take_prefix _ _
  obtain ⟨rest, joined⟩ := front
  have viable := (viable_iff_reads source.tokenSpan before).mpr ⟨progress, reads⟩
  rw [← joined, List.map_append] at viable
  exact viable.of_append

theorem not_reads_of_firstWrong (wrong : source.FirstWrong index) :
    ¬ Reads source.tokenSpan .start source.delivered progress := by
  intro reads
  have viable := (viable_iff_reads source.tokenSpan source.delivered).mpr ⟨progress, reads⟩
  rw [← List.take_append_drop (index + 1) source.delivered, List.map_append] at viable
  exact wrong.1.2 viable.of_append

/-! ### The report that is made -/

/-- Where reading goes wrong, and what is reported, case by case. -/
theorem parse_outcome (source : Source) :
    (∃ progress, Reads source.tokenSpan .start source.delivered progress ∧
      ((source.fault? = none ∧ ∃ schema, source.parse = .ok schema) ∨
        ∃ diagnostic, source.fault? = some diagnostic ∧
          source.parse = .error (.lexical diagnostic))) ∨
    (∃ original repeated, Repeats source original repeated ∧
      repeated.closing + 1 < source.delivered.length ∧
      source.parse = .error (.semantic (source.repetitionReport original repeated))) ∨
    (∃ before token after progress, source.delivered = before ++ token :: after ∧
      Reads source.tokenSpan .start before progress ∧
      progress.phase.next? source.tokenSpan token = none ∧
      source.parse =
        .error (Reader.refused source progress.phase before.getLast? token)) := by
  rcases source.parse_cases with
    ⟨progress, reader, follows, ⟨faultless, parsed⟩ | lexical⟩ |
    ⟨before, token, after, progress, reader, delivered, follows,
      ⟨found, failed, semantic⟩ | ⟨_, _, out, syntactic⟩⟩
  · exact Or.inl ⟨progress, follows.reads, Or.inl ⟨faultless, _, parsed⟩⟩
  · exact Or.inl ⟨progress, follows.reads, Or.inr lexical⟩
  · obtain ⟨original, repeated, repeats, length, rfl⟩ := exists_repeats delivered follows failed
    have report := repeated_repetition repeats.originalIn repeats.repeatedIn
    refine Or.inr (Or.inl ⟨original, repeated, repeats, ?_, semantic.trans (by rw [report])⟩)
    rw [length, delivered, List.length_append, List.length_cons]
    exact Nat.lt_add_of_pos_right (Nat.succ_pos _)
  · exact Or.inr (Or.inr ⟨before, token, after, progress, delivered, follows.reads, out,
      syntactic⟩)

namespace Source

/-- A repeated name is found in time: a token has been scanned behind the declaration. -/
def RepeatsInTime (source : Source) (original repeated : Occurrence) : Prop :=
  Repeats source original repeated ∧
    (source.fault? ≠ none → repeated.closing + 1 < source.delivered.length)

theorem RepeatsInTime.parse_eq (inTime : source.RepeatsInTime original repeated) :
    source.parse = .error (.semantic (source.repetitionReport original repeated)) := by
  obtain ⟨repeats, room⟩ := inTime
  refine repeats.parse_eq ?_
  by_cases faultless : source.fault? = none
  · exact repeats.repeatedIn.succ_closing_lt faultless
  · exact room faultless

theorem parse_eq_lexical_iff {diagnostic : Diagnostic} :
    source.parse = .error (.lexical diagnostic) ↔
      source.fault? = some diagnostic ∧
        (¬ ∃ index < source.delivered.length, source.FirstWrong index) ∧
        ¬ ∃ original repeated, source.RepeatsInTime original repeated := by
  constructor
  · intro parsed
    rcases parse_outcome source with ⟨progress, reads, ⟨_, _, ok⟩ | ⟨other, fault, lexical⟩⟩ |
      ⟨_, _, _, _, semantic⟩ | ⟨_, _, _, _, _, _, _, syntactic⟩
    · exact nomatch ok.symm.trans parsed
    · cases lexical.symm.trans parsed
      exact ⟨fault, fun ⟨_, _, wrong⟩ => not_reads_of_firstWrong wrong reads,
        fun ⟨_, _, inTime⟩ => nomatch inTime.parse_eq.symm.trans parsed⟩
    · exact nomatch semantic.symm.trans parsed
    · exact nomatch syntactic.symm.trans parsed
  · rintro ⟨fault, neverWrong, neverInTime⟩
    rcases parse_outcome source with
      ⟨_, _, ⟨faultless, _⟩ | ⟨other, otherFault, lexical⟩⟩ |
      ⟨original, repeated, repeats, room, _⟩ |
      ⟨before, token, after, progress, delivered, reads, out, _⟩
    · exact nomatch faultless.symm.trans fault
    · cases fault.symm.trans otherFault
      exact lexical
    · exact absurd ⟨original, repeated, repeats, fun _ => room⟩ neverInTime
    · have wrong := firstWrong_of_refused delivered reads out
      exact absurd ⟨before.length, wrong.1.1, wrong⟩ neverWrong

theorem parse_eq_semantic_iff {diagnostic : Diagnostic} :
    source.parse = .error (.semantic diagnostic) ↔
      ∃ original repeated, source.RepeatsInTime original repeated ∧
        diagnostic = source.repetitionReport original repeated := by
  constructor
  · intro parsed
    rcases parse_outcome source with ⟨_, _, ⟨_, _, ok⟩ | ⟨_, _, lexical⟩⟩ |
      ⟨original, repeated, repeats, room, semantic⟩ | ⟨_, _, _, _, _, _, _, syntactic⟩
    · exact nomatch ok.symm.trans parsed
    · exact nomatch lexical.symm.trans parsed
    · cases semantic.symm.trans parsed
      exact ⟨original, repeated, ⟨repeats, fun _ => room⟩, rfl⟩
    · exact nomatch syntactic.symm.trans parsed
  · rintro ⟨original, repeated, inTime, rfl⟩
    exact inTime.parse_eq

theorem parse_eq_syntactic_iff {diagnostic : Diagnostic} :
    source.parse = .error (.syntactic diagnostic) ↔
      (¬ ∃ original repeated, source.RepeatsInTime original repeated) ∧
        ∃ index token progress, source.FirstWrong index ∧
          source.delivered[index]? = some token ∧
          Reads source.tokenSpan .start (source.delivered.take index) progress ∧
          diagnostic = source.diagnostic
            (progress.phase.fault (source.delivered.take index).getLast? token).message
            (source.tokenSpan token) := by
  constructor
  · intro parsed
    rcases parse_outcome source with ⟨_, _, ⟨_, _, ok⟩ | ⟨_, _, lexical⟩⟩ |
      ⟨_, _, _, _, semantic⟩ | ⟨before, token, after, progress, delivered, reads, out, syntactic⟩
    · exact nomatch ok.symm.trans parsed
    · exact nomatch lexical.symm.trans parsed
    · exact nomatch semantic.symm.trans parsed
    · obtain ⟨here, front, _⟩ := take_delivered delivered
      refine ⟨?_, before.length, token, progress, firstWrong_of_refused delivered reads out,
        here, ?_, ?_⟩
      · rintro ⟨_, _, inTime⟩
        exact nomatch inTime.parse_eq.symm.trans parsed
      · rw [front]
        exact reads
      · rw [front]
        exact CompileError.syntactic.inj (Except.error.inj (parsed.symm.trans syntactic))
  · rintro ⟨neverInTime, index, token, progress, wrong, found, reads, rfl⟩
    rcases parse_outcome source with ⟨_, whole, _⟩ | ⟨original, repeated, repeats, room, _⟩ |
      ⟨before, refused, after, other, delivered, otherReads, out, syntactic⟩
    · exact absurd whole (not_reads_of_firstWrong wrong)
    · exact absurd ⟨original, repeated, repeats, fun _ => room⟩ neverInTime
    · have same := wrong.unique (firstWrong_of_refused delivered otherReads out)
      subst same
      obtain ⟨here, front, _⟩ := take_delivered delivered
      rw [front] at reads ⊢
      cases here.symm.trans found
      cases reads.unique otherReads
      exact syntactic

theorem parse_fails_iff (source : Source) :
    (∃ error, source.parse = .error error) ↔
      source.fault? ≠ none ∨ (∃ index, source.FirstWrong index) ∨
        ∃ original repeated, Repeats source original repeated := by
  constructor
  · rintro ⟨error, failed⟩
    rcases parse_outcome source with
      ⟨_, _, ⟨_, _, ok⟩ | ⟨_, fault, _⟩⟩ | ⟨original, repeated, repeats, _⟩ |
      ⟨before, token, after, progress, delivered, reads, out, _⟩
    · exact nomatch ok.symm.trans failed
    · exact Or.inl fun faultless => nomatch faultless.symm.trans fault
    · exact Or.inr (Or.inr ⟨original, repeated, repeats⟩)
    · exact Or.inr (Or.inl ⟨before.length, firstWrong_of_refused delivered reads out⟩)
  · intro causes
    rcases parse_outcome source with
      ⟨_, reads, ⟨faultless, _⟩ | ⟨_, _, lexical⟩⟩ | ⟨_, _, _, _, semantic⟩ |
      ⟨_, _, _, _, _, _, _, syntactic⟩
    · rcases causes with fault | ⟨index, wrong⟩ | ⟨original, repeated, repeats⟩
      · exact absurd faultless fault
      · exact absurd reads (not_reads_of_firstWrong wrong)
      · exact ⟨_, repeats.parse_eq (repeats.repeatedIn.succ_closing_lt faultless)⟩
    · exact ⟨_, lexical⟩
    · exact ⟨_, semantic⟩
    · exact ⟨_, syntactic⟩

/-- Reading fails just where a character belongs to no token, a token cannot follow or a name is
repeated. A repeated name is reported if a token could be scanned behind the declaration, even one
that cannot follow; if not, the first wrong token is reported, and the character at the end of the
tokens only where there is none. -/
theorem parse_reports (source : Source) :
    ((∃ error, source.parse = .error error) ↔
      source.fault? ≠ none ∨ (∃ index, source.FirstWrong index) ∨
        ∃ original repeated, Repeats source original repeated) ∧
    (∀ error, source.parse = .error error → ∃ diagnostic, error = .lexical diagnostic ∨
      error = .semantic diagnostic ∨ error = .syntactic diagnostic) ∧
    (∀ diagnostic, source.parse = .error (.lexical diagnostic) ↔
      source.fault? = some diagnostic ∧
        (¬ ∃ index < source.delivered.length, source.FirstWrong index) ∧
        ¬ ∃ original repeated, source.RepeatsInTime original repeated) ∧
    (∀ diagnostic, source.parse = .error (.semantic diagnostic) ↔
      ∃ original repeated, source.RepeatsInTime original repeated ∧
        diagnostic = source.repetitionReport original repeated) ∧
    ∀ diagnostic, source.parse = .error (.syntactic diagnostic) ↔
      (¬ ∃ original repeated, source.RepeatsInTime original repeated) ∧
        ∃ index token progress, source.FirstWrong index ∧
          source.delivered[index]? = some token ∧
          Reads source.tokenSpan .start (source.delivered.take index) progress ∧
          diagnostic = source.diagnostic
            (progress.phase.fault (source.delivered.take index).getLast? token).message
            (source.tokenSpan token) := by
  refine ⟨parse_fails_iff source, fun error failed => ?_, fun _ => parse_eq_lexical_iff,
    fun _ => parse_eq_semantic_iff, fun _ => parse_eq_syntactic_iff⟩
  rcases parse_outcome source with ⟨_, _, ⟨_, _, ok⟩ | ⟨diagnostic, _, lexical⟩⟩ |
    ⟨_, _, _, _, semantic⟩ | ⟨_, _, _, _, _, _, _, syntactic⟩
  · exact nomatch ok.symm.trans failed
  · exact ⟨diagnostic, Or.inl (Except.error.inj (failed.symm.trans lexical))⟩
  · exact ⟨_, Or.inr (Or.inl (Except.error.inj (failed.symm.trans semantic)))⟩
  · exact ⟨_, Or.inr (Or.inr (Except.error.inj (failed.symm.trans syntactic)))⟩

end Source

end Idl
