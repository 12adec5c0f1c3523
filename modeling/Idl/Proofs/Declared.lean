/-
This file says what a source declares, and that it does not depend on where the words of the
declarations stand. The same tokens at other places spell the same declarations, moved
along, and tokens without places spell the declarations without places. So what can be
read, and what is read up to places, is settled by the words of a text alone.
-/

import Idl.Proofs.Rereading
import Idl.Proofs.Scanning
import Idl.Proofs.Likeness

namespace Idl

open Grammar Progress

variable {move : Relocation} {place otherPlace : Token → Span} {tokens others : List Token}
  {declarations : List Declaration}

/-! ### Reading in other places -/

/-- The second token is the first one at the place that it is taken to. -/
structure Token.TakenTo (move : Relocation) (place otherPlace : Token → Span)
    (token other : Token) : Prop where
  kind : other.kind = token.kind
  text : other.text = token.text
  placed : otherPlace other = move.span (place token)

namespace Progress

/-- The progress with everything that has been read moved. -/
def relocate (move : Relocation) (progress : Progress) : Progress :=
  ⟨progress.settled.map (Declaration.relocate move), progress.phase.relocate move⟩

theorem declared_relocate (progress : Progress) :
    (progress.relocate move).declared = progress.declared.map (Declaration.relocate move) := by
  obtain ⟨settled, phase⟩ := progress
  rw [declared, declared, List.map_append]
  refine congrArg (List.append _) ?_
  cases phase <;> rfl

theorem behind_relocate (declarations : List Declaration) :
    (behind declarations).relocate move =
      behind (declarations.map (Declaration.relocate move)) := by
  cases declarations with
  | nil => rfl
  | cons last earlier =>
    rw [behind, relocate, List.map_cons, behind, ← List.map_reverse]
    rfl

/-- Tokens that are read are read at other places as well. -/
theorem Reads.relocate {before after : Progress} (reads : Reads place before tokens after)
    (taken : List.Forall₂ (Token.TakenTo move place otherPlace) tokens others) :
    Reads otherPlace (before.relocate move) others (after.relocate move) := by
  induction taken generalizing before with
  | nil =>
    cases reads
    exact .nil _
  | @cons token other tokens others head _ inductionHypothesis =>
    rw [← List.singleton_append] at reads ⊢
    obtain ⟨middle, first, rest⟩ := reads_append_iff.mp reads
    obtain ⟨accepted, settled⟩ := reads_singleton_iff.mp first
    refine Reads.append (reads_singleton_iff.mpr ⟨?_, ?_⟩) (inductionHypothesis rest)
    · have moved := before.phase.next?_relocate head.kind head.text fun _ => head.placed
      rw [accepted] at moved
      exact moved
    · rw [declared_relocate, ← settled]
      rfl

end Progress

theorem Phase.next?_congr {token : Token} (phase : Phase)
    (same : otherPlace token = place token) :
    phase.next? otherPlace token = phase.next? place token := by
  cases phase <;> simp only [next?, same]

/-- Reading depends on the places of the tokens that are read, and of no others. -/
theorem Progress.Reads.of_place_eq {before after : Progress}
    (reads : Reads place before tokens after)
    (same : ∀ token ∈ tokens, otherPlace token = place token) :
    Reads otherPlace before tokens after := by
  induction tokens generalizing before with
  | nil => exact reads
  | cons token rest inductionHypothesis =>
    rw [List.forall_mem_cons] at same
    rw [← List.singleton_append] at reads ⊢
    obtain ⟨middle, first, others⟩ := reads_append_iff.mp reads
    rw [reads_singleton_iff, ← before.phase.next?_congr same.1, ← reads_singleton_iff] at first
    exact first.append (inductionHypothesis others same.2)

namespace Grammar

/-- The same tokens at other places spell the same declarations, moved along. -/
theorem SpellsCode.relocate (spelled : SpellsCode place tokens declarations)
    (taken : List.Forall₂ (Token.TakenTo move place otherPlace) tokens others) :
    SpellsCode otherPlace others (declarations.map (Declaration.relocate move)) := by
  have reads := spelled.reads.relocate taken
  rw [behind_relocate, List.map_reverse] at reads
  exact reads_behind_iff.mp reads

theorem SpellsCode.of_place_eq (spelled : SpellsCode place tokens declarations)
    (same : ∀ token ∈ tokens, otherPlace token = place token) :
    SpellsCode otherPlace tokens declarations :=
  reads_behind_iff.mp (spelled.reads.of_place_eq same)

/-! ### Words without places -/

/-- What is spelled is spelled without places by the words alone. -/
theorem SpellsCode.unplaced (spelled : SpellsCode place tokens declarations) :
    SpellsCode (fun _ => .nowhere) (tokens.map Token.unplaced)
      (declarations.map (Declaration.relocate .nowhere)) := by
  refine spelled.relocate (List.forall₂_map_right_iff.mpr (List.forall₂_same.mpr ?_))
  exact fun token _ => ⟨rfl, rfl, rfl⟩

/-- Words that spell something without places spell it with any. -/
theorem SpellsCode.exists_placed (place : Token → Span)
    (spelled : SpellsCode (fun _ => .nowhere) (tokens.map Token.unplaced) declarations) :
    ∃ placed : List Declaration, SpellsCode place tokens placed ∧
      placed.map (Declaration.relocate .nowhere) = declarations := by
  have kinds := (map_kind_mem_code_iff _ _).mpr ⟨declarations, spelled⟩
  rw [List.map_map] at kinds
  obtain ⟨placed, spelledPlaced⟩ := (map_kind_mem_code_iff place tokens).mp kinds
  exact ⟨placed, spelledPlaced, spelledPlaced.unplaced.unique spelled⟩

/-! ### Declarations below declarations -/

theorem SpellsEach.append {Entry : Type} {spells : List Token → Entry → Prop}
    {entries moreEntries : List Entry} (first : SpellsEach spells tokens entries)
    (second : SpellsEach spells others moreEntries) :
    SpellsEach spells (tokens ++ others) (entries ++ moreEntries) := by
  induction first with
  | nil => exact second
  | cons head _ inductionHypothesis =>
    rw [List.append_assoc]
    exact .cons head inductionHypothesis

/-- Declarations may follow others behind a line feed, as long as they do not open with one. -/
theorem SpellsCode.append {more : List Declaration} {token feed : Token}
    (first : SpellsCode place tokens declarations) (feedKind : feed.kind = .newline)
    (second : SpellsCode place (token :: others) more) (opens : token.kind ≠ .newline) :
    SpellsCode place (tokens ++ feed :: token :: others) (declarations ++ more) := by
  -- A derivation without a line feed in front is a declaration and others behind line feeds.
  obtain ⟨head, rest, declaration, later, shape, rfl, statement, following⟩ :
      ∃ head rest declaration later, token :: others = head ++ rest ∧
        more = declaration :: later ∧ SpellsStatement place head declaration ∧
        SpellsEach (SpellsNext place) rest later := by
    generalize opened : token :: others = all at second
    cases second with
    | empty => exact nomatch opened
    | statements statement following => exact ⟨_, _, _, _, rfl, rfl, statement, following⟩
    | feedStatements otherKind =>
      obtain ⟨rfl, _⟩ := List.cons.inj opened
      exact absurd otherKind opens
  rw [shape]
  have next := SpellsEach.cons (.feed feedKind statement) following
  cases first with
  | empty => exact .feedStatements feedKind statement following
  | statements before between =>
    rw [List.append_assoc]
    exact .statements before (between.append next)
  | feedStatements otherKind before between =>
    rw [List.cons_append, List.append_assoc]
    exact .feedStatements otherKind before (between.append next)

end Grammar

/-! ### What a source declares -/

namespace Declaration

theorem clash_relocate_iff {first second : Declaration} :
    Clash (first.relocate move) (second.relocate move) ↔ Clash first second := by
  cases first <;> cases second <;> rfl

end Declaration

namespace Schema

variable {schema : Schema}

theorem distinct_relocate_iff :
    Distinct (declarations.map (Declaration.relocate move)) ↔ Distinct declarations := by
  simp only [Distinct, List.pairwise_map, Declaration.clash_relocate_iff]

theorem messagesOf_relocate (declarations : List Declaration) :
    messagesOf (declarations.map (Declaration.relocate move)) =
      (messagesOf declarations).map (Message.relocate move) := by
  rw [messagesOf, messagesOf, List.filterMap_map, List.map_filterMap]
  refine congrArg (List.filterMap · _) (funext fun declaration => ?_)
  cases declaration <;> rfl

theorem servicesOf_relocate (declarations : List Declaration) :
    servicesOf (declarations.map (Declaration.relocate move)) =
      (servicesOf declarations).map (Service.relocate move) := by
  rw [servicesOf, servicesOf, List.filterMap_map, List.map_filterMap]
  refine congrArg (List.filterMap · _) (funext fun declaration => ?_)
  cases declaration <;> rfl

theorem Lists.relocate (lists : schema.Lists declarations) :
    (schema.relocate move).Lists (declarations.map (Declaration.relocate move)) := by
  constructor
  · rw [messagesOf_relocate, List.map_map]
    refine (congrArg (List.map _) lists.messages).trans ?_
    rw [List.map_map]
    rfl
  · rw [servicesOf_relocate, List.map_map]
    refine (congrArg (List.map _) lists.services).trans ?_
    rw [List.map_map]
    rfl

end Schema

namespace Source

variable {source : Source} {schema : Schema} {words : List Token}

/-- The source declares this, in the order of its text. -/
def Declares (source : Source) (declarations : List Declaration) : Prop :=
  ∃ tokens final, source.start.Scans tokens final ∧
    SpellsCode source.tokenSpan tokens declarations

theorem Declares.unique {other : List Declaration} (first : source.Declares declarations)
    (second : source.Declares other) : declarations = other := by
  obtain ⟨tokens, final, scans, spelled⟩ := first
  obtain ⟨_, _, otherScans, otherSpelled⟩ := second
  have same := Source.tokens_eq_ok_iff_scans.mpr scans
  rw [Source.tokens_eq_ok_iff_scans.mpr otherScans, Except.ok.injEq] at same
  obtain ⟨rfl, _⟩ := List.append_singleton_inj.mp same
  exact spelled.unique otherSpelled

/-- A source is read just where it declares something without repeating a name. -/
theorem parse_eq_ok_iff_declares :
    source.parse = .ok schema ↔
      ∃ declarations, source.Declares declarations ∧ schema.Lists declarations := by
  rw [parse_eq_ok_iff]
  constructor
  · rintro ⟨tokens, final, declarations, scanned, _, spelled, declared⟩
    exact ⟨declarations, ⟨tokens, final, tokens_eq_ok_iff_scans.mp scanned, spelled⟩,
      Schema.declareAll_eq_ok_iff.mp declared⟩
  · rintro ⟨declarations, ⟨tokens, final, scans, spelled⟩, lists⟩
    exact ⟨tokens, final, declarations, tokens_eq_ok_iff_scans.mpr scans, scans.kind_final,
      spelled, Schema.declareAll_eq_ok_iff.mpr lists⟩

theorem Declares.parses_iff (declares : source.Declares declarations) :
    (∃ schema, source.parse = .ok schema) ↔ Schema.Distinct declarations := by
  constructor
  · rintro ⟨schema, parsed⟩
    obtain ⟨_, again, lists⟩ := parse_eq_ok_iff_declares.mp parsed
    cases declares.unique again
    exact lists.distinct
  · intro distinct
    obtain ⟨schema, _, lists⟩ := Schema.exists_declareAll_of_distinct distinct
    exact ⟨schema, parse_eq_ok_iff_declares.mpr ⟨_, declares, lists⟩⟩

/-- A source whose words spell declarations declares these, at places of its own. -/
theorem exists_declares (holds : Text.Holds source.text words)
    (spelled : SpellsCode (fun _ => .nowhere) words declarations) :
    ∃ placed : List Declaration, source.Declares placed ∧
      placed.map (Declaration.relocate .nowhere) = declarations := by
  obtain ⟨tokens, final, scans, rfl⟩ := holds 0 0
  obtain ⟨placed, spelledPlaced, same⟩ := spelled.exists_placed source.tokenSpan
  exact ⟨placed, ⟨tokens, final, scans, spelledPlaced⟩, same⟩

end Source

end Idl
