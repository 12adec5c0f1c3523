/-
This file says what a message consists of in the end. A member that is a message stands
for the members of that message, so the types of a message unfold into a list of types
with a meaning of their own. They do so in one way only, and in the same way up to order
if members are put in another order. Where messages refer to messages that are declared,
and none leads back to itself, the messages can be ranked so that each refers to lower
ones only, and then all of them unfold.
-/

import Idl.Proofs.References
import Mathlib

namespace Idl

/-- The types of the members of a message. -/
def Message.types (message : Message) : List TypeReference := message.members.map Member.type

namespace Schema

/-! ### Messages inside messages -/

/-- The first message has a member that is the second message. -/
def Refers (schema : Schema) (name other : String) : Prop :=
  ∃ message, schema.message? name = some message ∧
    ∃ type ∈ message.types, type.kind = .messageReference ∧ type.name = other

/-- No message leads back to itself, through whatever messages. -/
def Acyclic (schema : Schema) : Prop := ∀ name, ¬ Relation.TransGen schema.Refers name name

/-- Every message that a message refers to is declared. -/
def Closed (schema : Schema) : Prop :=
  ∀ message ∈ schema.messages.values, ∀ type ∈ message.types, type.DefinedIn schema

/-- A message refers to messages of a lower rank only. -/
def Ranked (schema : Schema) (rank : String → Nat) : Prop :=
  ∀ name other, schema.Refers name other → rank other < rank name

/-- Each type that refers to a message is replaced by what the types of that message unfold into,
and the others stay, which have a meaning of their own. -/
inductive Unfolds (schema : Schema) : List TypeReference → List TypeReference → Prop where
  | nil : Unfolds schema [] []
  | builtin {type : TypeReference} {rest leaves : List TypeReference}
      (own : type.name ∈ Builtin.names) (later : Unfolds schema rest leaves) :
      Unfolds schema (type :: rest) (type :: leaves)
  | reference {type : TypeReference} {message : Message}
      {rest inside leaves : List TypeReference} (refers : type.kind = .messageReference)
      (found : schema.message? type.name = some message)
      (inner : Unfolds schema message.types inside) (later : Unfolds schema rest leaves) :
      Unfolds schema (type :: rest) (inside ++ leaves)

/-- The same messages, with their members in any order. -/
def Rearranged (schema other : Schema) : Prop :=
  ∀ name, Option.Rel (fun first second => first.members.Perm second.members)
    (schema.message? name) (other.message? name)

variable {schema other : Schema} {rank : String → Nat} {types leaves : List TypeReference}

/-! ### Ranks -/

theorem exists_message_of_definedIn {type : TypeReference} (defined : type.DefinedIn schema)
    (refers : type.kind = .messageReference) :
    ∃ message, schema.message? type.name = some message := by
  rw [← Option.isSome_iff_exists, message?, SymbolTable.isSome_get?]
  exact defined refers

theorem mem_values_of_message? {name : String} {message : Message}
    (found : schema.message? name = some message) : message ∈ schema.messages.values :=
  List.mem_map.mpr ⟨_, SymbolTable.get?_eq_some_iff.mp found, rfl⟩

namespace Rearranged

theorem exists_message (rearranged : schema.Rearranged other) {name : String} {message : Message}
    (found : schema.message? name = some message) :
    ∃ changed, other.message? name = some changed ∧ message.members.Perm changed.members := by
  have related := rearranged name
  rw [found] at related
  cases foundOther : other.message? name with
  | none =>
    rw [foundOther] at related
    exact nomatch related
  | some changed =>
    rw [foundOther] at related
    cases related with
    | some perm => exact ⟨changed, rfl, perm⟩

theorem symm (rearranged : schema.Rearranged other) : other.Rearranged schema := by
  intro name
  have related := rearranged name
  cases found : schema.message? name with
  | none =>
    rw [found] at related
    cases foundOther : other.message? name with
    | none => exact .none
    | some changed =>
      rw [foundOther] at related
      exact nomatch related
  | some message =>
    obtain ⟨changed, foundOther, perm⟩ := rearranged.exists_message found
    rw [foundOther]
    exact .some perm.symm

/-- The same messages are declared. -/
theorem size_eq (rearranged : schema.Rearranged other) :
    schema.messages.size = other.messages.size := by
  have declares : ∀ {first second : Schema}, first.Rearranged second →
      ∀ name ∈ first.messages.keys, name ∈ second.messages.keys := by
    intro first second moved name declared
    obtain ⟨⟨_, message⟩, inEntries, rfl⟩ := List.mem_map.mp declared
    obtain ⟨changed, found, _⟩ := moved.exists_message (SymbolTable.get?_eq_some_iff.mpr inEntries)
    exact List.mem_map.mpr ⟨_, SymbolTable.get?_eq_some_iff.mp found, rfl⟩
  have perm : schema.messages.keys.Perm other.messages.keys :=
    (List.perm_ext_iff_of_nodup schema.messages.nodup_keys other.messages.nodup_keys).mpr
      fun name => ⟨declares rearranged name, declares rearranged.symm name⟩
  have lengths := perm.length_eq
  rwa [SymbolTable.keys, SymbolTable.keys, List.length_map, List.length_map] at lengths

/-- The same messages rank lower. -/
theorem ranked (rearranged : schema.Rearranged other) (ranked : schema.Ranked rank) :
    other.Ranked rank := by
  rintro name _ ⟨changed, found, type, inTypes, refers, rfl⟩
  obtain ⟨message, foundFirst, perm⟩ := rearranged.symm.exists_message found
  have inFirst : type ∈ message.types := (perm.map Member.type).mem_iff.mp inTypes
  exact ranked _ _ ⟨message, foundFirst, type, inFirst, refers, rfl⟩

end Rearranged

/-- Where messages are ranked, none leads back to itself. -/
theorem Ranked.acyclic (ranked : schema.Ranked rank) : schema.Acyclic := by
  have falls : ∀ {name other : String}, Relation.TransGen schema.Refers name other →
      rank other < rank name := by
    intro name other leads
    induction leads with
    | single refers => exact ranked _ _ refers
    | tail _ refers inductionHypothesis => exact (ranked _ _ refers).trans inductionHypothesis
  exact fun name leads => Nat.lt_irrefl _ (falls leads)

/-- A rank can be found entry by entry. -/
theorem ranked_of_entries
    (falls : ∀ entry ∈ schema.messages.entries, ∀ type ∈ entry.2.types,
      type.kind = .messageReference → rank type.name < rank entry.1) : schema.Ranked rank := by
  rintro name _ ⟨message, found, type, inTypes, refers, rfl⟩
  exact falls _ (SymbolTable.get?_eq_some_iff.mp found) type inTypes refers

/-- Where no message leads back to itself, a message is ranked by the number of messages that it
leads to. It is not one of them, so there are more messages than its rank. -/
theorem Acyclic.exists_rank (acyclic : schema.Acyclic) (closed : schema.Closed) :
    ∃ rank, schema.Ranked rank ∧
      ∀ name ∈ schema.messages.keys, rank name < schema.messages.size := by
  classical
  let all := schema.messages.keys.toFinset
  let ahead (name : String) := all.filter (Relation.TransGen schema.Refers name)
  have absent : ∀ name, name ∉ ahead name := fun name member =>
    acyclic name (Finset.mem_filter.mp member).2
  refine ⟨fun name => (ahead name).card, fun name other refers => ?_, fun name declared => ?_⟩
  · have inAhead : other ∈ ahead name := by
      refine Finset.mem_filter.mpr ⟨List.mem_toFinset.mpr ?_, .single refers⟩
      obtain ⟨message, found, type, inTypes, reference, rfl⟩ := refers
      exact SymbolTable.contains_iff_mem.mp
        (closed message (mem_values_of_message? found) type inTypes reference)
    have further : ahead other ⊆ ahead name :=
      Finset.monotone_filter_right all fun _ _ leads => .head refers leads
    exact Finset.card_lt_card (Finset.ssubset_iff_of_subset further |>.mpr
      ⟨other, inAhead, absent other⟩)
  · have fewer : (ahead name).card < all.card :=
      Finset.card_lt_card (Finset.ssubset_iff_of_subset (Finset.filter_subset _ _) |>.mpr
        ⟨name, List.mem_toFinset.mpr declared, absent name⟩)
    have bound : all.card ≤ schema.messages.keys.length := List.toFinset_card_le _
    rw [SymbolTable.keys, List.length_map] at bound
    exact fewer.trans_le bound

/-! ### Unfolding -/

namespace Unfolds

/-- There is one way to unfold. -/
theorem unique {others : List TypeReference} (unfolds : schema.Unfolds types leaves)
    (again : schema.Unfolds types others) : leaves = others := by
  induction unfolds generalizing others with
  | nil =>
    cases again
    rfl
  | builtin own _ inductionHypothesis =>
    cases again with
    | builtin _ later => rw [inductionHypothesis later]
    | reference refers _ _ _ =>
      exact absurd own (Builtin.classify_eq_messageReference_iff.mp refers)
  | reference refers found _ _ inside later =>
    cases again with
    | builtin own _ => exact absurd own (Builtin.classify_eq_messageReference_iff.mp refers)
    | reference _ foundAgain innerAgain laterAgain =>
      cases found.symm.trans foundAgain
      rw [inside innerAgain, later laterAgain]

/-- What holds of the types of all messages holds of what they unfold into. -/
theorem forall_mem {holds : TypeReference → Prop} (unfolds : schema.Unfolds types leaves)
    (messages : ∀ message ∈ schema.messages.values, ∀ type ∈ message.types, holds type)
    (given : ∀ type ∈ types, holds type) :
    ∀ leaf ∈ leaves, leaf.name ∈ Builtin.names ∧ holds leaf := by
  induction unfolds with
  | nil => exact nofun
  | builtin own _ inductionHypothesis =>
    rw [List.forall_mem_cons] at given ⊢
    exact ⟨⟨own, given.1⟩, inductionHypothesis given.2⟩
  | reference _ found _ _ inside later =>
    rw [List.forall_mem_cons] at given
    exact List.forall_mem_append.mpr
      ⟨inside (messages _ (mem_values_of_message? found)), later given.2⟩

theorem append {first second inside : List TypeReference} (unfolds : schema.Unfolds first inside)
    (later : schema.Unfolds second leaves) :
    schema.Unfolds (first ++ second) (inside ++ leaves) := by
  induction unfolds with
  | nil => exact later
  | builtin own _ inductionHypothesis => exact .builtin own inductionHypothesis
  | reference refers found inner _ _ inductionHypothesis =>
    rw [List.append_assoc]
    exact .reference refers found inner inductionHypothesis

theorem exists_of_cons {type : TypeReference} {rest : List TypeReference}
    (unfolds : schema.Unfolds (type :: rest) leaves) :
    ∃ inside later, schema.Unfolds [type] inside ∧ schema.Unfolds rest later ∧
      leaves = inside ++ later := by
  cases unfolds with
  | builtin own later => exact ⟨[type], _, .builtin own .nil, later, rfl⟩
  | @reference _ _ _ inside _ refers found inner later =>
    have alone := Unfolds.reference refers found inner .nil
    rw [List.append_nil] at alone
    exact ⟨inside, _, alone, later, rfl⟩

/-- Types in another order unfold into the same types in another order. -/
theorem exists_of_perm {others : List TypeReference} (perm : types.Perm others)
    (unfolds : schema.Unfolds types leaves) :
    ∃ otherLeaves, schema.Unfolds others otherLeaves ∧ leaves.Perm otherLeaves := by
  induction perm generalizing leaves with
  | nil => exact ⟨leaves, unfolds, .refl _⟩
  | cons type _ inductionHypothesis =>
    obtain ⟨inside, later, first, rest, rfl⟩ := unfolds.exists_of_cons
    obtain ⟨moved, unfoldsMoved, perm⟩ := inductionHypothesis rest
    exact ⟨inside ++ moved, first.append unfoldsMoved, perm.append_left inside⟩
  | swap first second rest =>
    obtain ⟨inside, _, unfoldsFirst, others, rfl⟩ := unfolds.exists_of_cons
    obtain ⟨inner, later, unfoldsSecond, last, rfl⟩ := others.exists_of_cons
    refine ⟨inner ++ (inside ++ later), unfoldsSecond.append (unfoldsFirst.append last), ?_⟩
    rw [← List.append_assoc, ← List.append_assoc]
    exact List.perm_append_comm.append_right later
  | trans _ _ first second =>
    obtain ⟨middle, unfoldsMiddle, perm⟩ := first unfolds
    obtain ⟨last, unfoldsLast, permLast⟩ := second unfoldsMiddle
    exact ⟨last, unfoldsLast, perm.trans permLast⟩

/-- Where the members of the messages are in another order, types unfold into the same types in
another order. -/
theorem exists_of_rearranged (rearranged : schema.Rearranged other)
    (unfolds : schema.Unfolds types leaves) :
    ∃ otherLeaves, other.Unfolds types otherLeaves ∧ leaves.Perm otherLeaves := by
  induction unfolds with
  | nil => exact ⟨[], .nil, .nil⟩
  | @builtin type _ _ own _ inductionHypothesis =>
    obtain ⟨moved, unfoldsMoved, perm⟩ := inductionHypothesis
    exact ⟨type :: moved, .builtin own unfoldsMoved, perm.cons type⟩
  | @reference type message _ inside leaves refers found _ _ innerHypothesis laterHypothesis =>
    obtain ⟨moved, unfoldsMoved, perm⟩ := laterHypothesis
    obtain ⟨inner, unfoldsInner, permInner⟩ := innerHypothesis
    obtain ⟨changed, foundChanged, members⟩ := rearranged.exists_message found
    obtain ⟨last, unfoldsLast, permLast⟩ := unfoldsInner.exists_of_perm (members.map Member.type)
    exact ⟨last ++ moved, .reference refers foundChanged unfoldsLast unfoldsMoved,
      (permInner.trans permLast).append perm⟩

end Unfolds

/-- Messages that refer to lower ones only unfold, if all that they refer to are declared. -/
theorem Ranked.exists_unfolds (ranked : schema.Ranked rank) (closed : schema.Closed) {bound : Nat}
    (defined : ∀ type ∈ types, type.DefinedIn schema)
    (below : ∀ type ∈ types, type.kind = .messageReference → rank type.name < bound) :
    ∃ leaves, schema.Unfolds types leaves := by
  -- The types of a message may be more than those that are left, but they rank lower, so the
  -- induction is on the rank first and on the list second.
  induction bound using Nat.strongRecOn generalizing types with
  | ind bound inductionHypothesis =>
    induction types with
    | nil => exact ⟨[], .nil⟩
    | cons type rest restHypothesis =>
      rw [List.forall_mem_cons] at defined below
      obtain ⟨leaves, later⟩ := restHypothesis defined.2 below.2
      by_cases refers : type.kind = .messageReference
      · obtain ⟨message, found⟩ := exists_message_of_definedIn defined.1 refers
        obtain ⟨inside, inner⟩ := inductionHypothesis _ (below.1 refers)
          (closed message (mem_values_of_message? found))
          fun other inTypes reference => ranked _ _ ⟨message, found, other, inTypes, reference, rfl⟩
        exact ⟨inside ++ leaves, .reference refers found inner later⟩
      · have own : type.name ∈ Builtin.names :=
          not_not.mp fun absent => refers (Builtin.classify_eq_messageReference_iff.mpr absent)
        exact ⟨type :: leaves, .builtin own later⟩

end Schema

end Idl
