/-
This file proves what measuring a message finds. A message unfolds into types with a
meaning of their own; it has a fixed size if all of them have a width, and the size is
the sum of the widths, each counted as often as it occurs. Measuring adds up in the same
order but in other portions, member by member, and gives up at the first member without
a size. No sum on the way is larger than that of all widths, so nothing overflows where
that one does not; and measuring goes no deeper than messages can lie inside each other.
-/

import Idl.Proofs.Unfolding
import Idl.Schema.Size
import Mathlib

namespace Idl

/-! ### The widths of types -/

/-- The bytes that types take together. Those without a width count nothing. -/
def totalWidth (types : List TypeReference) : Nat :=
  (types.map fun type => type.width?.getD 0).sum

/-- The bytes that types take together, if all of them have a width. -/
def joinedWidth? (types : List TypeReference) : Option Nat :=
  if ∀ type ∈ types, type.width?.isSome then some (totalWidth types) else none

variable {first second types : List TypeReference}

theorem totalWidth_append (first second : List TypeReference) :
    totalWidth (first ++ second) = totalWidth first + totalWidth second := by
  rw [totalWidth, List.map_append, List.sum_append, totalWidth, totalWidth]

theorem joinedWidth?_singleton (type : TypeReference) : joinedWidth? [type] = type.width? := by
  cases width : type.width? <;> simp [joinedWidth?, totalWidth, width]

theorem joinedWidth?_append (first second : List TypeReference) :
    joinedWidth? (first ++ second) =
      (joinedWidth? first).bind fun size => (joinedWidth? second).map (size + ·) := by
  unfold joinedWidth?
  rw [totalWidth_append]
  simp only [List.forall_mem_append]
  by_cases fixed : ∀ type ∈ first, type.width?.isSome
  · by_cases fixedToo : ∀ type ∈ second, type.width?.isSome
    · rw [if_pos ⟨fixed, fixedToo⟩, if_pos fixed, if_pos fixedToo]
      rfl
    · rw [if_neg fun both => fixedToo both.2, if_pos fixed, if_neg fixedToo]
      rfl
  · rw [if_neg fun both => fixed both.1, if_neg fixed]
    rfl

theorem totalWidth_of_perm (perm : first.Perm second) : totalWidth first = totalWidth second :=
  (perm.map _).sum_eq

theorem joinedWidth?_of_perm (perm : first.Perm second) :
    joinedWidth? first = joinedWidth? second := by
  simp only [joinedWidth?, totalWidth_of_perm perm, perm.mem_iff]

theorem joinedWidth?_eq_some_iff {size : Nat} :
    joinedWidth? types = some size ↔
      (∀ type ∈ types, type.width?.isSome) ∧ size = totalWidth types := by
  rw [joinedWidth?, Option.ite_none_right_eq_some, Option.some.injEq, eq_comm (a := size)]

theorem joinedWidth?_eq_none_iff :
    joinedWidth? types = none ↔ ∃ type ∈ types, type.width? = none := by
  simp [joinedWidth?]

namespace Schema

variable {schema : Schema} {rank : String → Nat} {leaves : List TypeReference} {depth total : Nat}

/-! ### Adding up -/

/-- The size of a type, if it has a fixed one. -/
def typeSize (schema : Schema) (depth : Nat) (type : TypeReference) : OptionT Option Nat :=
  match type.kind with
  | .scalar => .mk (some type.width?)
  | .stream => failure
  | .messageReference => .mk (some (schema.message? type.name)) >>= schema.measureWithin depth

/-- The sizes of types, added to a total one after the other. -/
def sumSizes (schema : Schema) (depth total : Nat) (types : List TypeReference) :
    OptionT Option Nat :=
  types.foldlM (fun total type => schema.typeSize depth type >>= addSizes total) total

theorem measureWithin_succ (schema : Schema) (depth : Nat) (message : Message) :
    schema.measureWithin (depth + 1) message = schema.sumSizes depth 0 message.types := by
  rw [sumSizes, Message.types, List.foldlM_map]
  rfl

/-- A type with a meaning of its own has its width for a size. -/
theorem typeSize_of_own {type : TypeReference} (own : type.name ∈ Builtin.names) :
    (schema.typeSize depth type).run = some type.width? := by
  have widthless : ∀ name ∈ Builtin.names, Builtin.classify name = .stream →
      Builtin.width? name = none := by decide
  cases kind : type.kind with
  | scalar =>
    rw [typeSize, kind]
    rfl
  | stream =>
    rw [typeSize, kind, TypeReference.width?, widthless _ own kind]
    rfl
  | messageReference => exact absurd own (Builtin.classify_eq_messageReference_iff.mp kind)

theorem typeSize_of_reference {type : TypeReference} {message : Message}
    (refers : type.kind = .messageReference) (found : schema.message? type.name = some message) :
    schema.typeSize depth type = schema.measureWithin depth message := by
  rw [typeSize, refers, found]
  rfl

theorem sumSizes_of_none {type : TypeReference}
    (sizeless : (schema.typeSize depth type).run = some none) :
    (schema.sumSizes depth total (type :: types)).run = some none := by
  rw [sumSizes, List.foldlM_cons, bind_assoc, OptionT.run_bind, sizeless]
  rfl

theorem sumSizes_of_some {type : TypeReference} {size : Nat}
    (sized : (schema.typeSize depth type).run = some (some size))
    (small : total + size < UInt64.size) :
    schema.sumSizes depth total (type :: types) = schema.sumSizes depth (total + size) types := by
  have same : schema.typeSize depth type = pure size := OptionT.ext sized
  have sum : addSizes total size = pure (total + size) := by
    rw [addSizes, if_pos small]
    rfl
  rw [sumSizes, List.foldlM_cons, same, pure_bind, sum, pure_bind]
  rfl

/-- One type more is added up if its own size is what it unfolds into takes. -/
theorem run_sumSizes_cons {type : TypeReference} {inside : List TypeReference}
    (measured : (schema.typeSize depth type).run = some (joinedWidth? inside))
    (later : ∀ total, total + totalWidth leaves < UInt64.size →
      (schema.sumSizes depth total types).run = some ((joinedWidth? leaves).map (total + ·)))
    (small : total + totalWidth (inside ++ leaves) < UInt64.size) :
    (schema.sumSizes depth total (type :: types)).run =
      some ((joinedWidth? (inside ++ leaves)).map (total + ·)) := by
  rw [totalWidth_append] at small
  rw [joinedWidth?_append]
  cases joined : joinedWidth? inside with
  | none =>
    rw [joined] at measured
    exact sumSizes_of_none measured
  | some size =>
    rw [joined] at measured
    obtain ⟨_, rfl⟩ := joinedWidth?_eq_some_iff.mp joined
    rw [sumSizes_of_some measured (by omega), later _ (by omega), Option.bind_some, Option.map_map]
    refine congrArg (fun sum => some (Option.map sum (joinedWidth? leaves))) (funext fun rest => ?_)
    exact Nat.add_assoc total _ rest

/-- Adding up types that unfold finds the widths of what they unfold into, if it may go as deep as
the messages among them rank. -/
theorem Unfolds.run_sumSizes (ranked : schema.Ranked rank) (unfolds : schema.Unfolds types leaves)
    (deep : ∀ type ∈ types, type.kind = .messageReference → rank type.name < depth)
    (small : total + totalWidth leaves < UInt64.size) :
    (schema.sumSizes depth total types).run = some ((joinedWidth? leaves).map (total + ·)) := by
  induction unfolds generalizing depth total with
  | nil => rfl
  | @builtin type _ leaves own _ laterHypothesis =>
    rw [List.forall_mem_cons] at deep
    have measured : (schema.typeSize depth type).run = some (joinedWidth? [type]) := by
      rw [joinedWidth?_singleton, typeSize_of_own own]
    exact run_sumSizes_cons measured (fun _ => laterHypothesis deep.2) small
  | @reference type message _ inside leaves refers found _ _ innerHypothesis laterHypothesis =>
    rw [List.forall_mem_cons] at deep
    have measured : (schema.typeSize depth type).run = some (joinedWidth? inside) := by
      cases depth with
      | zero => exact absurd (deep.1 refers) (Nat.not_lt_zero _)
      | succ depth =>
        -- The types of the message rank lower than the message, and no higher than is left to go.
        have lower : ∀ inner ∈ message.types, inner.kind = .messageReference →
            rank inner.name < depth := fun inner inTypes reference =>
          (ranked _ _ ⟨message, found, inner, inTypes, reference, rfl⟩).trans_le
            (Nat.le_of_lt_succ (deep.1 refers))
        rw [totalWidth_append] at small
        rw [typeSize_of_reference refers found, measureWithin_succ,
          innerHypothesis lower (by omega)]
        simp
    exact run_sumSizes_cons measured (fun _ => laterHypothesis deep.2) small

/-! ### Measuring -/

/-- Measuring a message ends in this result: it goes no deeper than there are messages, and nothing
changes if it is allowed to go deeper. -/
def Measures (schema : Schema) (message : Message) (size? : Option Nat) : Prop :=
  ∀ depth, schema.messages.size < depth → (schema.measureWithin depth message).run = some size?

theorem Measures.fixedSize?_eq {message : Message} {size? : Option Nat}
    (measures : schema.Measures message size?) : schema.fixedSize? message = size? := by
  rw [fixedSize?, measures _ (Nat.lt_succ_self _)]
  rfl

/-- A message measures what it unfolds into. -/
theorem Ranked.measures (ranked : schema.Ranked rank) {message : Message}
    (unfolds : schema.Unfolds message.types leaves)
    (below : ∀ type ∈ message.types, type.kind = .messageReference →
      rank type.name < schema.messages.size)
    (small : totalWidth leaves < UInt64.size) : schema.Measures message (joinedWidth? leaves) := by
  intro depth deep
  obtain ⟨further, rfl⟩ : ∃ further, depth = further + 1 := ⟨depth - 1, by omega⟩
  have reaches : ∀ type ∈ message.types, type.kind = .messageReference →
      rank type.name < further := fun type inTypes refers =>
    (below type inTypes refers).trans_le (Nat.le_of_lt_succ deep)
  rw [measureWithin_succ, unfolds.run_sumSizes ranked reaches (by rwa [Nat.zero_add])]
  simp

end Schema

/-! ### What compiling guarantees -/

/-- Of the types that a member may have, only `string` has a meaning of its own and no width. -/
theorem TypeReference.width?_eq_none_iff {type : TypeReference} (own : type.name ∈ Builtin.names)
    (noStream : type.kind ≠ .stream) (noVoid : type.isVoid = false) :
    type.width? = none ↔ type.name = "string" := by
  have each : ∀ name ∈ Builtin.names, Builtin.classify name ≠ .stream →
      Builtin.isVoid name = false → (Builtin.width? name = none ↔ name = "string") := by decide
  exact each _ own noStream noVoid

theorem Schema.Verified.closed {schema : Schema} (verified : schema.Verified) : schema.Closed :=
  fun message declared =>
    List.forall_mem_map.mpr (verified.messages message declared).defined

/-- In what a declared message unfolds into, only `string` has no width. -/
theorem Schema.Verified.width?_eq_none_iff {schema : Schema} {message : Message}
    {leaves : List TypeReference} (verified : schema.Verified)
    (declared : message ∈ schema.messages.values)
    (unfolds : schema.Unfolds message.types leaves) :
    ∀ leaf ∈ leaves, leaf.width? = none ↔ leaf.name = "string" := by
  have plain : ∀ holder ∈ schema.messages.values, ∀ type ∈ holder.types,
      type.kind ≠ .stream ∧ type.isVoid = false := by
    intro holder inSchema
    have rules := verified.messages holder inSchema
    exact List.forall_mem_map.mpr fun member inMembers =>
      ⟨rules.noStream member inMembers, rules.noVoid member inMembers⟩
  intro leaf inLeaves
  obtain ⟨own, noStream, noVoid⟩ := unfolds.forall_mem plain (plain message declared) leaf inLeaves
  exact TypeReference.width?_eq_none_iff own noStream noVoid

/-- In a schema that has been compiled, a message that is referred to is always found; a message
unfolds into one list of types if no message leads back to itself; and if a word can hold what
these take together, measuring the message ends, in their sum if all of them have a width, and
without a size if there is a `string` among them. The order of members makes no difference. -/
theorem fixedSize_adds_leaves {file text : String} {schema : Schema} {message : Message}
    (compiled : compileText file text = .ok schema) (acyclic : schema.Acyclic)
    (declared : message ∈ schema.messages.values) :
    (∀ holder ∈ schema.messages.values, ∀ type ∈ holder.types, type.kind = .messageReference →
      ∃ inner ∈ schema.messages.values, schema.message? type.name = some inner) ∧
    ∃ leaves, (∀ others, schema.Unfolds message.types others ↔ others = leaves) ∧
      (totalWidth leaves < 2 ^ 64 →
        schema.Measures message (schema.fixedSize? message) ∧
        (∀ size, schema.fixedSize? message = some size ↔
          (∀ leaf ∈ leaves, leaf.width?.isSome) ∧ size = totalWidth leaves) ∧
        (schema.fixedSize? message = none ↔ ∃ leaf ∈ leaves, leaf.name = "string") ∧
        ∀ other rearranged, schema.Rearranged other →
          message.members.Perm rearranged.members →
          other.Measures rearranged (schema.fixedSize? message)) := by
  have verified : schema.Verified := by
    obtain ⟨formed, _, faultless, cleared⟩ := printable_of_compileText compiled
    exact cleared ▸ formed.verified faultless
  have closed := verified.closed
  obtain ⟨rank, ranked, lessThanAll⟩ := acyclic.exists_rank closed
  have below : ∀ type ∈ message.types, type.kind = .messageReference →
      rank type.name < schema.messages.size := fun type inTypes refers =>
    lessThanAll _ (SymbolTable.contains_iff_mem.mp (closed message declared type inTypes refers))
  obtain ⟨leaves, unfolds⟩ := ranked.exists_unfolds closed (closed message declared) below
  refine ⟨fun holder inSchema type inTypes refers => ?_, leaves, fun others =>
    ⟨fun again => again.unique unfolds, fun same => same ▸ unfolds⟩, fun small => ?_⟩
  · obtain ⟨inner, found⟩ :=
      Schema.exists_message_of_definedIn (closed holder inSchema type inTypes) refers
    exact ⟨inner, Schema.mem_values_of_message? found, found⟩
  · have measures := ranked.measures unfolds below small
    rw [measures.fixedSize?_eq]
    refine ⟨measures, fun size => joinedWidth?_eq_some_iff, ?_,
      fun other rearranged moved perm => ?_⟩
    · rw [joinedWidth?_eq_none_iff]
      exact exists_congr fun leaf => and_congr_right fun inLeaves =>
        verified.width?_eq_none_iff declared unfolds leaf inLeaves
    · have permTypes : message.types.Perm rearranged.types := perm.map Member.type
      obtain ⟨middle, unfoldsMiddle, permMiddle⟩ := unfolds.exists_of_rearranged moved
      obtain ⟨last, unfoldsLast, permLast⟩ := unfoldsMiddle.exists_of_perm permTypes
      have permLeaves := permMiddle.trans permLast
      have smallLast : totalWidth last < UInt64.size := by
        rwa [← totalWidth_of_perm permLeaves]
      rw [joinedWidth?_of_perm permLeaves]
      refine (moved.ranked ranked).measures unfoldsLast (fun type inTypes refers => ?_) smallLast
      rw [← moved.size_eq]
      exact below type (permTypes.mem_iff.mpr inTypes) refers

/-- A box between two corners. -/
def boxText : String :=
  "message Box \x7b\n\tCorner low\n\tCorner high\n\x7d\n" ++
  "message Corner \x7b\n\tint32 across\n\tfloat64 along\n\x7d"

/-- The box that it declares. -/
def boxMessage : Message where
  name := "Box"
  members := [⟨⟨"Corner", ⟨2, 1, 6⟩⟩, "low", ⟨2, 8, 3⟩⟩, ⟨⟨"Corner", ⟨3, 1, 6⟩⟩, "high", ⟨3, 8, 4⟩⟩]
  span := ⟨1, 8, 3⟩

/-- The corner that it declares. -/
def cornerMessage : Message where
  name := "Corner"
  members := [⟨⟨"int32", ⟨6, 1, 5⟩⟩, "across", ⟨6, 7, 6⟩⟩,
    ⟨⟨"float64", ⟨7, 1, 7⟩⟩, "along", ⟨7, 9, 5⟩⟩]
  span := ⟨5, 8, 6⟩

/-- All that it declares. -/
def boxSchema : Schema where
  messages := ⟨[("Box", boxMessage), ("Corner", cornerMessage)], by decide⟩
  services := .empty

set_option maxRecDepth 2000 in
/-- The two corners are measured one by one: a box takes twice twelve bytes. -/
theorem boxSchema_measured :
    compileText "box.idl" boxText = .ok boxSchema ∧ boxSchema.Acyclic ∧
      boxMessage ∈ boxSchema.messages.values ∧ boxSchema.fixedSize? boxMessage = some 24 := by
  have compiled : compileText "box.idl" boxText = .ok boxSchema := by cbv
  have ranked : boxSchema.Ranked fun name => if name = "Box" then 1 else 0 :=
    Schema.ranked_of_entries (by decide)
  have corner : boxSchema.Unfolds cornerMessage.types cornerMessage.types :=
    .builtin (by decide) (.builtin (by decide) .nil)
  have box : boxSchema.Unfolds boxMessage.types
      (cornerMessage.types ++ (cornerMessage.types ++ [])) :=
    .reference (by decide) rfl corner (.reference (by decide) rfl corner .nil)
  have declared : boxMessage ∈ boxSchema.messages.values := List.mem_cons_self
  obtain ⟨_, leaves, unfolds, measured⟩ := fixedSize_adds_leaves compiled ranked.acyclic declared
  rw [← (unfolds _).mp box] at measured
  refine ⟨compiled, ranked.acyclic, declared, ?_⟩
  exact ((measured (by decide)).2.1 24).mpr ⟨by decide, by decide⟩

end Idl
