/-
This file says how much of a schema its JSON text tells: everything but positions, and
nothing else. Two schemas have the same text just where their tables list the same keys in
the same order and what stands under them is the same up to positions. So the text also
tells the order of declarations, which likeness of schemas leaves open.
-/

import Idl.Proofs.JsonText
import Idl.Schema.Alike
import Idl.Schema.Json
import Mathlib.Data.List.Forall2

namespace Idl

/-! ### Lists of records -/

section Lists

variable {Entry Left Right : Type} {first second : List Entry}

theorem map_eq_map_iff_forall₂ (write : Entry → Left) :
    first.map write = second.map write ↔
      List.Forall₂ (fun one other => write one = write other) first second := by
  rw [← List.forall₂_eq_eq_eq, List.forall₂_map_left_iff, List.forall₂_map_right_iff]

/-- Lists written entry by entry tell as much as their entries do. -/
theorem map_eq_map_congr {write : Entry → Left} {view : Entry → Right}
    (entries : ∀ one other, write one = write other ↔ view one = view other) :
    first.map write = second.map write ↔ first.map view = second.map view := by
  rw [map_eq_map_iff_forall₂, map_eq_map_iff_forall₂]
  have same : (fun one other => write one = write other) =
      fun one other => view one = view other := by
    funext one other
    exact propext (entries one other)
  rw [same]

end Lists

/-! ### Records of parts of a schema -/

theorem TypeReference.json_eq_iff (first second : TypeReference) :
    first.json = second.json ↔ first.unplaced = second.unplaced := by
  have record : first.json = second.json ↔ first.name = second.name := by
    constructor
    · intro same
      simp only [json, Json.object.injEq, List.cons.injEq, Prod.mk.injEq, Json.text.injEq] at same
      exact same.2.1.2
    · intro same
      rw [json, json, kind, kind, same]
  rw [record]
  simp only [unplaced, mk.injEq, and_true]

theorem Member.json_eq_iff (first second : Member) :
    first.json = second.json ↔ first.unplaced = second.unplaced := by
  simp only [json, unplaced, Json.object.injEq, List.cons.injEq, Prod.mk.injEq, Json.text.injEq,
    Member.mk.injEq, TypeReference.json_eq_iff, true_and, and_true]

theorem Message.json_eq_iff (first second : Message) :
    first.json = second.json ↔ first.unplaced = second.unplaced := by
  simp only [json, unplaced, Json.object.injEq, List.cons.injEq, Prod.mk.injEq, Json.text.injEq,
    Json.array.injEq, Message.mk.injEq, map_eq_map_congr Member.json_eq_iff, true_and, and_true]

theorem Method.json_eq_iff (first second : Method) :
    first.json = second.json ↔ first.unplaced = second.unplaced := by
  simp only [json, unplaced, Json.object.injEq, List.cons.injEq, Prod.mk.injEq, Json.text.injEq,
    Json.array.injEq, Method.mk.injEq, map_eq_map_congr TypeReference.json_eq_iff,
    TypeReference.json_eq_iff, true_and, and_true]

theorem Service.json_eq_iff (first second : Service) :
    first.json = second.json ↔ first.unplaced = second.unplaced := by
  simp only [json, unplaced, Json.object.injEq, List.cons.injEq, Prod.mk.injEq, Json.text.injEq,
    Json.array.injEq, Service.mk.injEq, map_eq_map_congr Method.json_eq_iff, true_and, and_true]

/-! ### Tables and schemas -/

/-- The record of a table tells its keys, in order, and the record of each value. -/
theorem SymbolTable.json_eq_iff {Value : Type} (write : Value → Json)
    (first second : SymbolTable Value) :
    first.json write = second.json write ↔ first.keys = second.keys ∧
      List.Forall₂ (fun one other => write one = write other) first.values second.values := by
  rw [json, json, Json.object.injEq, ← map_eq_map_iff_forall₂, keys, keys, values, values,
    List.map_map, List.map_map]
  constructor
  · intro same
    have keys := congrArg (List.map Prod.fst) same
    have values := congrArg (List.map Prod.snd) same
    rw [List.map_map, List.map_map] at keys values
    exact ⟨keys, values⟩
  · rintro ⟨keys, values⟩
    have zipped : ∀ table : SymbolTable Value,
        (table.entries.map fun entry => (entry.1, write entry.2)) =
          (table.entries.map Prod.fst).zip (table.entries.map (write ∘ Prod.snd)) :=
      fun table => List.zip_map'.symm
    rw [zipped, zipped, keys, values]

/-- The schemas list the same keys in the same order, and what they declare under them is the same
up to positions. -/
structure Schema.AlikeInOrder (first second : Schema) : Prop where
  messageKeys : first.messages.keys = second.messages.keys
  messages : List.Forall₂ (fun one other => one.alike other = true) first.messages.values
    second.messages.values
  serviceKeys : first.services.keys = second.services.keys
  services : List.Forall₂ (fun one other => one.alike other = true) first.services.values
    second.services.values

/-- Two schemas have the same JSON text if they declare the same things in the same order, and only
then. Where anything was written is all that the text leaves out. -/
theorem Schema.dump_eq_iff (first second : Schema) :
    first.dump = second.dump ↔ first.AlikeInOrder second := by
  have message : (fun one other : Message => one.json = other.json) =
      fun one other => one.alike other = true := by
    funext one other
    rw [Message.json_eq_iff, Message.alike, beq_iff_eq]
  have service : (fun one other : Service => one.json = other.json) =
      fun one other => one.alike other = true := by
    funext one other
    rw [Service.json_eq_iff, Service.alike, beq_iff_eq]
  have records : first.json = second.json ↔ first.AlikeInOrder second := by
    simp only [json, Json.object.injEq, List.cons.injEq, Prod.mk.injEq, true_and, and_true,
      SymbolTable.json_eq_iff, message, service]
    exact ⟨fun ⟨⟨messageKeys, messages⟩, serviceKeys, services⟩ =>
        ⟨messageKeys, messages, serviceKeys, services⟩,
      fun same => ⟨⟨same.messageKeys, same.messages⟩, same.serviceKeys, same.services⟩⟩
  rw [← records]
  exact Json.pretty_injective.eq_iff

end Idl
