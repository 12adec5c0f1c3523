/-
This file says what verifying a schema does to it. A schema that breaks a rule is left
exactly as it is, and the first violation is handed back. Any other schema changes in one
respect only: where `void` was all that a method took, the method takes nothing. After
that `void` is among the parameters of no method, nothing is found wrong, and verifying
again changes nothing.
-/

import Idl.Proofs.Findings
import Idl.Proofs.Verified

namespace Idl

/-! ### Emptied request lists -/

/-- The method as it was, save that its request list is now empty if it held `void` and nothing
else. -/
structure Method.Emptied (before after : Method) : Prop where
  name : after.name = before.name
  response : after.response = before.response
  span : after.span = before.span
  owner : after.owner = before.owner
  requests : after.requests =
    if before.requests.map TypeReference.name = ["void"] then [] else before.requests

/-- The service as it was, save for request lists that held `void` and nothing else. -/
structure Service.Emptied (before after : Service) : Prop where
  name : after.name = before.name
  span : after.span = before.span
  methods : List.Forall₂ Method.Emptied before.methods after.methods

/-- The schema as it was, save for request lists that held `void` and nothing else. -/
structure Schema.Emptied (before after : Schema) : Prop where
  messages : after.messages = before.messages
  keys : after.services.keys = before.services.keys
  services : List.Forall₂ Service.Emptied before.services.values after.services.values

/-- No method takes `void`, neither alone nor among other types. -/
def Schema.VoidFree (schema : Schema) : Prop :=
  ∀ method ∈ schema.methods, ∀ type ∈ method.requests, type.name ≠ "void"

/-! ### Emptying is all that is done -/

theorem Method.clearVoid_requests (method : Method) :
    method.clearVoid.requests =
      if method.requests.map TypeReference.name = ["void"] then [] else method.requests := by
  rw [clearVoid]
  split
  · next type alone =>
    rw [alone]
    simp only [List.map_singleton, List.singleton_inj, Schema.name_eq_void_iff]
    split
    · rfl
    · exact alone
  · next several =>
    refine (if_neg fun void => ?_).symm
    obtain ⟨type, alone, _⟩ := List.map_eq_singleton_iff.mp void
    exact several type alone

theorem Method.emptied_clearVoid (method : Method) : method.Emptied method.clearVoid := by
  refine ⟨method.clearVoid_name, ?_, ?_, method.clearVoid_owner, method.clearVoid_requests⟩
  · rcases method.clearVoid_cases with ⟨same, _⟩ | same <;> rw [same]
  · rcases method.clearVoid_cases with ⟨same, _⟩ | same <;> rw [same]

theorem Service.emptied_clearVoid (service : Service) : service.Emptied service.clearVoid :=
  ⟨rfl, rfl, List.forall₂_map_right_iff.mpr
    (List.forall₂_same.mpr fun method _ => method.emptied_clearVoid)⟩

namespace Schema

variable {schema : Schema}

theorem emptied_clearVoid (schema : Schema) : schema.Emptied schema.clearVoid := by
  refine ⟨rfl, SymbolTable.keys_map _ _, ?_⟩
  rw [clearVoid, SymbolTable.values_map]
  exact List.forall₂_map_right_iff.mpr
    (List.forall₂_same.mpr fun service _ => service.emptied_clearVoid)

theorem methods_clearVoid (schema : Schema) :
    schema.clearVoid.methods = schema.methods.map Method.clearVoid := by
  rw [methods, methods, clearVoid, SymbolTable.values_map, List.flatMap_map, List.map_flatMap]
  rfl

/-! ### Emptied schemas -/

theorem voidFree_clearVoid (keeps : schema.KeepsRules) : schema.clearVoid.VoidFree := by
  rw [VoidFree, methods_clearVoid, List.forall_mem_map]
  intro method inSchema
  rw [method.clearVoid_requests]
  split
  · exact nofun
  · next other =>
    intro type member void
    have alone := keeps.voidAlone method inSchema type member void
    exact other (by rw [alone, List.map_singleton, void])

/-- What is no longer asked for was not wrong, so nothing comes to be wrong. -/
theorem KeepsRules.clearVoid (keeps : schema.KeepsRules) : schema.clearVoid.KeepsRules := by
  have takesFewer : ∀ method : Method, method.clearVoid.requests.Sublist method.requests := by
    intro method
    rw [method.clearVoid_requests]
    split
    · exact List.nil_sublist _
    · exact List.Sublist.refl _
  refine { keeps with
    distinctMethods := ?_, voidAlone := ?_, oneStream := ?_, knownRequests := ?_,
    knownResponses := ?_ }
  · rw [Schema.clearVoid, SymbolTable.values_map, List.forall_mem_map]
    intro service inServices
    rw [Service.clearVoid, List.map_map, show Method.name ∘ Method.clearVoid = Method.name from
      funext Method.clearVoid_name]
    exact keeps.distinctMethods service inServices
  · intro method inSchema type member void
    exact absurd void (voidFree_clearVoid keeps method inSchema type member)
  · rw [methods_clearVoid, List.forall_mem_map]
    intro method inSchema
    exact ((takesFewer method).filter _).length_le.trans (keeps.oneStream method inSchema)
  · rw [methods_clearVoid, List.forall_mem_map]
    intro method inSchema type member
    exact keeps.knownRequests method inSchema type ((takesFewer method).subset member)
  · rw [methods_clearVoid, List.forall_mem_map]
    intro method inSchema
    rw [method.emptied_clearVoid.response]
    exact keeps.knownResponses method inSchema

/-- A table in which every value is replaced by itself is the same table. -/
theorem map_eq_self {Value : Type} {table : SymbolTable Value} {change : Value → Value}
    (same : ∀ value ∈ table.values, change value = value) : table.map change = table := by
  obtain ⟨entries, distinct⟩ := table
  have unchanged : entries.map (fun entry => (entry.1, change entry.2)) = entries := by
    refine (List.map_congr_left fun entry member => ?_).trans (List.map_id entries)
    exact Prod.ext rfl (same entry.2 (List.mem_map_of_mem member))
  rw [SymbolTable.map, SymbolTable.mapEntries]
  simp only [unchanged]

/-- Where no method takes `void`, there is nothing to empty. -/
theorem VoidFree.clearVoid_eq (free : schema.VoidFree) : schema.clearVoid = schema := by
  have untouched : ∀ method ∈ schema.methods, method.clearVoid = method := by
    intro method inSchema
    rcases method.clearVoid_cases with ⟨same, _⟩ | emptied
    · exact same
    · have requests := method.clearVoid_requests
      rw [if_neg fun void => ?_] at requests
      · rw [emptied] at requests ⊢
        exact congrArg (fun requests => { method with requests := requests }) requests
      · obtain ⟨type, alone, name⟩ := List.map_eq_singleton_iff.mp void
        exact free method inSchema type (alone ▸ List.mem_singleton_self type) name
  rw [clearVoid, map_eq_self]
  intro service inServices
  have methods : service.methods.map Method.clearVoid = service.methods := by
    refine (List.map_congr_left fun method inMethods => ?_).trans (List.map_id _)
    exact untouched method (mem_methods.mpr ⟨service, inServices, inMethods⟩)
  rw [Service.clearVoid, methods]

/-! ### Verifying in place -/

theorem verifyInPlace_run (schema : Schema) (source : Source) :
    (verifyInPlace source).run schema =
      match schema.violations source with
      | [] => (.ok (), schema.clearVoid)
      | first :: _ => (.error (.semantic first.diagnostic), schema) := by
  cases found : schema.violations source <;> simp [verifyInPlace, found] <;> rfl

/-- Verifying in place comes to the same as verifying, with the old schema kept where there is no
new one. -/
theorem verifyInPlace_eq_verify (schema : Schema) (source : Source) :
    (verifyInPlace source).run schema =
      match schema.verify source with
      | .ok after => (.ok (), after)
      | .error error => (.error error, schema) := by
  rw [verifyInPlace_run, verify, violations]
  cases schema.findings <;> rfl

/-- Verifying leaves a schema as it is or only empties request lists, and is done with that. -/
theorem verifyInPlace_atomic (schema : Schema) (source : Source) :
    ((verifyInPlace source).run schema =
      match schema.verify source with
      | .ok after => (.ok (), after)
      | .error error => (.error error, schema)) ∧
    match (verifyInPlace source).run schema with
    | (.error error, after) => after = schema ∧
        ∃ first rest, schema.violations source = first :: rest ∧
          error = .semantic first.diagnostic
    | (.ok (), after) => schema.violations source = [] ∧ schema.Emptied after ∧ after.VoidFree ∧
        after.violations source = [] ∧ (verifyInPlace source).run after = (.ok (), after) := by
  refine ⟨verifyInPlace_eq_verify schema source, ?_⟩
  have rules := fun schema : Schema => (violations_eq_reports schema source).2
  rw [verifyInPlace_run]
  cases found : schema.violations source with
  | cons first rest => exact ⟨rfl, first, rest, rfl, rfl⟩
  | nil =>
    have keeps := (rules schema).mp found
    have free := voidFree_clearVoid keeps
    have faultless := (rules schema.clearVoid).mpr keeps.clearVoid
    refine ⟨rfl, schema.emptied_clearVoid, free, faultless, ?_⟩
    rw [verifyInPlace_run, faultless]
    exact congrArg (Prod.mk _) free.clearVoid_eq

end Schema

end Idl
