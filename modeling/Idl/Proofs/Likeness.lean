/-
This file shows that likeness of schemas is an equivalence and that checking respects it. Two
schemas are alike just where one of them lists the declarations of the other one in some
order, once it is forgotten where anything was written. A search for findings asks a
schema for nothing but the keys of its messages, so in another order the same is found
wrong with the same declarations, and what clearing `void` leaves is alike again.
-/

import Idl.Proofs.Relocation
import Mathlib.Data.List.Nodup
import Mathlib.Data.List.Perm.Subperm

namespace Idl

/-! ### Tables in another order -/

namespace SymbolTable

variable {Value View : Type}

/-- Tables are compared by what is seen of their values: the same keys are bound to the same
views. -/
theorem alikeBy_iff_perm {alike : Value → Value → Bool} {view : Value → View}
    (compares : ∀ one other, alike one other = true ↔ view one = view other)
    (first second : SymbolTable Value) :
    first.alikeBy alike second = true ↔
      (first.map view).entries.Perm (second.map view).entries := by
  have mem_map : ∀ {table : SymbolTable Value} {key : String} {seen : View},
      (key, seen) ∈ (table.map view).entries ↔ ∃ value, (key, value) ∈ table.entries ∧
        view value = seen := by
    intro table key seen
    rw [← get?_eq_some_iff, get?_map, Option.map_eq_some_iff]
    simp only [get?_eq_some_iff]
  rw [alikeBy, Bool.and_eq_true, size, size, beq_iff_eq, List.all_eq_true]
  constructor
  · rintro ⟨sameSize, found⟩
    have distinct : (first.map view).entries.Nodup := (first.map view).distinct.of_map
    have among : (first.map view).entries ⊆ (second.map view).entries := by
      rintro ⟨key, seen⟩ member
      obtain ⟨value, inFirst, rfl⟩ := mem_map.mp member
      have here := found (key, value) inFirst
      cases there : second.get? key with
      | none => simp only [there, Bool.false_eq_true] at here
      | some other =>
        simp only [there, compares] at here
        exact mem_map.mpr ⟨other, get?_eq_some_iff.mp there, here.symm⟩
    -- Distinct keys leave no room in the second table for anything else.
    refine (distinct.subperm among).perm_of_length_le (Nat.le_of_eq ?_)
    exact ((List.length_map _).trans sameSize.symm).trans (List.length_map _).symm
  · intro reordered
    refine ⟨?_, fun entry inFirst => ?_⟩
    · exact ((List.length_map _).symm.trans reordered.length_eq).trans (List.length_map _)
    · obtain ⟨other, inSecond, same⟩ :=
        mem_map.mp (reordered.subset (mem_map.mpr ⟨entry.2, inFirst, rfl⟩))
      simp only [get?_eq_some_iff.mpr inSecond]
      exact (compares _ _).mpr same.symm

theorem contains_of_perm {first second : SymbolTable Value}
    (reordered : first.entries.Perm second.entries) (key : String) :
    first.contains key = second.contains key := by
  rw [Bool.eq_iff_iff, contains_iff_mem, contains_iff_mem]
  exact (reordered.map Prod.fst).mem_iff

end SymbolTable

/-! ### Schemas in another order -/

/-- Everything is taken to no place at all. -/
def Relocation.nowhere : Relocation := ⟨fun _ => .nowhere, fun _ => 0, fun _ => rfl⟩

/-- The second schema lists the declarations of the first one, in some order. -/
structure Schema.Reordered (first second : Schema) : Prop where
  messages : first.messages.entries.Perm second.messages.entries
  services : first.services.entries.Perm second.services.entries

namespace Schema

variable {first second third : Schema}

namespace Reordered

theorem refl (schema : Schema) : schema.Reordered schema := ⟨.refl _, .refl _⟩

theorem symm (reordered : first.Reordered second) : second.Reordered first :=
  ⟨reordered.messages.symm, reordered.services.symm⟩

theorem trans (one : first.Reordered second) (other : second.Reordered third) :
    first.Reordered third :=
  ⟨one.messages.trans other.messages, one.services.trans other.services⟩

theorem clearVoid (reordered : first.Reordered second) :
    first.clearVoid.Reordered second.clearVoid :=
  ⟨reordered.messages, reordered.services.map _⟩

end Reordered

/-- Schemas are alike if without positions they are the same up to the order of declarations. -/
theorem alike_iff_reordered :
    first.alike second = true ↔
      (first.relocate .nowhere).Reordered (second.relocate .nowhere) := by
  have messages : first.messages.alikeBy Message.alike second.messages = true ↔
      (first.relocate .nowhere).messages.entries.Perm (second.relocate .nowhere).messages.entries :=
    SymbolTable.alikeBy_iff_perm (fun _ _ => beq_iff_eq) _ _
  have services : first.services.alikeBy Service.alike second.services = true ↔
      (first.relocate .nowhere).services.entries.Perm (second.relocate .nowhere).services.entries :=
    SymbolTable.alikeBy_iff_perm (fun _ _ => beq_iff_eq) _ _
  rw [alike, Bool.and_eq_true, messages, services]
  exact ⟨fun both => ⟨both.1, both.2⟩, fun reordered => ⟨reordered.messages, reordered.services⟩⟩

theorem alike_self (schema : Schema) : schema.alike schema = true :=
  alike_iff_reordered.mpr (.refl _)

theorem alike_symm (alike : first.alike second = true) : second.alike first = true :=
  alike_iff_reordered.mpr (alike_iff_reordered.mp alike).symm

theorem alike_trans (one : first.alike second = true) (other : second.alike third = true) :
    first.alike third = true :=
  alike_iff_reordered.mpr ((alike_iff_reordered.mp one).trans (alike_iff_reordered.mp other))

/-! ### What is found wrong -/

section SameKeys

variable (sameKeys : ∀ key, first.messages.contains key = second.messages.contains key)

include sameKeys

theorem undefinedType_congr (context : Context) (type : TypeReference) :
    first.undefinedType context type = second.undefinedType context type := by
  rw [undefinedType, undefinedType, sameKeys]

theorem memberFindings_congr (message : String) (earlier : List String) (members : List Member) :
    first.memberFindings message earlier members =
      second.memberFindings message earlier members := by
  induction members generalizing earlier with
  | nil => rfl
  | cons member rest inductionHypothesis =>
    simp only [memberFindings, memberTypeFindings, undefinedType_congr sameKeys,
      inductionHypothesis]

theorem parameterFindings_congr (service method : String) (sole streaming : Bool)
    (types : List TypeReference) :
    first.parameterFindings service method sole streaming types =
      second.parameterFindings service method sole streaming types := by
  induction types generalizing streaming with
  | nil => rfl
  | cons type rest inductionHypothesis =>
    simp only [parameterFindings, undefinedType_congr sameKeys, inductionHypothesis]

theorem methodFindings_congr (service : String) (earlier : List String)
    (methods : List Method) :
    first.methodFindings service earlier methods =
      second.methodFindings service earlier methods := by
  induction methods generalizing earlier with
  | nil => rfl
  | cons method rest inductionHypothesis =>
    simp only [methodFindings, methodTypeFindings, undefinedType_congr sameKeys,
      parameterFindings_congr sameKeys, inductionHypothesis]

end SameKeys

/-- In another order the same is found wrong. -/
theorem Reordered.findings (reordered : first.Reordered second) :
    first.findings.Perm second.findings := by
  have sameKeys := SymbolTable.contains_of_perm reordered.messages
  have messages : first.messageFindings = second.messageFindings := by
    funext message
    exact memberFindings_congr sameKeys message.name [] message.members
  have services : first.serviceFindings = second.serviceFindings := by
    funext service
    exact methodFindings_congr sameKeys service.name [] service.methods
  rw [Schema.findings, Schema.findings, messages, services]
  exact ((reordered.messages.map Prod.snd).flatMap_right _).append
    ((reordered.services.map Prod.snd).flatMap_right _)

/-- The same problems are found in schemas that are alike. -/
theorem perm_problem_of_alike (alike : first.alike second = true) :
    (first.findings.map Finding.problem).Perm (second.findings.map Finding.problem) := by
  have found := (alike_iff_reordered.mp alike).findings
  rw [findings_relocate, findings_relocate] at found
  have problems := found.map Finding.problem
  rwa [List.map_map, List.map_map] at problems

end Schema

/-- What is complained about in a violation, wherever it stands: the rule that is broken, and what
is said about it. -/
def Violation.complaint (violation : Violation) : Rule × String :=
  (violation.rule, violation.diagnostic.message)

namespace Schema

variable {first second : Schema}

/-- The same complaints are made about schemas that are alike, whatever sources they are said to
come from. -/
theorem perm_complaint_of_alike (alike : first.alike second = true) (source other : Source) :
    ((first.violations source).map Violation.complaint).Perm
      ((second.violations other).map Violation.complaint) := by
  have complaints := (perm_problem_of_alike alike).map fun problem =>
    (problem.rule, problem.message)
  rw [List.map_map, List.map_map] at complaints
  rw [violations, violations, List.map_map, List.map_map]
  exact complaints

/-! ### Verifying -/

theorem verify_eq_ok_iff {schema after : Schema} {source : Source} :
    schema.verify source = .ok after ↔ schema.findings = [] ∧ after = schema.clearVoid := by
  rw [verify]
  cases schema.findings with
  | nil => simp [eq_comm]
  | cons first rest => simp

theorem findings_eq_nil_of_alike (alike : first.alike second = true) :
    first.findings = [] ↔ second.findings = [] := by
  have lengths := (perm_problem_of_alike alike).length_eq
  rw [List.length_map, List.length_map] at lengths
  rw [← List.length_eq_zero_iff, lengths, List.length_eq_zero_iff]

theorem clearVoid_alike (alike : first.alike second = true) :
    first.clearVoid.alike second.clearVoid = true := by
  have cleared := (alike_iff_reordered.mp alike).clearVoid
  rw [clearVoid_relocate, clearVoid_relocate] at cleared
  exact alike_iff_reordered.mpr cleared

/-- One of two schemas that are alike is verified just where the other one is, and what verifying
makes of them is alike. -/
theorem verify_alike (alike : first.alike second = true) (source other : Source) :
    ((∃ after, first.verify source = .ok after) ↔ ∃ after, second.verify other = .ok after) ∧
      ∀ after otherAfter, first.verify source = .ok after →
        second.verify other = .ok otherAfter → after.alike otherAfter = true := by
  simp only [verify_eq_ok_iff]
  refine ⟨?_, ?_⟩
  · rw [exists_and_left, exists_and_left, findings_eq_nil_of_alike alike]
    exact and_congr_right fun _ => ⟨fun _ => ⟨_, rfl⟩, fun _ => ⟨_, rfl⟩⟩
  · rintro _ _ ⟨_, rfl⟩ ⟨_, rfl⟩
    exact clearVoid_alike alike

end Schema

end Idl
