/-
This file says what a schema is like in which nothing is found wrong. Each search for
findings comes up empty just where the part of the schema that it goes through keeps the
rules, so the rules can be stated of lists as a whole: no name twice, one stream at
most, no `void` beside anything else, no type that is not there.
-/

import Idl.Compile
import Mathlib.Data.List.Nodup

namespace Idl

/-! ### Kinds of type -/

namespace TypeReference

theorem kind_of_isVoid {type : TypeReference} (void : type.isVoid = true) :
    type.kind = .scalar := by
  have name : type.name = Builtin.voidName := beq_iff_eq.mp void
  rw [kind, name]
  decide

/-- A type that refers to a message refers to one of the schema. -/
def DefinedIn (schema : Schema) (type : TypeReference) : Prop :=
  type.kind = .messageReference → schema.messages.contains type.name = true

theorem definedIn_of_kind (schema : Schema) {type : TypeReference} {kind : TypeKind}
    (same : type.kind = kind) (builtin : kind ≠ .messageReference) : type.DefinedIn schema :=
  fun reference => absurd (same.symm.trans reference) builtin

end TypeReference

open TypeReference (DefinedIn)

/-! ### Distinct names -/

/-- Going through names, each of which must be none of those before it. -/
theorem nodup_cons_and_notMem_iff {name : String} {names earlier : List String} :
    ((name :: names).Nodup ∧ ∀ other ∈ name :: names, other ∉ earlier) ↔
      name ∉ earlier ∧ names.Nodup ∧ ∀ other ∈ names, other ∉ name :: earlier := by
  rw [List.nodup_cons, List.forall_mem_cons]
  constructor
  · rintro ⟨⟨absent, distinct⟩, fresh, others⟩
    refine ⟨fresh, distinct, fun other member => ?_⟩
    rw [List.mem_cons, not_or]
    exact ⟨fun same => absent (same ▸ member), others other member⟩
  · rintro ⟨fresh, distinct, others⟩
    refine ⟨⟨fun member => others name member List.mem_cons_self, distinct⟩, fresh, ?_⟩
    exact fun other member inEarlier => others other member (List.mem_cons_of_mem name inEarlier)

theorem repeatedFindings_eq_nil_iff {earlier : List String} {name : String}
    {finding : Finding} :
    (if earlier.contains name then [finding] else []) = [] ↔ name ∉ earlier := by
  simp

namespace Schema

variable {schema : Schema}

/-! ### Messages -/

theorem undefinedType_eq_nil_iff {context : Context} {type : TypeReference} :
    schema.undefinedType context type = [] ↔ type.DefinedIn schema := by
  rw [undefinedType, DefinedIn]
  cases type.kind <;> simp

theorem memberTypeFindings_eq_nil_iff {message : String} {member : Member} :
    schema.memberTypeFindings message member = [] ↔
      member.type.kind ≠ .stream ∧ member.type.isVoid = false ∧
        member.type.DefinedIn schema := by
  rw [memberTypeFindings]
  cases kind : member.type.kind with
  | stream => simp
  | scalar => simp [TypeReference.definedIn_of_kind schema kind]
  | messageReference =>
    have other : member.type.isVoid = false :=
      Bool.eq_false_iff.mpr fun void =>
        nomatch kind.symm.trans (TypeReference.kind_of_isVoid void)
    simp [undefinedType_eq_nil_iff, other]

theorem memberFindings_eq_nil_iff {message : String} {earlier : List String}
    {members : List Member} :
    schema.memberFindings message earlier members = [] ↔
      ((members.map Member.name).Nodup ∧ ∀ name ∈ members.map Member.name, name ∉ earlier) ∧
        ∀ member ∈ members, schema.memberTypeFindings message member = [] := by
  induction members generalizing earlier with
  | nil => simp [memberFindings]
  | cons member rest inductionHypothesis =>
    rw [memberFindings, List.append_eq_nil_iff, List.append_eq_nil_iff,
      repeatedFindings_eq_nil_iff, inductionHypothesis, List.map_cons,
      nodup_cons_and_notMem_iff, List.forall_mem_cons]
    tauto

/-! ### Services -/

/-- The streams among some types. -/
def streamsOf (types : List TypeReference) : List TypeReference :=
  types.filter fun type => type.kind == .stream

theorem streamsOf_cons_of_stream {type : TypeReference} {rest : List TypeReference}
    (stream : type.kind = .stream) : streamsOf (type :: rest) = type :: streamsOf rest :=
  List.filter_cons_of_pos (beq_iff_eq.mpr stream)

theorem streamsOf_cons_of_ne_stream {type : TypeReference} {rest : List TypeReference}
    (other : type.kind ≠ .stream) : streamsOf (type :: rest) = streamsOf rest :=
  List.filter_cons_of_neg fun stream => other (beq_iff_eq.mp stream)

/-- Parameters without findings: `void` stands alone if at all, there is one stream at most, and
none if one came before. -/
theorem parameterFindings_eq_nil_iff {service method : String} {sole streaming : Bool}
    {types : List TypeReference} :
    schema.parameterFindings service method sole streaming types = [] ↔
      (sole = false → ∀ type ∈ types, type.isVoid = false) ∧
        streaming.toNat + (streamsOf types).length ≤ 1 ∧
        ∀ type ∈ types, type.DefinedIn schema := by
  induction types generalizing streaming with
  | nil => cases streaming <;> simp [parameterFindings, streamsOf]
  | cons type rest inductionHypothesis =>
    rw [parameterFindings, List.forall_mem_cons, List.forall_mem_cons]
    cases kind : type.kind with
    | scalar =>
      have defined := TypeReference.definedIn_of_kind schema kind (by decide)
      rw [streamsOf_cons_of_ne_stream (by rw [kind]; decide), List.append_eq_nil_iff,
        inductionHypothesis]
      cases type.isVoid <;> cases sole <;> simp [defined]
    | stream =>
      have defined := TypeReference.definedIn_of_kind schema kind (by decide)
      have other : type.isVoid = false :=
        Bool.eq_false_iff.mpr fun void =>
          nomatch kind.symm.trans (TypeReference.kind_of_isVoid void)
      have count : streaming.toNat + ((streamsOf rest).length + 1) ≤ 1 ↔
          streaming = false ∧ true.toNat + (streamsOf rest).length ≤ 1 := by
        cases streaming with
        | false => rw [Bool.toNat_false, Bool.toNat_true, Nat.zero_add, Nat.add_comm]; simp
        | true => simp [Nat.add_comm 1]
      rw [streamsOf_cons_of_stream kind, List.length_cons, count, List.append_eq_nil_iff,
        inductionHypothesis]
      cases streaming <;> simp [defined, other]
    | messageReference =>
      have other : type.isVoid = false :=
        Bool.eq_false_iff.mpr fun void =>
          nomatch kind.symm.trans (TypeReference.kind_of_isVoid void)
      rw [streamsOf_cons_of_ne_stream (by rw [kind]; decide), List.append_eq_nil_iff,
        inductionHypothesis, undefinedType_eq_nil_iff]
      simp only [other, true_and]
      tauto

theorem methodTypeFindings_eq_nil_iff {service : String} {method : Method} :
    schema.methodTypeFindings service method = [] ↔
      method.response.DefinedIn schema ∧
        (method.requests.length ≠ 1 → ∀ type ∈ method.requests, type.isVoid = false) ∧
        (streamsOf method.requests).length ≤ 1 ∧
        ∀ type ∈ method.requests, type.DefinedIn schema := by
  rw [methodTypeFindings, List.append_eq_nil_iff, undefinedType_eq_nil_iff,
    parameterFindings_eq_nil_iff, beq_eq_false_iff_ne, Bool.toNat_false, Nat.zero_add]

theorem methodFindings_eq_nil_iff {service : String} {earlier : List String}
    {methods : List Method} :
    schema.methodFindings service earlier methods = [] ↔
      ((methods.map Method.name).Nodup ∧ ∀ name ∈ methods.map Method.name, name ∉ earlier) ∧
        ∀ method ∈ methods, schema.methodTypeFindings service method = [] := by
  induction methods generalizing earlier with
  | nil => simp [methodFindings]
  | cons method rest inductionHypothesis =>
    rw [methodFindings, List.append_eq_nil_iff, List.append_eq_nil_iff,
      repeatedFindings_eq_nil_iff, inductionHypothesis, List.map_cons,
      nodup_cons_and_notMem_iff, List.forall_mem_cons]
    tauto

/-! ### All that is declared -/

theorem findings_eq_nil_iff :
    schema.findings = [] ↔
      (∀ message ∈ schema.messages.values, schema.messageFindings message = []) ∧
        ∀ service ∈ schema.services.values, schema.serviceFindings service = [] := by
  rw [findings, List.append_eq_nil_iff, List.flatMap_eq_nil_iff, List.flatMap_eq_nil_iff]

end Schema

end Idl
