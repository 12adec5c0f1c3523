/-
This file says what the types of a compiled schema refer to. A name has a meaning of its
own or refers to a message, and which of the two is settled by the name alone: checking
makes sure that a message which is referred to is declared, and reading makes sure that it
is declared once. Nothing keeps a message from being declared under a name that has a
meaning of its own, but then no type refers to it.
-/

import Idl.Proofs.Printing

namespace Idl

/-! ### Names -/

/-- A name refers to a message if it has no meaning of its own. -/
theorem Builtin.classify_eq_messageReference_iff {name : String} :
    classify name = .messageReference ↔ name ∉ names := by
  have streams : ∀ stream ∈ streamNames, stream ∈ names := by decide
  rw [classify, isStream, isBuiltin]
  by_cases stream : name ∈ streamNames
  · simp [stream, streams name stream]
  · by_cases known : name ∈ names <;> simp [stream, known]

/-! ### The types of a schema -/

namespace Schema

variable {schema : Schema}

/-- All types that are written in a schema: those of the members of messages, those that methods
take, and those that methods return. -/
def types (schema : Schema) : List TypeReference :=
  schema.messages.values.flatMap (fun message => message.members.map Member.type) ++
    (schema.requestTypes ++ schema.responseTypes)

theorem forall_mem_types {holds : TypeReference → Prop} :
    (∀ type ∈ schema.types, holds type) ↔
      (∀ message ∈ schema.messages.values, ∀ member ∈ message.members, holds member.type) ∧
        ∀ service ∈ schema.services.values, ∀ method ∈ service.methods,
          (∀ type ∈ method.requests, holds type) ∧ holds method.response := by
  have members : (∀ type ∈ schema.messages.values.flatMap fun message =>
        message.members.map Member.type, holds type) ↔
      ∀ message ∈ schema.messages.values, ∀ member ∈ message.members, holds member.type := by
    simp only [List.forall_mem_flatMap, List.forall_mem_map]
  have methods : (∀ type ∈ schema.requestTypes ++ schema.responseTypes, holds type) ↔
      ∀ service ∈ schema.services.values, ∀ method ∈ service.methods,
        (∀ type ∈ method.requests, holds type) ∧ holds method.response := by
    simp only [requestTypes, responseTypes, Schema.methods, List.forall_mem_append,
      List.forall_mem_flatMap, List.forall_mem_map, ← forall_and]
  rw [types, List.forall_mem_append, members, methods]

/-- Where nothing is found wrong, a message that a type refers to is declared. -/
theorem definedIn_of_findings (faultless : schema.findings = []) :
    ∀ type ∈ schema.types, type.DefinedIn schema := by
  obtain ⟨messages, services⟩ := findings_eq_nil_iff.mp faultless
  refine forall_mem_types.mpr ⟨fun message inMessages member inMembers => ?_,
    fun service inServices method inMethods => ?_⟩
  · have types := (memberFindings_eq_nil_iff.mp (messages message inMessages)).2
    exact (memberTypeFindings_eq_nil_iff.mp (types member inMembers)).2.2
  · have types := (methodFindings_eq_nil_iff.mp (services service inServices)).2
    obtain ⟨response, _, _, requests⟩ := methodTypeFindings_eq_nil_iff.mp (types method inMethods)
    exact ⟨requests, response⟩

/-- Where declarations are found under their names, a name that is bound is that of one message,
which is the one that is found. -/
theorem Formed.exists_message (formed : schema.Formed) {name : String}
    (bound : name ∈ schema.messages.keys) :
    ∃ message, schema.message? name = some message ∧
      ∀ other ∈ schema.messages.values, other.name = name ↔ other = message := by
  have found : ∀ message, schema.message? name = some message ↔
      (name, message) ∈ schema.messages.entries := fun _ => SymbolTable.get?_eq_some_iff
  obtain ⟨⟨_, message⟩, inEntries, rfl⟩ := List.mem_map.mp bound
  refine ⟨message, (found message).mpr inEntries, fun other inValues => ⟨fun same => ?_, ?_⟩⟩
  · obtain ⟨⟨key, _⟩, otherEntry, rfl⟩ := List.mem_map.mp inValues
    have keyed : key = _ := formed.messageKeys _ otherEntry
    rw [keyed, same] at otherEntry
    exact Option.some.inj (((found _).mpr otherEntry).symm.trans ((found message).mpr inEntries))
  · rintro rfl
    exact (formed.messageKeys _ inEntries).symm

end Schema

/-! ### What compiling guarantees -/

/-- In a schema that has been compiled, the types that refer to a message are those with the name
of a message and no meaning of their own, and each refers to the one message of that name. -/
theorem references_resolve {file text : String} {schema : Schema}
    (compiled : compileText file text = .ok schema) :
    ∀ type ∈ schema.types,
      (type.kind = .messageReference ↔
        type.name ∈ schema.messages.keys ∧ type.name ∉ Builtin.names) ∧
      (type.kind = .messageReference → ∃ message, schema.message? type.name = some message ∧
        ∀ other ∈ schema.messages.values, other.name = type.name ↔ other = message) := by
  obtain ⟨formed, _, faultless, _⟩ := printable_of_compileText compiled
  intro type member
  have bound : type.kind = .messageReference → type.name ∈ schema.messages.keys :=
    fun reference => SymbolTable.contains_iff_mem.mp
      (Schema.definedIn_of_findings faultless type member reference)
  refine ⟨⟨fun reference => ⟨bound reference, ?_⟩, fun declared => ?_⟩,
    fun reference => formed.exists_message (bound reference)⟩
  · exact Builtin.classify_eq_messageReference_iff.mp reference
  · exact Builtin.classify_eq_messageReference_iff.mpr declared.2

/-- A message under the name of a scalar, and one with members of both these names. -/
def shadowedText : String :=
  "message int32 \x7b\n\tstring digits\n\x7d\nmessage Pair \x7b\n\tint32 first\n\tPair rest\n\x7d"

/-- What it declares. -/
def shadowedSchema : Schema where
  messages := ⟨[("int32", ⟨"int32", [⟨⟨"string", ⟨2, 1, 6⟩⟩, "digits", ⟨2, 8, 6⟩⟩], ⟨1, 8, 5⟩⟩),
    ("Pair", ⟨"Pair", [⟨⟨"int32", ⟨5, 1, 5⟩⟩, "first", ⟨5, 7, 5⟩⟩,
      ⟨⟨"Pair", ⟨6, 1, 4⟩⟩, "rest", ⟨6, 6, 4⟩⟩], ⟨4, 8, 4⟩⟩)], by decide⟩
  services := .empty

set_option maxRecDepth 2000 in
/-- The name of a message does not make a type refer to it. -/
theorem shadowedSchema_unreferred :
    compileText "pair.idl" shadowedText = .ok shadowedSchema ∧
      ¬ ∀ type ∈ shadowedSchema.types,
        (type.kind = .messageReference ↔ type.name ∈ shadowedSchema.messages.keys) := by
  refine ⟨by cbv, ?_⟩
  decide

set_option maxRecDepth 2000 in
theorem shadowedSchema_resolved :
    compileText "pair.idl" shadowedText = .ok shadowedSchema ∧
      ∃ message, shadowedSchema.message? "Pair" = some message ∧
        ∀ other ∈ shadowedSchema.messages.values, other.name = "Pair" ↔ other = message := by
  have compiled : compileText "pair.idl" shadowedText = .ok shadowedSchema := by cbv
  exact ⟨compiled, (references_resolve compiled ⟨"Pair", ⟨6, 1, 4⟩⟩ (by decide)).2 (by decide)⟩

end Idl
