/-
This file moves the declarations of a schema to other places. What a schema means does
not depend on where it was written: adding a declaration, checking and clearing `void`
commute with every relocation, and a schema is alike to each of its relocations. Only
the line of a first declaration is quoted in words, and it moves along.
-/

import Idl.Compile
import Idl.Schema.Alike
import Mathlib.Data.List.Basic

namespace Idl

/-! ### Relocations -/

/-- Where words go when what was written is moved. The line that a span comes to is known from its
line alone. -/
structure Relocation where
  span : Span → Span
  line : UInt32 → UInt32
  line_span : ∀ place, (span place).line = line place.line

/-- The lines are given other numbers, and everything stays in its line and its column. -/
def Relocation.ofLine (line : UInt32 → UInt32) : Relocation :=
  ⟨fun place => { place with line := line place.line }, line, fun _ => rfl⟩

variable (move : Relocation)

def TypeReference.relocate (type : TypeReference) : TypeReference :=
  { type with span := move.span type.span }

def Member.relocate (member : Member) : Member :=
  ⟨member.type.relocate move, member.name, move.span member.span⟩

def Message.relocate (message : Message) : Message :=
  ⟨message.name, message.members.map (Member.relocate move), move.span message.span⟩

def Method.relocate (method : Method) : Method :=
  { method with
    requests := method.requests.map (TypeReference.relocate move)
    response := method.response.relocate move
    span := move.span method.span }

def Service.relocate (service : Service) : Service :=
  ⟨service.name, service.methods.map (Method.relocate move), move.span service.span⟩

theorem Service.ofMethods_relocate (name : String) (span : Span) (methods : List Method) :
    Service.ofMethods name (move.span span) (methods.map (Method.relocate move)) =
      (Service.ofMethods name span methods).relocate move := by
  rw [Service.ofMethods, Service.ofMethods, Service.relocate, List.map_map, List.map_map]
  rfl

/-- The schema with everything in it moved. -/
def Schema.relocate (schema : Schema) : Schema :=
  ⟨schema.messages.map (Message.relocate move), schema.services.map (Service.relocate move)⟩

def Declaration.relocate : Declaration → Declaration
  | .message declared => .message (declared.relocate move)
  | .service declared => .service (declared.relocate move)

def Repetition.relocate (repetition : Repetition) : Repetition :=
  { repetition with span := move.span repetition.span, firstLine := move.line repetition.firstLine }

def Finding.relocate (finding : Finding) : Finding :=
  { finding with span := move.span finding.span }

/-! ### Adding a declaration -/

namespace Schema

variable {move} {schema after : Schema} {declaration : Declaration}

theorem declare_relocate_of_ok (declared : schema.declare declaration = .ok after) :
    (schema.relocate move).declare (declaration.relocate move) = .ok (after.relocate move) := by
  cases declaration with
  | message message =>
    simp only [declare] at declared
    split at declared
    · cases declared
    · next free =>
      cases declared
      have stillFree : ¬ (schema.messages.map (Message.relocate move)).contains
          message.name = true := by rwa [SymbolTable.contains_map]
      refine (dif_neg stillFree).trans (congrArg Except.ok ?_)
      exact congrArg (Schema.mk · _)
        (SymbolTable.insert_map _ _ message (Bool.eq_false_iff.mpr free))
  | service service =>
    simp only [declare] at declared
    split at declared
    · cases declared
    · next free =>
      cases declared
      have stillFree : ¬ (schema.services.map (Service.relocate move)).contains
          service.name = true := by rwa [SymbolTable.contains_map]
      refine (dif_neg stillFree).trans (congrArg Except.ok ?_)
      exact congrArg (Schema.mk _ ·)
        (SymbolTable.insert_map _ _ service (Bool.eq_false_iff.mpr free))

theorem declare_relocate_of_error {repetition : Repetition}
    (refused : schema.declare declaration = .error repetition) :
    (schema.relocate move).declare (declaration.relocate move) =
      .error (repetition.relocate move) := by
  cases declaration with
  | message message =>
    simp only [declare] at refused
    split at refused
    · next taken =>
      cases refused
      have stillTaken : (schema.messages.map (Message.relocate move)).contains
          message.name = true := by rwa [SymbolTable.contains_map]
      refine (dif_pos stillTaken).trans (congrArg Except.error ?_)
      refine congrArg (Repetition.mk _ _ _) ?_
      exact (congrArg (fun first : Message => first.span.line)
        (SymbolTable.find_map _ _ stillTaken)).trans (move.line_span _)
    · cases refused
  | service service =>
    simp only [declare] at refused
    split at refused
    · next taken =>
      cases refused
      have stillTaken : (schema.services.map (Service.relocate move)).contains
          service.name = true := by rwa [SymbolTable.contains_map]
      refine (dif_pos stillTaken).trans (congrArg Except.error ?_)
      refine congrArg (Repetition.mk _ _ _) ?_
      exact (congrArg (fun first : Service => first.span.line)
        (SymbolTable.find_map _ _ stillTaken)).trans (move.line_span _)
    · cases refused

/-! ### Checking -/

variable (move) (schema)

theorem contains_messages_relocate (key : String) :
    (schema.relocate move).messages.contains key = schema.messages.contains key :=
  SymbolTable.contains_map _ _ key

theorem undefinedType_relocate (context : Context) (type : TypeReference) :
    (schema.relocate move).undefinedType context (type.relocate move) =
      (schema.undefinedType context type).map (Finding.relocate move) := by
  rw [undefinedType, undefinedType, contains_messages_relocate, apply_ite (List.map _)]
  rfl

theorem memberTypeFindings_relocate (message : String) (member : Member) :
    (schema.relocate move).memberTypeFindings message (member.relocate move) =
      (schema.memberTypeFindings message member).map (Finding.relocate move) := by
  have sameKind : (member.relocate move).type.kind = member.type.kind := rfl
  have sameVoid : (member.relocate move).type.isVoid = member.type.isVoid := rfl
  rw [memberTypeFindings, memberTypeFindings, sameKind, sameVoid]
  cases member.type.kind with
  | stream => rfl
  | scalar =>
    dsimp only
    rw [apply_ite (List.map _)]
    rfl
  | messageReference => exact undefinedType_relocate move schema _ member.type

theorem memberFindings_relocate (message : String) (earlier : List String)
    (members : List Member) :
    (schema.relocate move).memberFindings message earlier (members.map (Member.relocate move)) =
      (schema.memberFindings message earlier members).map (Finding.relocate move) := by
  induction members generalizing earlier with
  | nil => rfl
  | cons member rest inductionHypothesis =>
    rw [List.map_cons, memberFindings, memberFindings, List.map_append, List.map_append,
      memberTypeFindings_relocate, ← inductionHypothesis, apply_ite (List.map _)]
    rfl

theorem parameterFindings_relocate (service method : String) (sole streaming : Bool)
    (types : List TypeReference) :
    (schema.relocate move).parameterFindings service method sole streaming
        (types.map (TypeReference.relocate move)) =
      (schema.parameterFindings service method sole streaming types).map
        (Finding.relocate move) := by
  induction types generalizing streaming with
  | nil => rfl
  | cons type rest inductionHypothesis =>
    have sameKind : (type.relocate move).kind = type.kind := rfl
    have sameVoid : (type.relocate move).isVoid = type.isVoid := rfl
    rw [List.map_cons, parameterFindings, parameterFindings, sameKind, sameVoid]
    cases type.kind with
    | scalar =>
      simp only [List.map_append, apply_ite (List.map (Finding.relocate move)),
        inductionHypothesis]
      rfl
    | stream =>
      simp only [List.map_append, apply_ite (List.map (Finding.relocate move)),
        inductionHypothesis]
      rfl
    | messageReference =>
      simp only [List.map_append, undefinedType_relocate, inductionHypothesis]

theorem methodTypeFindings_relocate (service : String) (method : Method) :
    (schema.relocate move).methodTypeFindings service (method.relocate move) =
      (schema.methodTypeFindings service method).map (Finding.relocate move) := by
  have sameLength : (method.relocate move).requests.length = method.requests.length :=
    List.length_map _
  rw [methodTypeFindings, methodTypeFindings, List.map_append, sameLength]
  exact congrArg₂ (· ++ ·) (undefinedType_relocate move schema _ method.response)
    (parameterFindings_relocate move schema service method.name _ false method.requests)

theorem methodFindings_relocate (service : String) (earlier : List String)
    (methods : List Method) :
    (schema.relocate move).methodFindings service earlier (methods.map (Method.relocate move)) =
      (schema.methodFindings service earlier methods).map (Finding.relocate move) := by
  induction methods generalizing earlier with
  | nil => rfl
  | cons method rest inductionHypothesis =>
    rw [List.map_cons, methodFindings, methodFindings, List.map_append, List.map_append,
      methodTypeFindings_relocate, ← inductionHypothesis, apply_ite (List.map _)]
    rfl

/-- What is wrong with a schema does not depend on where it stands. -/
theorem findings_relocate :
    (schema.relocate move).findings = schema.findings.map (Finding.relocate move) := by
  rw [findings, findings, List.map_append, List.map_flatMap, List.map_flatMap]
  refine congrArg₂ (· ++ ·) ?_ ?_
  · rw [relocate, SymbolTable.values_map, List.flatMap_map]
    exact List.flatMap_congr fun message _ =>
      memberFindings_relocate move schema message.name [] message.members
  · rw [relocate, SymbolTable.values_map, List.flatMap_map]
    exact List.flatMap_congr fun service _ =>
      methodFindings_relocate move schema service.name [] service.methods

end Schema

/-! ### Clearing `void` -/

theorem Method.clearVoid_relocate (method : Method) :
    (method.relocate move).clearVoid = method.clearVoid.relocate move := by
  obtain ⟨name, requests, response, span, owner⟩ := method
  cases requests with
  | nil => rfl
  | cons type rest =>
    cases rest with
    | nil =>
      have sameVoid : (type.relocate move).isVoid = type.isVoid := rfl
      simp only [relocate, clearVoid, List.map_cons, List.map_nil, sameVoid]
      split <;> rfl
    | cons second others => rfl

theorem Service.clearVoid_relocate (service : Service) :
    (service.relocate move).clearVoid = service.clearVoid.relocate move := by
  rw [Service.clearVoid, Service.clearVoid, Service.relocate, Service.relocate, List.map_map,
    List.map_map]
  refine congrArg (Service.mk _ · _) (List.map_congr_left fun method _ => ?_)
  exact method.clearVoid_relocate move

theorem Schema.clearVoid_relocate (schema : Schema) :
    (schema.relocate move).clearVoid = schema.clearVoid.relocate move := by
  rw [Schema.clearVoid, Schema.clearVoid, Schema.relocate, Schema.relocate, SymbolTable.map_map,
    SymbolTable.map_map]
  refine congrArg (Schema.mk _ ·) (congrArg (SymbolTable.map · _) (funext fun service => ?_))
  exact service.clearVoid_relocate move

/-! ### Likeness -/

theorem Message.unplaced_relocate (message : Message) :
    (message.relocate move).unplaced = message.unplaced := by
  rw [Message.unplaced, Message.unplaced, Message.relocate, List.map_map]
  rfl

theorem Method.unplaced_relocate (method : Method) :
    (method.relocate move).unplaced = method.unplaced := by
  rw [Method.unplaced, Method.unplaced, Method.relocate, List.map_map]
  rfl

theorem Service.unplaced_relocate (service : Service) :
    (service.relocate move).unplaced = service.unplaced := by
  rw [Service.unplaced, Service.unplaced, Service.relocate, List.map_map]
  refine congrArg (Service.mk _ · _) (List.map_congr_left fun method _ => ?_)
  exact method.unplaced_relocate move

theorem SymbolTable.alikeBy_map {Value : Type} {alike : Value → Value → Bool}
    {change : Value → Value} (table : SymbolTable Value)
    (same : ∀ value, alike value (change value) = true) :
    table.alikeBy alike (table.map change) = true := by
  rw [alikeBy, Bool.and_eq_true]
  constructor
  · rw [size, size, beq_iff_eq]
    exact (List.length_map _).symm
  · refine List.all_eq_true.mpr fun entry member => ?_
    have found : table.get? entry.1 = some entry.2 := get?_eq_some_iff.mpr member
    rw [get?_map, found]
    exact same entry.2

/-- A schema that is moved declares the same things. -/
theorem Schema.alike_relocate (schema : Schema) : schema.alike (schema.relocate move) = true := by
  rw [Schema.alike, Bool.and_eq_true]
  exact ⟨SymbolTable.alikeBy_map _ fun message =>
      beq_iff_eq.mpr (message.unplaced_relocate move).symm,
    SymbolTable.alikeBy_map _ fun service => beq_iff_eq.mpr (service.unplaced_relocate move).symm⟩

end Idl
