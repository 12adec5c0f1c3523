/-
This file says what one more declaration changes in what is found wrong. A schema is only
ever asked which keys its messages have, so a new message does one thing for what is
declared already: the types that were waiting for a message of its name have found it.
Whatever else was reported is reported as before and in the same order. A new service
does nothing for the rest, because no type refers to a service.
-/

import Idl.Proofs.JsonText
import Idl.Proofs.Likeness

namespace Idl

/-! ### Missing names -/

/-- The same words with two names in quotes begin alike only if the names are the same. -/
theorem Text.isPrefix_quote_iff {words name other gap rest : String} :
    (words ++ quote name ++ gap).toList <+: (words ++ quote other ++ gap ++ rest).toList ↔
      other = name := by
  simp only [quote, String.toList_append, String.toList_ofList, List.append_assoc,
    List.prefix_append_right_inj]
  constructor
  · rintro ⟨behind, same⟩
    rw [List.append_assoc] at same
    exact (String.toList_inj.mp (quoted_append_inj same).1).symm
  · rintro rfl
    rw [List.prefix_append_right_inj]
    exact List.prefix_append _ _

/-- The finding is that no message has that name. -/
def Finding.misses (name : String) (finding : Finding) : Bool :=
  match finding.problem with
  | .undefinedType type _ => type == name
  | _ => false

/-- The violation is that no message has that name: a type of that name is said to be
undefined. -/
def Violation.Misses (name : String) (violation : Violation) : Prop :=
  violation.rule = .undefinedType ∧
    ("undefined type " ++ Text.quote name ++ " ").toList <+: violation.diagnostic.message.toList

instance (name : String) (violation : Violation) : Decidable (violation.Misses name) :=
  inferInstanceAs (Decidable (_ ∧ _))

/-- What is said about an undefined type begins with the words and the name of the type. -/
theorem isPrefix_undefinedType_iff {name type : String} {context : Context} :
    ("undefined type " ++ Text.quote name ++ " ").toList <+:
        (Problem.undefinedType type context).message.toList ↔ type = name :=
  Text.isPrefix_quote_iff

theorem Finding.misses_iff {name : String} {finding : Finding} :
    finding.misses name = true ↔ ∃ context, finding.problem = .undefinedType name context := by
  obtain ⟨problem, span⟩ := finding
  cases problem with
  | undefinedType type context => simp [misses]
  | _ => simp [misses]

/-- A violation misses a name just where it says that a type of this name is undefined. -/
theorem misses_violation_iff {name : String} {source : Source} {finding : Finding} :
    (finding.violation source).Misses name ↔
      ∃ context, finding.problem = .undefinedType name context := by
  obtain ⟨problem, span⟩ := finding
  cases problem with
  | undefinedType type context =>
    refine (and_iff_right rfl).trans (isPrefix_undefinedType_iff.trans ?_)
    simp
  | _ =>
    exact ⟨fun missed => absurd missed.1 (by simp [Finding.violation, Problem.rule]), nofun⟩

namespace Schema

variable {schema after : Schema} {name : String}

/-! ### One more key -/

section Grown

variable (grown : ∀ key, after.messages.contains key = (schema.messages.contains key || key == name))

include grown

/-- A type that was missing a message of the new name is no longer reported. -/
theorem undefinedType_grown (context : Context) (type : TypeReference) :
    after.undefinedType context type =
      (schema.undefinedType context type).filter fun finding => !finding.misses name := by
  rw [undefinedType, undefinedType, grown]
  by_cases same : type.name = name
  · cases type.kind <;> cases schema.messages.contains type.name <;> simp [same, Finding.misses]
  · cases type.kind <;> cases schema.messages.contains type.name <;> simp [same, Finding.misses]

theorem memberTypeFindings_grown (message : String) (member : Member) :
    after.memberTypeFindings message member =
      (schema.memberTypeFindings message member).filter fun finding => !finding.misses name := by
  rw [memberTypeFindings, memberTypeFindings]
  cases member.type.kind with
  | stream => rfl
  | scalar => cases member.type.isVoid <;> rfl
  | messageReference => exact undefinedType_grown grown _ _

theorem memberFindings_grown (message : String) (earlier : List String) (members : List Member) :
    after.memberFindings message earlier members =
      (schema.memberFindings message earlier members).filter
        fun finding => !finding.misses name := by
  induction members generalizing earlier with
  | nil => rfl
  | cons member rest inductionHypothesis =>
    rw [memberFindings, memberFindings, List.filter_append, List.filter_append,
      memberTypeFindings_grown grown, inductionHypothesis]
    refine congrArg (· ++ _) ?_
    cases earlier.contains member.name <;> rfl

theorem parameterFindings_grown (service method : String) (sole streaming : Bool)
    (types : List TypeReference) :
    after.parameterFindings service method sole streaming types =
      (schema.parameterFindings service method sole streaming types).filter
        fun finding => !finding.misses name := by
  induction types generalizing streaming with
  | nil => rfl
  | cons type rest inductionHypothesis =>
    simp only [parameterFindings, inductionHypothesis]
    cases type.kind with
    | stream =>
      rw [List.filter_append]
      cases streaming <;> rfl
    | scalar =>
      rw [List.filter_append]
      cases type.isVoid && !sole <;> rfl
    | messageReference => rw [List.filter_append, undefinedType_grown grown]

theorem methodFindings_grown (service : String) (earlier : List String) (methods : List Method) :
    after.methodFindings service earlier methods =
      (schema.methodFindings service earlier methods).filter
        fun finding => !finding.misses name := by
  induction methods generalizing earlier with
  | nil => rfl
  | cons method rest inductionHypothesis =>
    rw [methodFindings, methodFindings, methodTypeFindings, methodTypeFindings,
      List.filter_append, List.filter_append, List.filter_append, inductionHypothesis,
      undefinedType_grown grown, parameterFindings_grown grown]
    refine congrArg (· ++ _) ?_
    cases earlier.contains method.name <;> rfl

end Grown

/-! ### What is reported of a declaration -/

/-- What is reported of a message, which need not be one of the schema. -/
def messageViolations (schema : Schema) (source : Source) (message : Message) : List Violation :=
  (schema.messageFindings message).map (Finding.violation source)

/-- What is reported of a service, which need not be one of the schema. -/
def serviceViolations (schema : Schema) (source : Source) (service : Service) : List Violation :=
  (schema.serviceFindings service).map (Finding.violation source)

/-- The violations that are left when a message of that name is there. -/
def foundOnce (name : String) (violations : List Violation) : List Violation :=
  violations.filter fun violation => ¬ violation.Misses name

theorem violations_eq_append (schema : Schema) (source : Source) :
    schema.violations source =
      schema.messages.values.flatMap (schema.messageViolations source) ++
        schema.services.values.flatMap (schema.serviceViolations source) := by
  rw [violations, findings, List.map_append, List.map_flatMap, List.map_flatMap]
  rfl

theorem map_violation_filter (source : Source) (findings : List Finding) :
    (findings.filter fun finding => !finding.misses name).map (Finding.violation source) =
      foundOnce name (findings.map (Finding.violation source)) := by
  rw [foundOnce, List.filter_map]
  refine congrArg (List.map _) (List.filter_congr fun finding _ => ?_)
  rw [Function.comp_apply, Bool.eq_iff_iff, decide_eq_true_iff, misses_violation_iff,
    ← Finding.misses_iff, Bool.not_eq_true', Bool.not_eq_true]

theorem foundOnce_flatMap {Entry : Type} (reports : Entry → List Violation)
    (entries : List Entry) :
    entries.flatMap (fun entry => foundOnce name (reports entry)) =
      foundOnce name (entries.flatMap reports) := by
  rw [foundOnce, List.filter_flatMap]
  rfl

/-! ### One more declaration -/

variable {message : Message} {service : Service}

theorem insertMessage_eq (fresh : message.name ∉ schema.messages.keys) :
    ∃ after, schema.insertMessage message = .ok after ∧
      after.messages.values = schema.messages.values ++ [message] ∧
      after.services = schema.services ∧
      ∀ key, after.messages.contains key =
        (schema.messages.contains key || key == message.name) := by
  have free : schema.messages.contains message.name = false :=
    Bool.eq_false_iff.mpr fun taken => fresh (SymbolTable.contains_iff_mem.mp taken)
  exact ⟨_, dif_pos free, SymbolTable.values_insert free, rfl, SymbolTable.contains_insert free⟩

theorem insertService_eq (fresh : service.name ∉ schema.services.keys) :
    ∃ after, schema.insertService service = .ok after ∧ after.messages = schema.messages ∧
      after.services.values = schema.services.values ++ [service] := by
  have free : schema.services.contains service.name = false :=
    Bool.eq_false_iff.mpr fun taken => fresh (SymbolTable.contains_iff_mem.mp taken)
  exact ⟨_, dif_pos free, rfl, SymbolTable.values_insert free⟩

/-- A message with a new name takes away the reports that its name is missing, adds its own behind
those of the other messages, and leaves all others as they are. A service with a new name only
adds its own behind all others. So neither brings a report to what is declared already. -/
theorem declaring_changes_violations (schema : Schema) (source : Source) :
    schema.violations source =
      schema.messages.values.flatMap (schema.messageViolations source) ++
        schema.services.values.flatMap (schema.serviceViolations source) ∧
    (∀ name finding, (Finding.violation source finding).Misses name ↔
      ∃ context, finding.problem = .undefinedType name context) ∧
    (∀ message : Message, message.name ∉ schema.messages.keys →
      ∃ after, schema.insertMessage message = .ok after ∧
        after.violations source =
          foundOnce message.name
              (schema.messages.values.flatMap (schema.messageViolations source)) ++
            after.messageViolations source message ++
            foundOnce message.name
              (schema.services.values.flatMap (schema.serviceViolations source)) ∧
        (∀ other, after.messageViolations source other =
          foundOnce message.name (schema.messageViolations source other)) ∧
        (∀ service, after.serviceViolations source service =
          foundOnce message.name (schema.serviceViolations source service))) ∧
    (∀ service : Service, service.name ∉ schema.services.keys →
      ∃ after, schema.insertService service = .ok after ∧
        after.violations source =
          schema.violations source ++ after.serviceViolations source service ∧
        (∀ message, after.messageViolations source message =
          schema.messageViolations source message) ∧
        (∀ other, after.serviceViolations source other =
          schema.serviceViolations source other)) ∧
    ∀ name violations, (foundOnce name violations).Sublist violations := by
  refine ⟨violations_eq_append schema source, fun name finding => misses_violation_iff,
    fun message fresh => ?_, fun service fresh => ?_,
    fun name violations => List.filter_sublist⟩
  · obtain ⟨after, inserted, messages, services, grown⟩ := insertMessage_eq fresh
    have ofMessage : after.messageViolations source = fun other =>
        foundOnce message.name (schema.messageViolations source other) := by
      funext other
      rw [messageViolations, messageFindings, memberFindings_grown grown, map_violation_filter]
      rfl
    have ofService : after.serviceViolations source = fun service =>
        foundOnce message.name (schema.serviceViolations source service) := by
      funext service
      rw [serviceViolations, serviceFindings, methodFindings_grown grown, map_violation_filter]
      rfl
    refine ⟨after, inserted, ?_, congrFun ofMessage, congrFun ofService⟩
    rw [violations_eq_append, messages, services, List.flatMap_append, List.flatMap_singleton,
      ← foundOnce_flatMap, ← foundOnce_flatMap, ofMessage, ofService]
  · obtain ⟨after, inserted, messages, services⟩ := insertService_eq fresh
    have sameKeys : ∀ key, after.messages.contains key = schema.messages.contains key :=
      fun key => by rw [messages]
    have ofMessage : after.messageViolations source = schema.messageViolations source := by
      funext message
      exact congrArg (List.map _) (memberFindings_congr sameKeys message.name [] message.members)
    have ofService : after.serviceViolations source = schema.serviceViolations source := by
      funext other
      exact congrArg (List.map _) (methodFindings_congr sameKeys other.name [] other.methods)
    refine ⟨after, inserted, ?_, congrFun ofMessage, congrFun ofService⟩
    rw [violations_eq_append, violations_eq_append, messages, services, List.flatMap_append,
      List.flatMap_singleton, ofMessage, ofService, List.append_assoc]

/-- A message that repeats a member and has one of an unknown type, and a service that returns
another unknown type. -/
def outlineSchema : Schema where
  messages := ⟨[("Line", ⟨"Line", [⟨⟨"Point", .nowhere⟩, "end", .nowhere⟩,
    ⟨⟨"Tint", .nowhere⟩, "end", .nowhere⟩], .nowhere⟩)], List.nodup_singleton _⟩
  services := ⟨[("Plot", ⟨"Plot", [⟨"pick", [⟨"Point", .nowhere⟩], ⟨"Tint", .nowhere⟩, .nowhere,
    "Plot"⟩], .nowhere⟩)], List.nodup_singleton _⟩

/-- The message that is missing twice; it refers to a message that is missing as well. -/
def pointMessage : Message :=
  ⟨"Point", [⟨⟨"Grid", .nowhere⟩, "grid", .nowhere⟩, ⟨⟨"Line", .nowhere⟩, "axis", .nowhere⟩],
    .nowhere⟩

/-- The message takes away two of the five reports and adds one, between the others. -/
theorem pointMessage_declared :
    let source : Source := ⟨"plot.idl", [], [], #[], #[]⟩
    pointMessage.name ∉ outlineSchema.messages.keys ∧
      outlineSchema.findings.map Finding.problem =
        [.undefinedType "Point" (.message "Line"), .repeatedMember "end" "Line",
          .undefinedType "Tint" (.message "Line"), .undefinedType "Tint" (.method "Plot" "pick"),
          .undefinedType "Point" (.method "Plot" "pick")] ∧
      ∃ after, outlineSchema.insertMessage pointMessage = .ok after ∧
        after.violations source =
          foundOnce "Point"
              (outlineSchema.messages.values.flatMap (outlineSchema.messageViolations source)) ++
            after.messageViolations source pointMessage ++
            foundOnce "Point"
              (outlineSchema.services.values.flatMap (outlineSchema.serviceViolations source)) ∧
        after.findings.map Finding.problem =
          [.repeatedMember "end" "Line", .undefinedType "Tint" (.message "Line"),
            .undefinedType "Grid" (.message "Point"),
            .undefinedType "Tint" (.method "Plot" "pick")] := by
  intro source
  have fresh : pointMessage.name ∉ outlineSchema.messages.keys := by decide
  obtain ⟨after, inserted, listed, _⟩ :=
    (declaring_changes_violations outlineSchema source).2.2.1 pointMessage fresh
  refine ⟨fresh, by decide, after, inserted, listed, ?_⟩
  have found : (outlineSchema.insertMessage pointMessage).map
      (fun after => after.findings.map Finding.problem) =
        .ok [.repeatedMember "end" "Line", .undefinedType "Tint" (.message "Line"),
          .undefinedType "Grid" (.message "Point"),
          .undefinedType "Tint" (.method "Plot" "pick")] := by
    rfl
  rw [inserted] at found
  exact Except.ok.inj found

end Schema

end Idl
