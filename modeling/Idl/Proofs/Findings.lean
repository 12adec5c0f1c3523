/-
This file lists what is reported of a schema place by place. The search for findings goes
through members, methods and parameters once and carries along what it has seen: the
names that came before, or whether a stream did. Here each place is judged on its own, by
the rules and by what stands before it, and the reports of all places in order are shown
to be exactly what the search reports. So every broken rule is reported once, where it is
broken, and nothing else is.
-/

import Idl.Proofs.Rules

namespace Idl

/-! ### Going through a list -/

/-- A search that goes through a list and knows what stands before each entry says of each entry
what can be said of it and of the entries before it. -/
theorem search_eq_flatMap_zipIdx {State Entry Report : Type}
    (search : State → List Entry → List Report) (reports : List Entry → Entry → List Report)
    (Knows : State → List Entry → Prop) (nil : ∀ state, search state [] = [])
    (cons : ∀ {state : State} {before : List Entry} (entry : Entry) (rest : List Entry),
      Knows state before → ∃ later, Knows later (before ++ [entry]) ∧
        search state (entry :: rest) = reports before entry ++ search later rest)
    {state : State} {before : List Entry} (knows : Knows state before) (entries : List Entry) :
    search state entries = (entries.zipIdx before.length).flatMap fun place =>
      reports ((before ++ entries).take place.2) place.1 := by
  induction entries generalizing state before with
  | nil => exact nil state
  | cons entry rest inductionHypothesis =>
    obtain ⟨later, knowsLater, step⟩ := cons entry rest knows
    rw [step, inductionHypothesis knowsLater, List.zipIdx_cons, List.flatMap_cons,
      List.take_left, List.length_append, List.length_singleton, List.append_assoc,
      List.singleton_append]

/-- The violation, if the rule is broken. -/
def reportIf (broken : Prop) [Decidable broken] (violation : Violation) : List Violation :=
  if broken then [violation] else []

theorem reportIf_of {broken : Prop} [Decidable broken] (holds : broken) (violation : Violation) :
    reportIf broken violation = [violation] := if_pos holds

theorem reportIf_of_not {broken : Prop} [Decidable broken] (fails : ¬ broken)
    (violation : Violation) : reportIf broken violation = [] := if_neg fails

theorem map_violation_ite (source : Source) {broken : Prop} [Decidable broken] {found : Bool}
    (same : found = true ↔ broken) (finding : Finding) :
    (if found then [finding] else []).map (Finding.violation source) =
      reportIf broken (finding.violation source) := by
  by_cases holds : broken
  · rw [reportIf_of holds, same.mpr holds]
    rfl
  · rw [reportIf_of_not holds, Bool.eq_false_iff.mpr fun shown => holds (same.mp shown)]
    rfl

namespace Schema

/-! ### What is reported of one place -/

/-- The type refers to a message that the schema does not have. -/
def Unknown (schema : Schema) (type : TypeReference) : Prop :=
  type.kind = .messageReference ∧ type.name ∉ schema.messages.keys

instance (schema : Schema) (type : TypeReference) : Decidable (schema.Unknown type) :=
  inferInstanceAs (Decidable (_ ∧ _))

/-- What is reported of a member of a message, given the members before it. -/
def memberReports (schema : Schema) (source : Source) (message : Message)
    (before : List Member) (member : Member) : List Violation :=
  reportIf (∃ earlier ∈ before, earlier.name = member.name)
    ⟨.duplicateMember, source.diagnostic
      (Problem.repeatedMember member.name message.name).message member.span⟩ ++
  (reportIf (member.type.kind = .stream)
    ⟨.streamMember, source.diagnostic
      (Problem.streamMember member.type.name member.name message.name).message
      member.type.span⟩ ++
  (reportIf (member.type.name = "void")
    ⟨.misplacedVoid, source.diagnostic
      (Problem.voidMember member.name message.name).message member.type.span⟩ ++
  reportIf (schema.Unknown member.type)
    ⟨.undefinedType, source.diagnostic
      (Problem.undefinedType member.type.name (.message message.name)).message
      member.type.span⟩))

/-- What is reported of a parameter of a method, given the parameters before it. -/
def parameterReports (schema : Schema) (source : Source) (service : Service) (method : Method)
    (before : List TypeReference) (type : TypeReference) : List Violation :=
  reportIf (type.name = "void" ∧ 1 < method.requests.length)
    ⟨.misplacedVoid, source.diagnostic
      (Problem.voidParameter service.name method.name).message type.span⟩ ++
  (reportIf (type.kind = .stream ∧ ∃ earlier ∈ before, earlier.kind = .stream)
    ⟨.multipleStreams, source.diagnostic
      (Problem.secondStream service.name method.name).message type.span⟩ ++
  reportIf (schema.Unknown type)
    ⟨.undefinedType, source.diagnostic
      (Problem.undefinedType type.name (.method service.name method.name)).message type.span⟩)

/-- What is reported of a method of a service, given the methods before it. -/
def methodReports (schema : Schema) (source : Source) (service : Service)
    (before : List Method) (method : Method) : List Violation :=
  reportIf (∃ earlier ∈ before, earlier.name = method.name)
    ⟨.duplicateMethod, source.diagnostic
      (Problem.repeatedMethod method.name service.name).message method.span⟩ ++
  (reportIf (schema.Unknown method.response)
    ⟨.undefinedType, source.diagnostic
      (Problem.undefinedType method.response.name (.method service.name method.name)).message
      method.response.span⟩ ++
  method.requests.zipIdx.flatMap fun place =>
    schema.parameterReports source service method (method.requests.take place.2) place.1)

/-- What is reported of a schema: place by place, messages first. -/
def reports (schema : Schema) (source : Source) : List Violation :=
  (schema.messages.values.flatMap fun message =>
    message.members.zipIdx.flatMap fun place =>
      schema.memberReports source message (message.members.take place.2) place.1) ++
  schema.services.values.flatMap fun service =>
    service.methods.zipIdx.flatMap fun place =>
      schema.methodReports source service (service.methods.take place.2) place.1

/-! ### The search reports each place -/

variable {schema : Schema} {source : Source}

theorem not_unknown_iff {type : TypeReference} :
    ¬ schema.Unknown type ↔ type.DefinedIn schema := by
  rw [Unknown, TypeReference.DefinedIn, SymbolTable.contains_iff_mem]
  exact ⟨fun known reference => of_not_not fun absent => known ⟨reference, absent⟩,
    fun defined unknown => unknown.2 (defined unknown.1)⟩

theorem not_unknown_of_kind {type : TypeReference} {kind : TypeKind} (same : type.kind = kind)
    (builtin : kind ≠ .messageReference) : ¬ schema.Unknown type :=
  not_unknown_iff.mpr (TypeReference.definedIn_of_kind schema same builtin)

theorem name_eq_void_iff {type : TypeReference} : type.name = "void" ↔ type.isVoid = true :=
  beq_iff_eq.symm

theorem name_ne_void_of_kind {type : TypeReference} {kind : TypeKind} (same : type.kind = kind)
    (other : kind ≠ .scalar) : type.name ≠ "void" := fun void =>
  other (same.symm.trans (TypeReference.kind_of_isVoid (name_eq_void_iff.mp void)))

theorem map_violation_undefinedType {context : Context} {type : TypeReference} :
    (schema.undefinedType context type).map (Finding.violation source) =
      reportIf (schema.Unknown type)
        ⟨.undefinedType, source.diagnostic (Problem.undefinedType type.name context).message
          type.span⟩ := by
  refine map_violation_ite source ?_ ⟨.undefinedType type.name context, type.span⟩
  rw [Bool.and_eq_true, beq_iff_eq, Bool.not_eq_true', ← Bool.not_eq_true,
    SymbolTable.contains_iff_mem, Unknown]

theorem memberReports_eq (message : Message) (before : List Member) (member : Member) :
    schema.memberReports source message before member =
      reportIf (∃ earlier ∈ before, earlier.name = member.name)
        ⟨.duplicateMember, source.diagnostic
          (Problem.repeatedMember member.name message.name).message member.span⟩ ++
      (schema.memberTypeFindings message.name member).map (Finding.violation source) := by
  rw [memberReports, memberTypeFindings]
  refine congrArg (List.append _) ?_
  cases kind : member.type.kind with
  | stream =>
    rw [reportIf_of rfl, reportIf_of_not (name_ne_void_of_kind kind (by decide)),
      reportIf_of_not (not_unknown_of_kind kind (by decide))]
    rfl
  | scalar =>
    rw [reportIf_of_not (by decide), reportIf_of_not (not_unknown_of_kind kind (by decide)),
      List.append_nil, List.nil_append]
    exact (map_violation_ite source name_eq_void_iff.symm
      ⟨.voidMember member.name message.name, member.type.span⟩).symm
  | messageReference =>
    rw [reportIf_of_not (by decide), reportIf_of_not (name_ne_void_of_kind kind (by decide))]
    exact map_violation_undefinedType.symm

/-- The names that are carried along are those of the entries before. -/
def KnowsNames {Entry : Type} (name : Entry → String) (names : List String)
    (before : List Entry) : Prop :=
  ∀ other, other ∈ names ↔ ∃ earlier ∈ before, name earlier = other

theorem KnowsNames.cons {Entry : Type} {name : Entry → String} {names : List String}
    {before : List Entry} (knows : KnowsNames name names before) (entry : Entry) :
    KnowsNames name (name entry :: names) (before ++ [entry]) := by
  intro other
  rw [List.mem_cons, knows other]
  constructor
  · rintro (same | ⟨earlier, member, same⟩)
    · exact ⟨entry, List.mem_append_right _ (List.mem_singleton_self entry), same.symm⟩
    · exact ⟨earlier, List.mem_append_left _ member, same⟩
  · rintro ⟨earlier, member, same⟩
    rcases List.mem_append.mp member with inBefore | last
    · exact Or.inr ⟨earlier, inBefore, same⟩
    · exact Or.inl (same.symm.trans (congrArg name (List.mem_singleton.mp last)))

theorem map_violation_messageFindings (message : Message) :
    (schema.messageFindings message).map (Finding.violation source) =
      message.members.zipIdx.flatMap fun place =>
        schema.memberReports source message (message.members.take place.2) place.1 := by
  have knowsNone : KnowsNames Member.name [] [] := fun _ => by simp
  refine search_eq_flatMap_zipIdx
    (fun names members =>
      (schema.memberFindings message.name names members).map (Finding.violation source))
    (schema.memberReports source message) (KnowsNames Member.name) (fun _ => rfl) ?_ knowsNone
    message.members
  intro names before member rest knows
  refine ⟨member.name :: names, knows.cons member, ?_⟩
  rw [memberFindings, List.map_append, List.map_append, memberReports_eq,
    List.append_assoc,
    map_violation_ite source (List.contains_iff_mem.trans (knows member.name))]
  rfl

/-- It is known whether a stream is among the parameters before. -/
def KnowsStream (streaming : Bool) (before : List TypeReference) : Prop :=
  streaming = true ↔ ∃ earlier ∈ before, earlier.kind = .stream

theorem knowsStream_append_of_stream {before : List TypeReference} {type : TypeReference}
    (stream : type.kind = .stream) : KnowsStream true (before ++ [type]) :=
  iff_of_true rfl ⟨type, List.mem_append_right _ (List.mem_singleton_self type), stream⟩

theorem KnowsStream.append_of_ne_stream {streaming : Bool} {before : List TypeReference}
    {type : TypeReference} (knows : KnowsStream streaming before)
    (other : type.kind ≠ .stream) : KnowsStream streaming (before ++ [type]) := by
  refine knows.trans ⟨?_, ?_⟩
  · rintro ⟨earlier, member, stream⟩
    exact ⟨earlier, List.mem_append_left _ member, stream⟩
  · rintro ⟨earlier, member, stream⟩
    rcases List.mem_append.mp member with inBefore | last
    · exact ⟨earlier, inBefore, stream⟩
    · exact absurd (List.mem_singleton.mp last ▸ stream) other

/-- One step of the search through the parameters of a method: what is found at the first one is
what is reported of it, and it is known whether a stream has come by then. -/
theorem exists_parameterReports_append (service : Service) {method : Method}
    (some : method.requests ≠ []) {streaming : Bool} {before : List TypeReference}
    (knows : KnowsStream streaming before) (type : TypeReference) (rest : List TypeReference) :
    ∃ later, KnowsStream later (before ++ [type]) ∧
      (schema.parameterFindings service.name method.name (method.requests.length == 1) streaming
          (type :: rest)).map (Finding.violation source) =
        schema.parameterReports source service method before type ++
          (schema.parameterFindings service.name method.name (method.requests.length == 1) later
            rest).map (Finding.violation source) := by
  rw [parameterFindings, parameterReports]
  -- The search picks its rule by the kind of the type; the other reports are ruled out by it.
  cases kind : type.kind with
  | stream =>
    have known : ¬ schema.Unknown type := not_unknown_of_kind kind (by decide)
    have noVoid : ¬ (type.name = "void" ∧ 1 < method.requests.length) :=
      fun both => name_ne_void_of_kind kind (by decide) both.1
    refine ⟨true, knowsStream_append_of_stream kind, ?_⟩
    rw [reportIf_of_not noVoid, reportIf_of_not known, List.nil_append, List.append_nil,
      List.map_append]
    refine congrArg (· ++ _) ?_
    exact map_violation_ite source (knows.trans (iff_and_self.mpr fun _ => rfl))
      ⟨.secondStream service.name method.name, type.span⟩
  | scalar =>
    have known : ¬ schema.Unknown type := not_unknown_of_kind kind (by decide)
    have noStream : ¬ (TypeKind.scalar = .stream ∧ ∃ earlier ∈ before, earlier.kind = .stream) :=
      fun both => absurd both.1 (by decide)
    have several : (!method.requests.length == 1) = true ↔ 1 < method.requests.length := by
      have positive := List.length_pos_of_ne_nil some
      rw [Bool.not_eq_true', beq_eq_false_iff_ne]
      omega
    refine ⟨streaming, knows.append_of_ne_stream (by rw [kind]; decide), ?_⟩
    rw [reportIf_of_not known, reportIf_of_not noStream, List.append_nil, List.append_nil,
      List.map_append]
    refine congrArg (· ++ _) ?_
    refine map_violation_ite source ?_ ⟨.voidParameter service.name method.name, type.span⟩
    rw [Bool.and_eq_true, name_eq_void_iff, several]
  | messageReference =>
    have noVoid : ¬ (type.name = "void" ∧ 1 < method.requests.length) :=
      fun both => name_ne_void_of_kind kind (by decide) both.1
    have noStream : ¬ (TypeKind.messageReference = .stream ∧
        ∃ earlier ∈ before, earlier.kind = .stream) := fun both => absurd both.1 (by decide)
    refine ⟨streaming, knows.append_of_ne_stream (by rw [kind]; decide), ?_⟩
    rw [reportIf_of_not noVoid, reportIf_of_not noStream, List.nil_append, List.nil_append,
      List.map_append, map_violation_undefinedType]

theorem map_violation_parameterFindings (service : Service) (method : Method) :
    (schema.parameterFindings service.name method.name (method.requests.length == 1) false
        method.requests).map (Finding.violation source) =
      method.requests.zipIdx.flatMap fun place =>
        schema.parameterReports source service method (method.requests.take place.2) place.1 := by
  by_cases none : method.requests = []
  · rw [none]
    rfl
  · have knowsNone : KnowsStream false [] := by simp [KnowsStream]
    exact search_eq_flatMap_zipIdx
      (fun streaming types => (schema.parameterFindings service.name method.name
        (method.requests.length == 1) streaming types).map (Finding.violation source))
      (schema.parameterReports source service method) KnowsStream (fun _ => rfl)
      (fun type rest knows => exists_parameterReports_append service none knows type rest)
      knowsNone method.requests

theorem map_violation_serviceFindings (service : Service) :
    (schema.serviceFindings service).map (Finding.violation source) =
      service.methods.zipIdx.flatMap fun place =>
        schema.methodReports source service (service.methods.take place.2) place.1 := by
  have knowsNone : KnowsNames Method.name [] [] := fun _ => by simp
  refine search_eq_flatMap_zipIdx
    (fun names methods =>
      (schema.methodFindings service.name names methods).map (Finding.violation source))
    (schema.methodReports source service) (KnowsNames Method.name) (fun _ => rfl) ?_ knowsNone
    service.methods
  intro names before method rest knows
  refine ⟨method.name :: names, knows.cons method, ?_⟩
  rw [methodFindings, List.map_append, List.map_append, methodTypeFindings, List.map_append,
    map_violation_undefinedType, map_violation_parameterFindings, methodReports,
    map_violation_ite source (List.contains_iff_mem.trans (knows method.name))]
  simp only [List.append_assoc]
  rfl

/-! ### Schemas that keep the rules -/

/-- The rules of the language, each of a schema as a whole. -/
structure KeepsRules (schema : Schema) : Prop where
  distinctMembers : ∀ message ∈ schema.messages.values, (message.members.map Member.name).Nodup
  distinctMethods : ∀ service ∈ schema.services.values, (service.methods.map Method.name).Nodup
  noStreamMember : ∀ message ∈ schema.messages.values, ∀ member ∈ message.members,
    member.type.kind ≠ .stream
  noVoidMember : ∀ message ∈ schema.messages.values, ∀ member ∈ message.members,
    member.type.name ≠ "void"
  knownMembers : ∀ message ∈ schema.messages.values, ∀ member ∈ message.members,
    ¬ schema.Unknown member.type
  voidAlone : ∀ method ∈ schema.methods, ∀ type ∈ method.requests, type.name = "void" →
    method.requests = [type]
  oneStream : ∀ method ∈ schema.methods, (streamsOf method.requests).length ≤ 1
  knownRequests : ∀ method ∈ schema.methods, ∀ type ∈ method.requests, ¬ schema.Unknown type
  knownResponses : ∀ method ∈ schema.methods, ¬ schema.Unknown method.response

theorem voidAlone_iff {types : List TypeReference} :
    (types.length ≠ 1 → ∀ type ∈ types, type.isVoid = false) ↔
      ∀ type ∈ types, type.name = "void" → types = [type] := by
  constructor
  · intro several type member void
    have single : types.length = 1 := of_not_not fun other =>
      Bool.eq_false_iff.mp (several other type member) (name_eq_void_iff.mp void)
    obtain ⟨only, rfl⟩ := List.length_eq_one_iff.mp single
    rw [List.mem_singleton.mp member]
  · intro alone several type member
    refine Bool.eq_false_iff.mpr fun void => several ?_
    rw [alone type member (name_eq_void_iff.mpr void), List.length_singleton]

theorem mem_methods {method : Method} :
    method ∈ schema.methods ↔ ∃ service ∈ schema.services.values, method ∈ service.methods :=
  List.mem_flatMap

theorem keepsRules_iff_findings : schema.KeepsRules ↔ schema.findings = [] := by
  rw [findings_eq_nil_iff]
  constructor
  · intro keeps
    refine ⟨fun message inMessages => ?_, fun service inServices => ?_⟩
    · refine memberFindings_eq_nil_iff.mpr
        ⟨⟨keeps.distinctMembers message inMessages, nofun⟩, fun member inMembers => ?_⟩
      exact memberTypeFindings_eq_nil_iff.mpr
        ⟨keeps.noStreamMember message inMessages member inMembers,
          Bool.eq_false_iff.mpr fun void =>
            keeps.noVoidMember message inMessages member inMembers (name_eq_void_iff.mpr void),
          not_unknown_iff.mp (keeps.knownMembers message inMessages member inMembers)⟩
    · refine methodFindings_eq_nil_iff.mpr
        ⟨⟨keeps.distinctMethods service inServices, nofun⟩, fun method inMethods => ?_⟩
      have inSchema : method ∈ schema.methods := mem_methods.mpr ⟨service, inServices, inMethods⟩
      exact methodTypeFindings_eq_nil_iff.mpr
        ⟨not_unknown_iff.mp (keeps.knownResponses method inSchema),
          voidAlone_iff.mpr (keeps.voidAlone method inSchema), keeps.oneStream method inSchema,
          fun type member => not_unknown_iff.mp (keeps.knownRequests method inSchema type member)⟩
  · rintro ⟨messages, services⟩
    have members := fun message inMessages =>
      memberFindings_eq_nil_iff.mp (messages message inMessages)
    have types := fun message inMessages member inMembers =>
      memberTypeFindings_eq_nil_iff.mp ((members message inMessages).2 member inMembers)
    have methods : ∀ method ∈ schema.methods, method.response.DefinedIn schema ∧
        (method.requests.length ≠ 1 → ∀ type ∈ method.requests, type.isVoid = false) ∧
        (streamsOf method.requests).length ≤ 1 ∧
        ∀ type ∈ method.requests, type.DefinedIn schema := by
      intro method inSchema
      obtain ⟨service, inServices, inMethods⟩ := mem_methods.mp inSchema
      exact methodTypeFindings_eq_nil_iff.mp
        ((methodFindings_eq_nil_iff.mp (services service inServices)).2 method inMethods)
    exact {
      distinctMembers := fun message inMessages => (members message inMessages).1.1
      distinctMethods := fun service inServices =>
        (methodFindings_eq_nil_iff.mp (services service inServices)).1.1
      noStreamMember := fun message inMessages member inMembers =>
        (types message inMessages member inMembers).1
      noVoidMember := fun message inMessages member inMembers void =>
        Bool.eq_false_iff.mp (types message inMessages member inMembers).2.1
          (name_eq_void_iff.mp void)
      knownMembers := fun message inMessages member inMembers =>
        not_unknown_iff.mpr (types message inMessages member inMembers).2.2
      voidAlone := fun method inSchema => voidAlone_iff.mp (methods method inSchema).2.1
      oneStream := fun method inSchema => (methods method inSchema).2.2.1
      knownRequests := fun method inSchema type member =>
        not_unknown_iff.mpr ((methods method inSchema).2.2.2 type member)
      knownResponses := fun method inSchema => not_unknown_iff.mpr (methods method inSchema).1 }

/-- All that is reported of the places of a schema is found by going through it. -/
theorem violations_eq (schema : Schema) (source : Source) :
    schema.violations source = schema.reports source := by
  rw [violations, findings, List.map_append, List.map_flatMap, List.map_flatMap, reports]
  simp only [map_violation_messageFindings, map_violation_serviceFindings]

/-- The violations of a schema are the reports of its places, in order, and there are none just
where the schema keeps the rules. -/
theorem violations_eq_reports (schema : Schema) (source : Source) :
    schema.violations source = schema.reports source ∧
      (schema.violations source = [] ↔ schema.KeepsRules) := by
  refine ⟨violations_eq schema source, ?_⟩
  rw [violations, List.map_eq_nil_iff, keepsRules_iff_findings]

end Schema

end Idl
