/-
This file lists the words of a schema with their places: the names of declarations and
of their entries, and the types. Every word of a schema that is read is the text of a
token and stands where the token does, and everything that is found wrong with a schema
is about one of its words.
-/

import Idl.Proofs.Reading
import Idl.Violation

namespace Idl

/-! ### The words of a schema -/

/-- The type's name and its place. -/
def TypeReference.placed (type : TypeReference) : String × Span := (type.name, type.span)

/-- The names and the types of a message, with their places. -/
def Message.placedNames (message : Message) : List (String × Span) :=
  (message.name, message.span) ::
    message.members.flatMap fun member => [member.type.placed, (member.name, member.span)]

/-- The name and the types of a method, with their places. -/
def Method.placedNames (method : Method) : List (String × Span) :=
  method.response.placed :: (method.name, method.span) ::
    method.requests.map TypeReference.placed

/-- The names and the types of a service, with their places. -/
def Service.placedNames (service : Service) : List (String × Span) :=
  (service.name, service.span) :: service.methods.flatMap Method.placedNames

/-- All names and types of a schema, with their places. -/
def Schema.placedNames (schema : Schema) : List (String × Span) :=
  schema.messages.values.flatMap Message.placedNames ++
    schema.services.values.flatMap Service.placedNames

/-- The names and the types of a declaration, with their places. -/
def Declaration.placedNames : Declaration → List (String × Span)
  | .message declared => declared.placedNames
  | .service declared => declared.placedNames

/-! ### Every word is a token -/

namespace Grammar

variable {place : Token → Span} {tokens : List Token}

/-- The word is the text of one of the tokens, and it stands where the token does. -/
def PlacedBy (place : Token → Span) (tokens : List Token) (word : String × Span) : Prop :=
  ∃ token ∈ tokens, token.kind = .identifier ∧ word = (token.text, place token)

theorem PlacedBy.mono {some all : List Token} {word : String × Span}
    (placed : PlacedBy place some word) (among : some ⊆ all) : PlacedBy place all word := by
  obtain ⟨token, member, kind, same⟩ := placed
  exact ⟨token, among member, kind, same⟩

/-- Each of some entries is spelled by some of the tokens. -/
theorem SpellsEach.exists_of_mem {Entry : Type} {spells : List Token → Entry → Prop}
    {entries : List Entry} {entry : Entry} (spelled : SpellsEach spells tokens entries)
    (member : entry ∈ entries) : ∃ line, line ⊆ tokens ∧ spells line entry := by
  induction spelled with
  | nil => exact nomatch member
  | cons head tail inductionHypothesis =>
    rcases List.mem_cons.mp member with rfl | inRest
    · exact ⟨_, List.subset_append_left _ _, head⟩
    · obtain ⟨line, among, spelledLine⟩ := inductionHypothesis inRest
      exact ⟨line, List.subset_append_of_subset_right _ among, spelledLine⟩

theorem SpellsMember.placed {member : Member} (spelled : SpellsMember place tokens member) :
    PlacedBy place tokens member.type.placed ∧
      PlacedBy place tokens (member.name, member.span) := by
  cases spelled with
  | @line type name _ typeKind nameKind _ =>
    exact ⟨⟨type, by simp, typeKind, rfl⟩, ⟨name, by simp, nameKind, rfl⟩⟩

theorem SpellsParameters.placed {parameters : List TypeReference}
    (spelled : SpellsParameters place tokens parameters) :
    ∀ type ∈ parameters, PlacedBy place tokens type.placed := by
  cases spelled with
  | empty => exact nofun
  | @list first rest types typeKind others =>
    refine List.forall_mem_cons.mpr ⟨⟨first, List.mem_cons_self, typeKind, rfl⟩, ?_⟩
    intro type member
    obtain ⟨line, among, spelledLine⟩ := others.exists_of_mem member
    cases spelledLine with
    | @next _ token _ kind =>
      exact ⟨token, List.mem_cons_of_mem _ (among (by simp)), kind, rfl⟩

theorem SpellsMethod.placed {method : Method} (spelled : SpellsMethod place tokens method) :
    ∀ word ∈ method.placedNames, PlacedBy place tokens word := by
  cases spelled with
  | @line response name opening closing feed list parameters responseKind nameKind _ takes =>
    refine List.forall_mem_cons.mpr ⟨⟨response, by simp, responseKind, rfl⟩, ?_⟩
    refine List.forall_mem_cons.mpr ⟨⟨name, by simp, nameKind, rfl⟩, ?_⟩
    refine List.forall_mem_map.mpr fun type member => (takes.placed type member).mono ?_
    exact List.subset_append_of_subset_right _ (List.subset_append_left _ _)

theorem SpellsStatement.placed {declaration : Declaration}
    (spelled : SpellsStatement place tokens declaration) :
    ∀ word ∈ declaration.placedNames, PlacedBy place tokens word := by
  cases spelled with
  | @message keyword name opening feed closing body members _ nameKind _ _ entries =>
    have inside : body ⊆ [keyword, name, opening, feed] ++ (body ++ [closing]) :=
      List.subset_append_of_subset_right _ (List.subset_append_left _ _)
    refine List.forall_mem_cons.mpr ⟨⟨name, by simp, nameKind, rfl⟩, ?_⟩
    refine List.forall_mem_flatMap.mpr fun member inMembers => ?_
    obtain ⟨line, among, spelledLine⟩ := entries.exists_of_mem inMembers
    obtain ⟨type, named⟩ := spelledLine.placed
    rw [List.forall_mem_cons, List.forall_mem_singleton]
    exact ⟨type.mono (List.Subset.trans among inside), named.mono (List.Subset.trans among inside)⟩
  | @service keyword name opening feed closing body methods _ nameKind _ _ entries =>
    have inside : body ⊆ [keyword, name, opening, feed] ++ (body ++ [closing]) :=
      List.subset_append_of_subset_right _ (List.subset_append_left _ _)
    refine List.forall_mem_cons.mpr ⟨⟨name, by simp, nameKind, rfl⟩, ?_⟩
    refine List.forall_mem_flatMap.mpr fun owned inMethods word member => ?_
    -- A method that has an owner is otherwise the method that was read.
    obtain ⟨method, inBody, rfl⟩ := List.mem_map.mp inMethods
    obtain ⟨line, among, spelledLine⟩ := entries.exists_of_mem inBody
    exact (spelledLine.placed word member).mono (List.Subset.trans among inside)

theorem SpellsCode.placed {declarations : List Declaration}
    (spelled : SpellsCode place tokens declarations) :
    ∀ declaration ∈ declarations, ∀ word ∈ declaration.placedNames,
      PlacedBy place tokens word := by
  have next : ∀ {rest : List Token} {others : List Declaration},
      SpellsEach (SpellsNext place) rest others → ∀ declaration ∈ others,
        ∀ word ∈ declaration.placedNames, PlacedBy place rest word := by
    intro rest others each declaration member word inDeclaration
    obtain ⟨line, among, spelledLine⟩ := each.exists_of_mem member
    cases spelledLine with
    | feed _ statement =>
      exact (statement.placed word inDeclaration).mono
        (List.Subset.trans (List.subset_cons_self _ _) among)
  cases spelled with
  | empty => exact nofun
  | statements statement others =>
    refine List.forall_mem_cons.mpr ⟨fun word member => ?_, fun other inOthers word member => ?_⟩
    · exact (statement.placed word member).mono (List.subset_append_left _ _)
    · exact (next others other inOthers word member).mono (List.subset_append_right _ _)
  | feedStatements _ statement others =>
    refine List.forall_mem_cons.mpr ⟨fun word member => ?_, fun other inOthers word member => ?_⟩
    · exact (statement.placed word member).mono
        (List.subset_cons_of_subset _ (List.subset_append_left _ _))
    · exact (next others other inOthers word member).mono
        (List.subset_cons_of_subset _ (List.subset_append_right _ _))

end Grammar

/-- Every word of a schema that is read is a token of its source. -/
theorem Source.placed_of_parse {source : Source} {schema : Schema}
    (parsed : source.parse = .ok schema) :
    ∀ word ∈ schema.placedNames, Grammar.PlacedBy source.tokenSpan source.delivered word := by
  obtain ⟨tokens, final, declarations, scanned, _, spelled, declared⟩ := parse_eq_ok_iff.mp parsed
  obtain ⟨messages, services⟩ := (Schema.declareAll_eq_ok_iff.mp declared).values
  have among : tokens ⊆ source.delivered := by
    rw [(tokens_eq_ok_iff.mp scanned).1]
    exact List.subset_append_left _ _
  rw [Schema.placedNames, messages, services, List.forall_mem_append, List.forall_mem_flatMap,
    List.forall_mem_flatMap]
  constructor
  · intro message member word inMessage
    exact (spelled.placed _ (mem_messagesOf.mp member) word inMessage).mono among
  · intro service member word inService
    exact (spelled.placed _ (mem_servicesOf.mp member) word inService).mono among

/-! ### The words at fault -/

namespace Schema

variable {schema : Schema} {finding : Finding}

/-- The word is what a finding is about, and it stands where the finding does: the repeated name
of a member or a method, or else the type that breaks a rule. -/
inductive AtFault (schema : Schema) : Finding → String → Prop where
  | memberName {message : Message} {member : Member}
      (inSchema : message ∈ schema.messages.values) (inMessage : member ∈ message.members) :
      AtFault schema ⟨.repeatedMember member.name message.name, member.span⟩ member.name
  | memberType {message : Message} {member : Member} {problem : Problem}
      (inSchema : message ∈ schema.messages.values) (inMessage : member ∈ message.members)
      (about : problem ∈ [.undefinedType member.type.name (.message message.name),
        .voidMember member.name message.name,
        .streamMember member.type.name member.name message.name]) :
      AtFault schema ⟨problem, member.type.span⟩ member.type.name
  | methodName {service : Service} {method : Method}
      (inSchema : service ∈ schema.services.values) (inService : method ∈ service.methods) :
      AtFault schema ⟨.repeatedMethod method.name service.name, method.span⟩ method.name
  | methodType {service : Service} {method : Method} {type : TypeReference} {problem : Problem}
      (inSchema : service ∈ schema.services.values) (inService : method ∈ service.methods)
      (inMethod : type ∈ method.response :: method.requests)
      (about : problem ∈ [.undefinedType type.name (.method service.name method.name),
        .voidParameter service.name method.name, .secondStream service.name method.name]) :
      AtFault schema ⟨problem, type.span⟩ type.name

/-- The word at fault is a word of the schema, at the place of the finding. -/
theorem AtFault.placed {word : String} (atFault : schema.AtFault finding word) :
    (word, finding.span) ∈ schema.placedNames := by
  have ofMessage : ∀ {message : Message} {placed : String × Span},
      message ∈ schema.messages.values → placed ∈ message.placedNames →
        placed ∈ schema.placedNames := fun inSchema inMessage =>
    List.mem_append_left _ (List.mem_flatMap.mpr ⟨_, inSchema, inMessage⟩)
  have ofMethod : ∀ {service : Service} {method : Method} {placed : String × Span},
      service ∈ schema.services.values → method ∈ service.methods →
        placed ∈ method.placedNames → placed ∈ schema.placedNames :=
    fun inSchema inService inMethod => List.mem_append_right _ (List.mem_flatMap.mpr
      ⟨_, inSchema, List.mem_cons_of_mem _ (List.mem_flatMap.mpr ⟨_, inService, inMethod⟩)⟩)
  cases atFault with
  | memberName inSchema inMessage =>
    refine ofMessage inSchema (List.mem_cons_of_mem _ (List.mem_flatMap.mpr ⟨_, inMessage, ?_⟩))
    exact List.mem_cons_of_mem _ List.mem_cons_self
  | memberType inSchema inMessage _ =>
    exact ofMessage inSchema
      (List.mem_cons_of_mem _ (List.mem_flatMap.mpr ⟨_, inMessage, List.mem_cons_self⟩))
  | methodName inSchema inService =>
    exact ofMethod inSchema inService (List.mem_cons_of_mem _ List.mem_cons_self)
  | methodType inSchema inService inMethod _ =>
    refine ofMethod inSchema inService ?_
    rcases List.mem_cons.mp inMethod with rfl | inRequests
    · exact List.mem_cons_self
    · exact List.mem_cons_of_mem _
        (List.mem_cons_of_mem _ (List.mem_map.mpr ⟨_, inRequests, rfl⟩))

theorem eq_of_mem_undefinedType {context : Context} {type : TypeReference}
    (found : finding ∈ schema.undefinedType context type) :
    finding = ⟨.undefinedType type.name context, type.span⟩ := by
  rw [undefinedType] at found
  split at found
  · exact List.mem_singleton.mp found
  · exact nomatch found

theorem exists_of_mem_memberTypeFindings {message : String} {member : Member}
    (found : finding ∈ schema.memberTypeFindings message member) :
    ∃ problem, finding = ⟨problem, member.type.span⟩ ∧
      problem ∈ [.undefinedType member.type.name (.message message),
        .voidMember member.name message,
        .streamMember member.type.name member.name message] := by
  unfold memberTypeFindings at found
  split at found
  · exact ⟨_, List.mem_singleton.mp found, by simp⟩
  · split at found
    · exact ⟨_, List.mem_singleton.mp found, by simp⟩
    · exact nomatch found
  · exact ⟨_, eq_of_mem_undefinedType found, by simp⟩

theorem exists_of_mem_memberFindings {message : String} {earlier : List String}
    {members : List Member} (found : finding ∈ schema.memberFindings message earlier members) :
    ∃ member ∈ members, finding = ⟨.repeatedMember member.name message, member.span⟩ ∨
      finding ∈ schema.memberTypeFindings message member := by
  induction members generalizing earlier with
  | nil => exact nomatch found
  | cons member rest inductionHypothesis =>
    rw [memberFindings, List.mem_append, List.mem_append] at found
    rcases found with repeated | ofType | later
    · split at repeated
      · exact ⟨member, List.mem_cons_self, Or.inl (List.mem_singleton.mp repeated)⟩
      · exact nomatch repeated
    · exact ⟨member, List.mem_cons_self, Or.inr ofType⟩
    · obtain ⟨other, inRest, cause⟩ := inductionHypothesis later
      exact ⟨other, List.mem_cons_of_mem _ inRest, cause⟩

theorem exists_of_mem_parameterFindings {service method : String} {sole streaming : Bool}
    {types : List TypeReference}
    (found : finding ∈ schema.parameterFindings service method sole streaming types) :
    ∃ type ∈ types, ∃ problem, finding = ⟨problem, type.span⟩ ∧
      problem ∈ [.undefinedType type.name (.method service method),
        .voidParameter service method, .secondStream service method] := by
  induction types generalizing streaming with
  | nil => exact nomatch found
  | cons type rest inductionHypothesis =>
    have later : ∀ {streaming : Bool},
        finding ∈ schema.parameterFindings service method sole streaming rest →
          ∃ other ∈ type :: rest, ∃ problem, finding = ⟨problem, other.span⟩ ∧
            problem ∈ [.undefinedType other.name (.method service method),
              .voidParameter service method, .secondStream service method] := by
      intro streaming inLater
      obtain ⟨other, inRest, cause⟩ := inductionHypothesis inLater
      exact ⟨other, List.mem_cons_of_mem _ inRest, cause⟩
    unfold parameterFindings at found
    split at found
    all_goals rcases List.mem_append.mp found with here | inLater
    · split at here
      · exact ⟨type, List.mem_cons_self, _, List.mem_singleton.mp here, by simp⟩
      · exact nomatch here
    · exact later inLater
    · split at here
      · exact ⟨type, List.mem_cons_self, _, List.mem_singleton.mp here, by simp⟩
      · exact nomatch here
    · exact later inLater
    · exact ⟨type, List.mem_cons_self, _, eq_of_mem_undefinedType here, by simp⟩
    · exact later inLater

theorem exists_of_mem_methodTypeFindings {service : String} {method : Method}
    (found : finding ∈ schema.methodTypeFindings service method) :
    ∃ type ∈ method.response :: method.requests, ∃ problem, finding = ⟨problem, type.span⟩ ∧
      problem ∈ [.undefinedType type.name (.method service method.name),
        .voidParameter service method.name, .secondStream service method.name] := by
  rcases List.mem_append.mp found with response | parameter
  · exact ⟨method.response, List.mem_cons_self, _, eq_of_mem_undefinedType response, by simp⟩
  · obtain ⟨type, inRequests, cause⟩ := exists_of_mem_parameterFindings parameter
    exact ⟨type, List.mem_cons_of_mem _ inRequests, cause⟩

theorem exists_of_mem_methodFindings {service : String} {earlier : List String}
    {methods : List Method} (found : finding ∈ schema.methodFindings service earlier methods) :
    ∃ method ∈ methods, finding = ⟨.repeatedMethod method.name service, method.span⟩ ∨
      finding ∈ schema.methodTypeFindings service method := by
  induction methods generalizing earlier with
  | nil => exact nomatch found
  | cons method rest inductionHypothesis =>
    rw [methodFindings, List.mem_append, List.mem_append] at found
    rcases found with repeated | ofType | later
    · split at repeated
      · exact ⟨method, List.mem_cons_self, Or.inl (List.mem_singleton.mp repeated)⟩
      · exact nomatch repeated
    · exact ⟨method, List.mem_cons_self, Or.inr ofType⟩
    · obtain ⟨other, inRest, cause⟩ := inductionHypothesis later
      exact ⟨other, List.mem_cons_of_mem _ inRest, cause⟩

/-- Every finding is about a word of the schema. -/
theorem exists_atFault (found : finding ∈ schema.findings) :
    ∃ word, schema.AtFault finding word := by
  rcases List.mem_append.mp found with inMessages | inServices
  · obtain ⟨message, inSchema, inMessage⟩ := List.mem_flatMap.mp inMessages
    obtain ⟨member, inMembers, rfl | ofType⟩ := exists_of_mem_memberFindings inMessage
    · exact ⟨_, .memberName inSchema inMembers⟩
    · obtain ⟨problem, rfl, about⟩ := exists_of_mem_memberTypeFindings ofType
      exact ⟨_, .memberType inSchema inMembers about⟩
  · obtain ⟨service, inSchema, inService⟩ := List.mem_flatMap.mp inServices
    obtain ⟨method, inMethods, rfl | ofType⟩ := exists_of_mem_methodFindings inService
    · exact ⟨_, .methodName inSchema inMethods⟩
    · obtain ⟨type, inMethod, problem, rfl, about⟩ := exists_of_mem_methodTypeFindings ofType
      exact ⟨_, .methodType inSchema inMethods inMethod about⟩

end Schema

end Idl
