/-
This file shows what may be relied on in a schema that compiling returns. The grammar
gives every declaration a name and at least one entry, scanning makes names of the
texts, checking leaves only what keeps the rules, and clearing `void` afterwards takes
nothing else away. What holds in the end holds for every text that compiles.
-/

import Idl.Proofs.Lexemes
import Idl.Proofs.Rules
import Mathlib

namespace Idl

open TypeReference (DefinedIn)

open Schema (streamsOf)

/-! ### What reading guarantees -/

/-- A message as it is read: named, not empty, and with named members. -/
structure Message.Formed (message : Message) : Prop where
  name : IsName message.name
  nonempty : message.members ≠ []
  members : ∀ member ∈ message.members, IsName member.name

/-- A service as it is read: named, not empty, and with named methods that it owns. -/
structure Service.Formed (service : Service) : Prop where
  name : IsName service.name
  nonempty : service.methods ≠ []
  methods : ∀ method ∈ service.methods, IsName method.name
  owner : ∀ method ∈ service.methods, method.owner = service.name

/-- Every declaration of the schema is as it is read, and is found under its name. -/
structure Schema.Formed (schema : Schema) : Prop where
  messageKeys : ∀ entry ∈ schema.messages.entries, entry.1 = entry.2.name
  serviceKeys : ∀ entry ∈ schema.services.entries, entry.1 = entry.2.name
  messages : ∀ message ∈ schema.messages.values, message.Formed
  services : ∀ service ∈ schema.services.values, service.Formed

/-- A declaration as it is read. -/
def Declaration.Formed : Declaration → Prop
  | .message declared => declared.Formed
  | .service declared => declared.Formed

theorem Token.isName {token : Token} (lexeme : Lexeme token.kind token.text)
    (identifier : token.kind = .identifier) : IsName token.text := by
  rw [identifier] at lexeme
  cases lexeme with
  | identifier name => exact name

namespace Grammar

variable {place : Token → Span} {tokens : List Token}

/-- What holds of every entry that is spelled by proper tokens holds of all of them. -/
theorem SpellsEach.forall_mem {Entry : Type} {spells : List Token → Entry → Prop}
    {holds : Entry → Prop} {entries : List Entry}
    (step : ∀ {line : List Token} {entry : Entry}, spells line entry →
      (∀ token ∈ line, Lexeme token.kind token.text) → holds entry)
    (spelled : SpellsEach spells tokens entries)
    (lexemes : ∀ token ∈ tokens, Lexeme token.kind token.text) :
    ∀ entry ∈ entries, holds entry := by
  induction spelled with
  | nil => exact nofun
  | cons head tail inductionHypothesis =>
    rw [List.forall_mem_append] at lexemes
    exact List.forall_mem_cons.mpr ⟨step head lexemes.1, inductionHypothesis lexemes.2⟩

theorem SpellsMember.isName {entry : Member} (spelled : SpellsMember place tokens entry)
    (lexemes : ∀ token ∈ tokens, Lexeme token.kind token.text) : IsName entry.name := by
  cases spelled with
  | @line _ name _ _ nameKind _ => exact Token.isName (lexemes name (by simp)) nameKind

theorem SpellsMethod.isName {entry : Method} (spelled : SpellsMethod place tokens entry)
    (lexemes : ∀ token ∈ tokens, Lexeme token.kind token.text) : IsName entry.name := by
  cases spelled with
  | @line _ name _ _ _ _ _ _ nameKind => exact Token.isName (lexemes name (by simp)) nameKind

theorem SpellsStatement.formed {declaration : Declaration}
    (spelled : SpellsStatement place tokens declaration)
    (lexemes : ∀ token ∈ tokens, Lexeme token.kind token.text) : declaration.Formed := by
  cases spelled with
  | @message _ name _ _ _ body members _ nameKind _ _ entries nonempty _ =>
    have inBody : ∀ token ∈ body, Lexeme token.kind token.text :=
      fun token member => lexemes token (by simp [member])
    exact ⟨Token.isName (lexemes name (by simp)) nameKind, nonempty,
      entries.forall_mem SpellsMember.isName inBody⟩
  | @service _ name _ _ _ body methods _ nameKind _ _ entries nonempty _ =>
    have inBody : ∀ token ∈ body, Lexeme token.kind token.text :=
      fun token member => lexemes token (by simp [member])
    have named : ∀ method ∈ methods, IsName method.name :=
      entries.forall_mem SpellsMethod.isName inBody
    refine ⟨Token.isName (lexemes name (by simp)) nameKind, ?_, ?_, ?_⟩
    · exact fun empty => nonempty (List.map_eq_nil_iff.mp empty)
    · rintro _ member
      obtain ⟨method, inMethods, rfl⟩ := List.mem_map.mp member
      exact named method inMethods
    · rintro _ member
      obtain ⟨method, _, rfl⟩ := List.mem_map.mp member
      rfl

theorem SpellsNext.formed {declaration : Declaration}
    (spelled : SpellsNext place tokens declaration)
    (lexemes : ∀ token ∈ tokens, Lexeme token.kind token.text) : declaration.Formed := by
  cases spelled with
  | feed _ statement =>
    exact statement.formed fun token member => lexemes token (List.mem_cons_of_mem _ member)

theorem SpellsCode.formed {declarations : List Declaration}
    (spelled : SpellsCode place tokens declarations)
    (lexemes : ∀ token ∈ tokens, Lexeme token.kind token.text) :
    ∀ declaration ∈ declarations, declaration.Formed := by
  cases spelled with
  | empty => exact nofun
  | statements statement others =>
    rw [List.forall_mem_append] at lexemes
    exact List.forall_mem_cons.mpr
      ⟨statement.formed lexemes.1, others.forall_mem SpellsNext.formed lexemes.2⟩
  | feedStatements _ statement others =>
    rw [List.forall_mem_cons, List.forall_mem_append] at lexemes
    exact List.forall_mem_cons.mpr
      ⟨statement.formed lexemes.2.1, others.forall_mem SpellsNext.formed lexemes.2.2⟩

end Grammar

/-- Every schema that is read is as it should be, save for what is checked later. -/
theorem Source.formed_of_parse {source : Source} {schema : Schema}
    (parsed : source.parse = .ok schema) : schema.Formed := by
  obtain ⟨tokens, final, declarations, scanned, _, spelled, declared⟩ := parse_eq_ok_iff.mp parsed
  have lexemes := lexeme_of_mem_delivered source
  rw [(tokens_eq_ok_iff.mp scanned).1, List.forall_mem_append] at lexemes
  have formed := spelled.formed lexemes.1
  have lists := Schema.declareAll_eq_ok_iff.mp declared
  refine ⟨?_, ?_, ?_, ?_⟩
  · rw [lists.messages, List.forall_mem_map]
    exact fun _ _ => rfl
  · rw [lists.services, List.forall_mem_map]
    exact fun _ _ => rfl
  · rw [SymbolTable.values, lists.messages, List.map_map, List.forall_mem_map]
    exact fun message member => formed _ (mem_messagesOf.mp member)
  · rw [SymbolTable.values, lists.services, List.map_map, List.forall_mem_map]
    exact fun service member => formed _ (mem_servicesOf.mp member)

/-! ### What checking guarantees -/

/-- A message whose members have distinct names and hold values of known types. -/
structure Message.Verified (schema : Schema) (message : Message) : Prop
    extends Message.Formed message where
  distinct : (message.members.map Member.name).Nodup
  noStream : ∀ member ∈ message.members, member.type.kind ≠ .stream
  noVoid : ∀ member ∈ message.members, member.type.isVoid = false
  defined : ∀ member ∈ message.members, member.type.DefinedIn schema

/-- A method that takes and returns known types, knows the service that it is listed in, and takes
either no stream or the one that is found. -/
structure Method.Verified (schema : Schema) (service : Service) (method : Method) : Prop where
  noVoid : ∀ type ∈ method.requests, type.isVoid = false
  streams : streamsOf method.requests = method.streamParameter?.toList
  requests : ∀ type ∈ method.requests, type.DefinedIn schema
  response : method.response.DefinedIn schema
  service : schema.serviceOf? method = some service

/-- A service whose methods have distinct names and are right in themselves. -/
structure Service.Verified (schema : Schema) (service : Service) : Prop
    extends Service.Formed service where
  distinct : (service.methods.map Method.name).Nodup
  verified : ∀ method ∈ service.methods, method.Verified schema service

/-- What users of a schema rely on. -/
structure Schema.Verified (schema : Schema) : Prop where
  messageKeys : ∀ entry ∈ schema.messages.entries, entry.1 = entry.2.name
  serviceKeys : ∀ entry ∈ schema.services.entries, entry.1 = entry.2.name
  messages : ∀ message ∈ schema.messages.values, message.Verified schema
  services : ∀ service ∈ schema.services.values, service.Verified schema

namespace Method

variable {schema : Schema} {method : Method}

/-- Either nothing is cleared, as it must be if a parameter is alone and not `void`, or the method
comes to take nothing. -/
theorem clearVoid_cases (method : Method) :
    (method.clearVoid = method ∧
        (method.requests.length = 1 → ∀ type ∈ method.requests, type.isVoid = false)) ∨
      method.clearVoid = { method with requests := [] } := by
  unfold clearVoid
  split
  · next type alone =>
    split
    · exact Or.inr rfl
    · next other =>
      refine Or.inl ⟨rfl, fun _ => ?_⟩
      rw [alone, List.forall_mem_singleton]
      exact Bool.eq_false_iff.mpr other
  · next several =>
    refine Or.inl ⟨rfl, fun single => ?_⟩
    obtain ⟨type, alone⟩ := List.length_eq_one_iff.mp single
    exact absurd alone (several type)

theorem clearVoid_name (method : Method) : method.clearVoid.name = method.name := by
  rcases method.clearVoid_cases with ⟨same, _⟩ | same <;> rw [same]

theorem clearVoid_owner (method : Method) : method.clearVoid.owner = method.owner := by
  rcases method.clearVoid_cases with ⟨same, _⟩ | same <;> rw [same]

theorem streams_eq_toList (atMostOne : (streamsOf method.requests).length ≤ 1) :
    streamsOf method.requests = method.streamParameter?.toList := by
  rw [streamParameter?, ← List.head?_filter]
  unfold streamsOf at atMostOne ⊢
  cases streams : method.requests.filter fun type => type.kind == .stream with
  | nil => rfl
  | cons type rest =>
    rw [streams, List.length_cons] at atMostOne
    cases rest with
    | nil => rfl
    | cons _ _ => exact absurd atMostOne (by simp)

/-- A method in which nothing is found wrong is right once `void` has been cleared. -/
theorem verified_clearVoid {service : Service}
    (faultless : schema.methodTypeFindings service.name method = [])
    (owned : schema.clearVoid.serviceOf? method = some service.clearVoid) :
    method.clearVoid.Verified schema.clearVoid service.clearVoid := by
  obtain ⟨response, noVoid, atMostOne, requests⟩ :=
    Schema.methodTypeFindings_eq_nil_iff.mp faultless
  rw [Schema.serviceOf?, ← method.clearVoid_owner] at owned
  rcases method.clearVoid_cases with ⟨same, sole⟩ | same <;> rw [same] at owned ⊢
  · refine ⟨?_, streams_eq_toList atMostOne, requests, response, owned⟩
    by_cases single : method.requests.length = 1
    · exact sole single
    · exact noVoid single
  · exact ⟨nofun, rfl, nofun, response, owned⟩

end Method

theorem Message.Formed.verified {schema : Schema} {message : Message} (formed : message.Formed)
    (faultless : schema.messageFindings message = []) :
    message.Verified schema.clearVoid := by
  obtain ⟨⟨distinct, _⟩, types⟩ := Schema.memberFindings_eq_nil_iff.mp faultless
  have rules := fun member inMembers =>
    Schema.memberTypeFindings_eq_nil_iff.mp (types member inMembers)
  exact ⟨formed, distinct, fun member inMembers => (rules member inMembers).1,
    fun member inMembers => (rules member inMembers).2.1,
    fun member inMembers => (rules member inMembers).2.2⟩

theorem Service.Formed.clearVoid {service : Service} (formed : service.Formed) :
    service.clearVoid.Formed := by
  refine ⟨formed.name, fun empty => formed.nonempty (List.map_eq_nil_iff.mp empty), ?_, ?_⟩
  · refine List.forall_mem_map.mpr fun method member => ?_
    rw [method.clearVoid_name]
    exact formed.methods method member
  · refine List.forall_mem_map.mpr fun method member => ?_
    rw [method.clearVoid_owner]
    exact formed.owner method member

theorem Service.Formed.verified {schema : Schema} {service : Service} (formed : service.Formed)
    (faultless : schema.serviceFindings service = [])
    (found : schema.clearVoid.service? service.name = some service.clearVoid) :
    service.clearVoid.Verified schema.clearVoid := by
  obtain ⟨⟨distinct, _⟩, types⟩ := Schema.methodFindings_eq_nil_iff.mp faultless
  refine ⟨formed.clearVoid, ?_, ?_⟩
  · have names : service.clearVoid.methods.map Method.name = service.methods.map Method.name := by
      rw [Service.clearVoid, List.map_map]
      exact List.map_congr_left fun method _ => method.clearVoid_name
    rw [names]
    exact distinct
  · refine List.forall_mem_map.mpr fun method member => ?_
    refine Method.verified_clearVoid (types method member) ?_
    rw [Schema.serviceOf?, formed.owner method member]
    exact found

namespace Schema

variable {schema : Schema}

/-- Checking makes sure of what reading has not. -/
theorem Formed.verified (formed : schema.Formed) (faultless : schema.findings = []) :
    schema.clearVoid.Verified := by
  obtain ⟨messageRules, serviceRules⟩ := findings_eq_nil_iff.mp faultless
  refine ⟨formed.messageKeys, ?_, ?_, ?_⟩
  · exact List.forall_mem_map.mpr formed.serviceKeys
  · exact fun message member => (formed.messages message member).verified (messageRules _ member)
  · rw [clearVoid, SymbolTable.values_map]
    refine List.forall_mem_map.mpr fun service member => ?_
    refine (formed.services service member).verified (serviceRules _ member) ?_
    obtain ⟨⟨key, _⟩, inEntries, rfl⟩ := List.mem_map.mp member
    have same : key = _ := formed.serviceKeys _ inEntries
    rw [service?, SymbolTable.get?_eq_some_iff, ← same]
    exact List.mem_map.mpr ⟨_, inEntries, rfl⟩

end Schema

/-- Whatever compiles can be relied on. -/
theorem compileText_verified {file text : String} {schema : Schema}
    (compiled : compileText file text = .ok schema) : schema.Verified := by
  unfold compileText at compiled
  split at compiled
  · exact nomatch compiled
  · next source parsed read =>
    have formed : parsed.Formed := by
      unfold readText at read
      split at read
      · exact nomatch read
      · split at read
        · exact nomatch read
        · next same =>
          cases read
          exact Source.formed_of_parse same
    unfold Schema.verify at compiled
    split at compiled
    · next faultless =>
      cases compiled
      exact formed.verified faultless
    · exact nomatch compiled

/-- A message that refers to itself, and a service with a method that is said to take `void`. -/
def chainText : String :=
  "message Link \x7b\n\tLink next\n\x7d\nservice Chain \x7b\n\tLink first(void)\n\x7d"

/-- What it declares. -/
def chainSchema : Schema where
  messages := ⟨[("Link", ⟨"Link", [⟨⟨"Link", ⟨2, 1, 4⟩⟩, "next", ⟨2, 6, 4⟩⟩], ⟨1, 8, 4⟩⟩)],
    List.nodup_singleton _⟩
  services := ⟨[("Chain", ⟨"Chain",
    [⟨"first", [], ⟨"Link", ⟨5, 1, 4⟩⟩, ⟨5, 6, 5⟩, "Chain"⟩], ⟨4, 8, 5⟩⟩)],
    List.nodup_singleton _⟩

set_option maxRecDepth 2000 in
theorem chainSchema_verified :
    compileText "chain.idl" chainText = .ok chainSchema ∧ chainSchema.Verified := by
  have compiled : compileText "chain.idl" chainText = .ok chainSchema := by cbv
  exact ⟨compiled, compileText_verified compiled⟩

end Idl
