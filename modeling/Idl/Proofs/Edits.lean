/-
This file follows a schema through any number of edits. A service has its name in three
places: as the key under which it is stored, as the name that it bears, and as the owner
of its methods. Each edit changes one of them and leaves the others, so that they come
apart; what lasts is the key. The keys are the names that were accepted, in the order in
which they were accepted, and the owner of a method follows the key, not the name. Every
edit is answered, and the past, which is the list of the edits with their answers,
determines the keys, and the methods under each of them up to what they take.
-/

import Idl.Proofs.Emptying

namespace Idl

/-! ### Edits and their replies -/

/-- What can be asked of a schema. A service comes with the complete list of its methods, all of
which it then owns; a method that is appended later has no owner. -/
inductive Edit where
  | insertMessage (message : Message)
  | insertService (name : String) (span : Span) (methods : List Method)
  | appendMember (key : String) (member : Member)
  | appendMethod (key name : String) (span : Span) (response : TypeReference)
      (requests : List TypeReference)
  | renameMessage (key name : String)
  | renameService (key name : String)
  | verify (source : Source)

/-- What is answered: that it is done, that nothing is stored under the key, the declaration whose
name was taken, or what is wrong with the schema. -/
inductive Reply where
  | done
  | missing
  | messageBack (message : Message)
  | serviceBack (service : Service)
  | wrong (error : CompileError)

/-- The edit was not refused. -/
def Reply.isDone : Reply → Bool
  | .done => true
  | _ => false

/-- Messages and services are named apart from each other. -/
inductive Namespace where
  | messages
  | services

/-- The only namespace that the edit can change something in. -/
def Edit.within : Edit → Namespace
  | .insertMessage _ | .appendMember _ _ | .renameMessage _ _ => .messages
  | .insertService _ _ _ | .appendMethod _ _ _ _ _ | .renameService _ _ | .verify _ => .services

/-- The answer to an edit, and the schema after it. -/
def Schema.perform (schema : Schema) : Edit → Reply × Schema
  | .insertMessage message =>
    match schema.insertMessage message with
    | .ok after => (.done, after)
    | .error message => (.messageBack message, schema)
  | .insertService name span methods =>
    match schema.insertService (.ofMethods name span methods) with
    | .ok after => (.done, after)
    | .error service => (.serviceBack service, schema)
  | .appendMember key member =>
    if schema.messages.contains key then (.done, schema.appendMember key member)
    else (.missing, schema)
  | .appendMethod key name span response requests =>
    if schema.services.contains key then
      (.done, schema.appendMethod key (.unattached name span response requests))
    else (.missing, schema)
  | .renameMessage key name =>
    if schema.messages.contains key then (.done, schema.renameMessage key name)
    else (.missing, schema)
  | .renameService key name =>
    if schema.services.contains key then (.done, schema.renameService key name)
    else (.missing, schema)
  | .verify source =>
    match (Schema.verifyInPlace source).run schema with
    | (.ok (), after) => (.done, after)
    | (.error error, after) => (.wrong error, after)

/-- The past and the schema after one more edit. -/
def Edit.follow (state : List (Edit × Reply) × Schema) (edit : Edit) :
    List (Edit × Reply) × Schema :=
  match state.2.perform edit with
  | (reply, after) => (state.1 ++ [(edit, reply)], after)

/-- The past that edits make up, and the schema to which they lead, from the one that declares
nothing. -/
def replay (edits : List Edit) : List (Edit × Reply) × Schema :=
  edits.foldl Edit.follow ([], .empty)

/-! ### What the past tells -/

section Past

variable (past : List (Edit × Reply))

/-- The names of the messages that were accepted. -/
def acceptedMessages : List String :=
  past.filterMap fun
    | (.insertMessage message, .done) => some message.name
    | _ => none

/-- The names under which services were accepted. -/
def acceptedServices : List String :=
  past.filterMap fun
    | (.insertService name _ _, .done) => some name
    | _ => none

/-- A method without what it takes, the one thing about it that an edit can change. -/
def Method.outline (method : Method) : Method := { method with requests := [] }

/-- The outlines of the methods with which the service under a key was accepted. -/
def givenOutlines (key : String) : List Method :=
  past.flatMap fun
    | (.insertService name _ methods, .done) =>
      if name = key then methods.map fun method => { method with requests := [], owner := key }
      else []
    | _ => []

/-- The outlines of the methods that were appended to the service under a key. -/
def appendedOutlines (key : String) : List Method :=
  past.flatMap fun
    | (.appendMethod place name span response _, .done) =>
      if place = key then [⟨name, [], response, span, ""⟩] else []
    | _ => []

end Past

/-- The methods of the service under a key, none if there is no such service. -/
def Schema.methodsUnder (schema : Schema) (key : String) : List Method :=
  ((schema.service? key).map Service.methods).getD []

/-- What holds of a schema and of the past that led to it. -/
structure Kept (past : List (Edit × Reply)) (schema : Schema) : Prop where
  messageKeys : schema.messages.keys = acceptedMessages past
  serviceKeys : schema.services.keys = acceptedServices past
  outlines : ∀ key, (schema.methodsUnder key).map Method.outline =
    givenOutlines past key ++ appendedOutlines past key

theorem owner_givenOutlines {past : List (Edit × Reply)} {key : String} :
    ∀ outline ∈ givenOutlines past key, outline.owner = key := by
  intro outline member
  obtain ⟨event, _, member⟩ := List.mem_flatMap.mp member
  split at member
  · next name _ methods =>
    split at member
    · obtain ⟨method, _, rfl⟩ := List.mem_map.mp member
      rfl
    · exact nomatch member
  · exact nomatch member

theorem owner_appendedOutlines {past : List (Edit × Reply)} {key : String} :
    ∀ outline ∈ appendedOutlines past key, outline.owner = "" := by
  intro outline member
  obtain ⟨event, _, member⟩ := List.mem_flatMap.mp member
  split at member
  · split at member
    · rw [List.mem_singleton.mp member]
    · exact nomatch member
  · exact nomatch member

theorem Method.outline_clearVoid (method : Method) :
    method.clearVoid.outline = method.outline := by
  have emptied := method.emptied_clearVoid
  rw [outline, outline, Method.mk.injEq]
  exact ⟨emptied.name, rfl, emptied.response, emptied.span, emptied.owner⟩

/-! ### Looking up in a changed table -/

namespace SymbolTable

variable {Value Other : Type} {table : SymbolTable Value}

theorem get?_insert {key : String} {value : Value} (fresh : table.contains key = false)
    (other : String) :
    (table.insert key value fresh).get? other =
      if other = key then some value else table.get? other := by
  split
  · next same =>
    rw [get?_eq_some_iff, same]
    exact List.mem_append_right _ (List.mem_singleton_self _)
  · next differ =>
    refine Option.ext fun found => ?_
    rw [get?_eq_some_iff, get?_eq_some_iff, insert, List.mem_append, List.mem_singleton]
    exact or_iff_left fun last => differ (congrArg Prod.fst last)

theorem get?_mapEntries (change : String → Value → Other) (table : SymbolTable Value)
    (key : String) : (table.mapEntries change).get? key = (table.get? key).map (change key) := by
  refine Option.ext fun value => ?_
  rw [get?_eq_some_iff, Option.map_eq_some_iff]
  simp only [get?_eq_some_iff, mapEntries, List.mem_map, Prod.mk.injEq]
  constructor
  · rintro ⟨⟨name, old⟩, member, rfl, rfl⟩
    exact ⟨old, member, rfl⟩
  · rintro ⟨old, member, rfl⟩
    exact ⟨(key, old), member, rfl, rfl⟩

/-- Going through the values is going through the keys and looking each of them up. -/
theorem flatMap_values {Result : Type} (table : SymbolTable Value) (parts : Value → List Result) :
    table.values.flatMap parts =
      table.keys.flatMap fun key => ((table.get? key).map parts).getD [] := by
  rw [values, keys, List.flatMap_map, List.flatMap_map]
  refine List.flatMap_congr fun entry member => ?_
  rw [get?_eq_some_iff.mpr member]
  rfl

end SymbolTable

namespace Schema

variable {schema : Schema} {past : List (Edit × Reply)}

/-! ### The methods under a key -/

theorem methodsUnder_eq_nil {key : String} (fresh : schema.services.contains key = false) :
    schema.methodsUnder key = [] := by
  have absent := (schema.services.isSome_get? key).trans fresh
  rw [Option.isSome_eq_false_iff, Option.isNone_iff_eq_none] at absent
  rw [methodsUnder, service?, absent]
  rfl

theorem methodsUnder_insert {name : String} {service : Service}
    (fresh : schema.services.contains name = false) (key : String) :
    ({ schema with services := schema.services.insert name service fresh } :
        Schema).methodsUnder key =
      schema.methodsUnder key ++ if name = key then service.methods else [] := by
  rw [methodsUnder, service?, SymbolTable.get?_insert]
  split
  · next same =>
    rw [same, if_pos rfl, methodsUnder_eq_nil fresh]
    rfl
  · next differ =>
    rw [if_neg (Ne.symm differ), List.append_nil]
    rfl

theorem methodsUnder_mapEntries (change : String → Service → Service) (key : String) :
    ({ schema with services := schema.services.mapEntries change } : Schema).methodsUnder key =
      ((schema.service? key).map fun service => (change key service).methods).getD [] := by
  rw [methodsUnder, service?, SymbolTable.get?_mapEntries, Option.map_map]
  rfl

theorem methodsUnder_renameService (place name key : String) :
    (schema.renameService place name).methodsUnder key = schema.methodsUnder key := by
  rw [renameService, SymbolTable.modify, methodsUnder_mapEntries]
  refine congrArg (Option.getD · []) (congrArg (Option.map · _) (funext fun service => ?_))
  split <;> rfl

theorem methodsUnder_appendMethod {place : String} (method : Method)
    (bound : schema.services.contains place = true) (key : String) :
    (schema.appendMethod place method).methodsUnder key =
      schema.methodsUnder key ++ if place = key then [method] else [] := by
  rw [appendMethod, SymbolTable.modify, methodsUnder_mapEntries, methodsUnder]
  by_cases same : key = place
  · rw [same, if_pos rfl, service?, SymbolTable.get?_eq_find bound]
    simp
  · rw [if_neg (Ne.symm same), List.append_nil]
    refine congrArg (Option.getD · []) (congrArg (Option.map · _) (funext fun service => ?_))
    rw [if_neg (by simpa using same)]

theorem outlines_clearVoid (key : String) :
    (schema.clearVoid.methodsUnder key).map Method.outline =
      (schema.methodsUnder key).map Method.outline := by
  rw [clearVoid, SymbolTable.map, methodsUnder_mapEntries, methodsUnder]
  cases schema.service? key with
  | none => rfl
  | some service =>
    change (service.methods.map Method.clearVoid).map Method.outline = _
    rw [List.map_map]
    exact List.map_congr_left fun method _ => method.outline_clearVoid

/-! ### One edit -/

theorem perform_insertMessage (message : Message) :
    schema.perform (.insertMessage message) =
      if fresh : schema.messages.contains message.name = false then
        (.done, { schema with
          messages := schema.messages.insert message.name message fresh })
      else (.messageBack message, schema) := by
  by_cases fresh : schema.messages.contains message.name = false
  · simp only [perform, insertMessage, dif_pos fresh]
  · simp only [perform, insertMessage, dif_neg fresh]

theorem perform_insertService (name : String) (span : Span) (methods : List Method) :
    schema.perform (.insertService name span methods) =
      if fresh : schema.services.contains name = false then
        (.done, { schema with
          services := schema.services.insert name (.ofMethods name span methods) fresh })
      else (.serviceBack (.ofMethods name span methods), schema) := by
  by_cases fresh : schema.services.contains name = false
  · have added : schema.insertService (.ofMethods name span methods) = .ok { schema with
        services := schema.services.insert name (.ofMethods name span methods) fresh } :=
      dif_pos fresh
    rw [perform, added, dif_pos fresh]
  · have back : schema.insertService (.ofMethods name span methods) =
        .error (.ofMethods name span methods) := dif_neg fresh
    rw [perform, back, dif_neg fresh]

theorem perform_verify (source : Source) :
    schema.perform (.verify source) =
      match schema.violations source with
      | [] => (.done, schema.clearVoid)
      | first :: _ => (.wrong (.semantic first.diagnostic), schema) := by
  rw [perform, verifyInPlace_run]
  cases schema.violations source <;> rfl

/-- An edit leaves the other namespace as it is. -/
theorem perform_within (schema : Schema) (edit : Edit) :
    match edit.within with
    | .messages => (schema.perform edit).2.services = schema.services
    | .services => (schema.perform edit).2.messages = schema.messages := by
  cases edit with
  | insertMessage message =>
    change (schema.perform _).2.services = _
    rw [perform_insertMessage]
    split <;> rfl
  | appendMember | renameMessage =>
    change (schema.perform _).2.services = _
    rw [perform]
    split <;> rfl
  | insertService name span methods =>
    change (schema.perform _).2.messages = _
    rw [perform_insertService]
    split <;> rfl
  | appendMethod | renameService =>
    change (schema.perform _).2.messages = _
    rw [perform]
    split <;> rfl
  | verify source =>
    change (schema.perform _).2.messages = _
    rw [perform_verify]
    split <;> rfl

end Schema

/-! ### What an edit adds to the past -/

section Past

variable {past : List (Edit × Reply)} {schema after : Schema}

theorem acceptedMessages_append (past more : List (Edit × Reply)) :
    acceptedMessages (past ++ more) = acceptedMessages past ++ acceptedMessages more :=
  List.filterMap_append

theorem acceptedServices_append (past more : List (Edit × Reply)) :
    acceptedServices (past ++ more) = acceptedServices past ++ acceptedServices more :=
  List.filterMap_append

theorem givenOutlines_append (past more : List (Edit × Reply)) (key : String) :
    givenOutlines (past ++ more) key = givenOutlines past key ++ givenOutlines more key :=
  List.flatMap_append

theorem appendedOutlines_append (past more : List (Edit × Reply)) (key : String) :
    appendedOutlines (past ++ more) key =
      appendedOutlines past key ++ appendedOutlines more key :=
  List.flatMap_append

/-- What was kept is kept after one more event if the schema has grown by what the event adds. -/
theorem Kept.grow (kept : Kept past schema) {event : Edit × Reply}
    (messageKeys : after.messages.keys = schema.messages.keys ++ acceptedMessages [event])
    (serviceKeys : after.services.keys = schema.services.keys ++ acceptedServices [event])
    (outlines : ∀ key, (after.methodsUnder key).map Method.outline =
      (givenOutlines past key ++ givenOutlines [event] key) ++
        (appendedOutlines past key ++ appendedOutlines [event] key)) :
    Kept (past ++ [event]) after where
  messageKeys := by rw [messageKeys, kept.messageKeys, acceptedMessages_append]
  serviceKeys := by rw [serviceKeys, kept.serviceKeys, acceptedServices_append]
  outlines key := by rw [outlines, givenOutlines_append, appendedOutlines_append]

/-- An event that adds neither a key nor a method. -/
structure Silent (event : Edit × Reply) : Prop where
  message : acceptedMessages [event] = []
  service : acceptedServices [event] = []
  given : ∀ key, givenOutlines [event] key = []
  appended : ∀ key, appendedOutlines [event] key = []

theorem silent_refused (edit : Edit) {reply : Reply} (refused : reply.isDone = false) :
    Silent (edit, reply) := by
  cases reply with
  | done => cases refused
  | missing | messageBack | serviceBack | wrong =>
    cases edit <;> exact ⟨rfl, rfl, fun _ => rfl, fun _ => rfl⟩

theorem Kept.silent (kept : Kept past schema) {event : Edit × Reply} (silent : Silent event)
    (messageKeys : after.messages.keys = schema.messages.keys)
    (serviceKeys : after.services.keys = schema.services.keys)
    (outlines : ∀ key, (after.methodsUnder key).map Method.outline =
      (schema.methodsUnder key).map Method.outline) :
    Kept (past ++ [event]) after := by
  refine kept.grow ?_ ?_ fun key => ?_
  · rw [messageKeys, silent.message, List.append_nil]
  · rw [serviceKeys, silent.service, List.append_nil]
  · rw [outlines, kept.outlines, silent.given, silent.appended, List.append_nil, List.append_nil]

theorem Kept.insertMessage (kept : Kept past schema) {message : Message}
    (fresh : schema.messages.contains message.name = false) :
    Kept (past ++ [(.insertMessage message, .done)])
      { schema with messages := schema.messages.insert message.name message fresh } := by
  refine kept.grow (SymbolTable.keys_insert fresh) (List.append_nil _).symm fun key => ?_
  refine (kept.outlines key).trans ?_
  exact (congrArg₂ _ (List.append_nil _) (List.append_nil _)).symm

/-- The methods of a new service are the first ones under its key. -/
theorem Kept.insertService (kept : Kept past schema) {name : String} (span : Span)
    (methods : List Method) (fresh : schema.services.contains name = false) :
    Kept (past ++ [(.insertService name span methods, .done)])
      { schema with
        services := schema.services.insert name (.ofMethods name span methods) fresh } := by
  refine kept.grow (List.append_nil _).symm (SymbolTable.keys_insert fresh) fun key => ?_
  have given : givenOutlines [(.insertService name span methods, .done)] key =
      if name = key then methods.map fun method => { method with requests := [], owner := key }
      else [] := List.append_nil _
  rw [Schema.methodsUnder_insert fresh, List.map_append, kept.outlines, given]
  by_cases same : name = key
  · have before := kept.outlines key
    rw [← same, Schema.methodsUnder_eq_nil fresh, List.map_nil] at before
    obtain ⟨noneGiven, noneAppended⟩ := List.append_eq_nil_iff.mp before.symm
    rw [← same, noneGiven, noneAppended, if_pos rfl, if_pos rfl, Service.ofMethods, List.map_map]
    exact (List.append_nil _).symm
  · rw [if_neg same, if_neg same, List.map_nil, List.append_nil, List.append_nil]
    exact congrArg _ (List.append_nil _).symm

theorem Kept.appendMethod (kept : Kept past schema) {place name : String} (span : Span)
    (response : TypeReference) (requests : List TypeReference)
    (bound : schema.services.contains place = true) :
    Kept (past ++ [(.appendMethod place name span response requests, .done)])
      (schema.appendMethod place (.unattached name span response requests)) := by
  refine kept.grow (List.append_nil _).symm ?_ fun key => ?_
  · exact (SymbolTable.keys_modify _ _ _).trans (List.append_nil _).symm
  · have appended :
        appendedOutlines [(.appendMethod place name span response requests, .done)] key =
          if place = key then [⟨name, [], response, span, ""⟩] else [] := List.append_nil _
    rw [Schema.methodsUnder_appendMethod _ bound, List.map_append, kept.outlines, appended,
      List.append_assoc, apply_ite (List.map Method.outline)]
    exact congrArg (· ++ _) (List.append_nil _).symm

/-- Whatever the edit, what was kept is kept. -/
theorem Kept.perform (kept : Kept past schema) (edit : Edit) :
    Kept (past ++ [(edit, (schema.perform edit).1)]) (schema.perform edit).2 := by
  have refused : ∀ {reply : Reply}, reply.isDone = false →
      Kept (past ++ [(edit, reply)]) schema :=
    fun notDone => kept.silent (silent_refused edit notDone) rfl rfl fun _ => rfl
  -- Two insertions and an appended method add to what the past tells; what else is done is silent.
  cases edit with
  | insertMessage message =>
    rw [Schema.perform_insertMessage]
    split
    · next fresh => exact kept.insertMessage fresh
    · exact refused rfl
  | insertService name span methods =>
    rw [Schema.perform_insertService]
    split
    · next fresh => exact kept.insertService span methods fresh
    · exact refused rfl
  | appendMember key member =>
    rw [Schema.perform]
    split
    · exact kept.silent ⟨rfl, rfl, fun _ => rfl, fun _ => rfl⟩ (SymbolTable.keys_modify _ _ _) rfl
        fun _ => rfl
    · exact refused rfl
  | appendMethod place name span response requests =>
    rw [Schema.perform]
    split
    · next bound => exact kept.appendMethod span response requests bound
    · exact refused rfl
  | renameMessage key name =>
    rw [Schema.perform]
    split
    · exact kept.silent ⟨rfl, rfl, fun _ => rfl, fun _ => rfl⟩ (SymbolTable.keys_modify _ _ _) rfl
        fun _ => rfl
    · exact refused rfl
  | renameService key name =>
    rw [Schema.perform]
    split
    · exact kept.silent ⟨rfl, rfl, fun _ => rfl, fun _ => rfl⟩ rfl (SymbolTable.keys_modify _ _ _)
        fun _ => congrArg _ (Schema.methodsUnder_renameService key name _)
    · exact refused rfl
  | verify source =>
    rw [Schema.perform_verify]
    split
    · exact kept.silent ⟨rfl, rfl, fun _ => rfl, fun _ => rfl⟩ rfl (SymbolTable.keys_map _ _)
        Schema.outlines_clearVoid
    · exact refused rfl

/-! ### A whole run -/

theorem replay_append (edits : List Edit) (edit : Edit) :
    replay (edits ++ [edit]) =
      match replay edits with
      | (past, schema) =>
        (past ++ [(edit, (schema.perform edit).1)], (schema.perform edit).2) := by
  rw [replay, List.foldl_append]
  rfl

theorem edits_replay (edits : List Edit) : (replay edits).1.map Prod.fst = edits := by
  induction edits using List.reverseRecOn with
  | nil => rfl
  | append_singleton edits edit inductionHypothesis =>
    rw [replay_append]
    refine List.map_append.trans ?_
    rw [inductionHypothesis]
    rfl

theorem kept_replay (edits : List Edit) : Kept (replay edits).1 (replay edits).2 := by
  induction edits using List.reverseRecOn with
  | nil => exact ⟨rfl, rfl, fun _ => rfl⟩
  | append_singleton edits edit inductionHypothesis =>
    rw [replay_append]
    exact inductionHypothesis.perform edit

/-! ### Owners -/

/-- Each service lists the methods with which it was accepted before those appended later. The
former are owned by its key, so that looking for their owner finds it; the latter have no owner. -/
structure Schema.Owned (schema : Schema) (past : List (Edit × Reply)) : Prop where
  stored : ∀ key service, schema.service? key = some service →
    ∃ given appended, service.methods = given ++ appended ∧
      given.map Method.outline = givenOutlines past key ∧
      appended.map Method.outline = appendedOutlines past key ∧
      (∀ method ∈ given, method.owner = key ∧ schema.serviceOf? method = some service) ∧
      ∀ method ∈ appended, method.owner = ""
  attached : ∀ method ∈ schema.methods, method.owner ≠ "" →
    ∃ service, schema.serviceOf? method = some service ∧ method ∈ service.methods ∧
      ∀ key other, schema.service? key = some other → method ∈ other.methods →
        key = method.owner ∧ other = service

theorem Kept.stored (kept : Kept past schema) {key : String} {service : Service}
    (found : schema.service? key = some service) :
    ∃ given appended, service.methods = given ++ appended ∧
      given.map Method.outline = givenOutlines past key ∧
      appended.map Method.outline = appendedOutlines past key ∧
      (∀ method ∈ given, method.owner = key ∧ schema.serviceOf? method = some service) ∧
      ∀ method ∈ appended, method.owner = "" := by
  have outlines := kept.outlines key
  rw [Schema.methodsUnder, found] at outlines
  obtain ⟨given, appended, methods, givenEq, appendedEq⟩ := List.map_eq_append_iff.mp outlines
  refine ⟨given, appended, methods, givenEq, appendedEq, fun method member => ?_,
    fun method member => ?_⟩
  · have owner : method.owner = key :=
      owner_givenOutlines method.outline (givenEq ▸ List.mem_map_of_mem member)
    rw [Schema.serviceOf?, owner]
    exact ⟨rfl, found⟩
  · exact owner_appendedOutlines method.outline (appendedEq ▸ List.mem_map_of_mem member)

theorem Kept.owner_eq (kept : Kept past schema) {key : String} {service : Service}
    {method : Method} (found : schema.service? key = some service)
    (member : method ∈ service.methods) (attached : method.owner ≠ "") : method.owner = key := by
  obtain ⟨given, appended, methods, _, _, owned, unowned⟩ := kept.stored found
  rw [methods] at member
  rcases List.mem_append.mp member with member | member
  · exact (owned method member).1
  · exact absurd (unowned method member) attached

theorem Kept.owned (kept : Kept past schema) : schema.Owned past where
  stored _ _ := kept.stored
  attached method inSchema attached := by
    obtain ⟨service, inServices, inMethods⟩ := Schema.mem_methods.mp inSchema
    obtain ⟨⟨key, _⟩, entry, rfl⟩ := List.mem_map.mp inServices
    have found : schema.service? key = some _ := SymbolTable.get?_eq_some_iff.mpr entry
    have owner := kept.owner_eq found inMethods attached
    refine ⟨_, ?_, inMethods, fun place other stored listed => ?_⟩
    · rw [Schema.serviceOf?, owner]
      exact found
    · have same := kept.owner_eq stored listed attached
      rw [← same, owner] at stored
      exact ⟨same.symm, Option.some.inj (stored.symm.trans found)⟩

/-! ### Going through a schema -/

/-- Going through the methods, or through the types that they take or return, is going through the
services in the order in which they were accepted, and through the methods of each in turn. -/
structure Schema.Listed (schema : Schema) (past : List (Edit × Reply)) : Prop where
  methods : schema.methods = (acceptedServices past).flatMap schema.methodsUnder
  requestTypes : schema.requestTypes =
    (acceptedServices past).flatMap fun key => (schema.methodsUnder key).flatMap Method.requests
  responseTypes : schema.responseTypes =
    (acceptedServices past).flatMap fun key => (schema.methodsUnder key).map Method.response

theorem Kept.listed (kept : Kept past schema) : schema.Listed past := by
  have methods : schema.methods = (acceptedServices past).flatMap schema.methodsUnder := by
    rw [Schema.methods, SymbolTable.flatMap_values, kept.serviceKeys]
    rfl
  refine ⟨methods, ?_, ?_⟩
  · rw [Schema.requestTypes, methods, List.flatMap_assoc]
  · rw [Schema.responseTypes, methods, List.map_flatMap]

/-! ### Insertions -/

theorem Kept.insertMessage_answer (kept : Kept past schema) (message : Message) :
    if message.name ∈ acceptedMessages past then
      schema.perform (.insertMessage message) = (.messageBack message, schema)
    else (schema.perform (.insertMessage message)).1 = .done := by
  rw [Schema.perform_insertMessage, ← kept.messageKeys]
  split
  · next taken => rw [dif_neg (by simp [SymbolTable.contains_iff_mem, taken])]
  · next free => rw [dif_pos (Bool.eq_false_iff.mpr (mt SymbolTable.contains_iff_mem.mp free))]

theorem Kept.insertService_answer (kept : Kept past schema) (name : String) (span : Span)
    (methods : List Method) :
    if name ∈ acceptedServices past then
      schema.perform (.insertService name span methods) =
        (.serviceBack (.ofMethods name span methods), schema)
    else (schema.perform (.insertService name span methods)).1 = .done := by
  rw [Schema.perform_insertService, ← kept.serviceKeys]
  split
  · next taken => rw [dif_neg (by simp [SymbolTable.contains_iff_mem, taken])]
  · next free => rw [dif_pos (Bool.eq_false_iff.mpr (mt SymbolTable.contains_iff_mem.mp free))]

/-- Wherever edits lead, the keys are the accepted names in order of acceptance, each of them once;
the methods under a key are those that came with the service and those appended to it, and only
the former have an owner, which is the key; going through the schema follows that order. The next
insertion is refused just if its name is among the keys, and an edit of messages or of services
leaves the other ones as they are. -/
theorem replay_stored (edits : List Edit) :
    match replay edits with
    | (past, schema) =>
      past.map Prod.fst = edits ∧ schema.messages.keys.Nodup ∧ schema.services.keys.Nodup ∧
      Kept past schema ∧ schema.Owned past ∧ schema.Listed past ∧
      (∀ message : Message,
        if message.name ∈ acceptedMessages past then
          schema.perform (.insertMessage message) = (.messageBack message, schema)
        else (schema.perform (.insertMessage message)).1 = .done) ∧
      (∀ name span methods,
        if name ∈ acceptedServices past then
          schema.perform (.insertService name span methods) =
            (.serviceBack (.ofMethods name span methods), schema)
        else (schema.perform (.insertService name span methods)).1 = .done) ∧
      ∀ edit : Edit,
        match edit.within with
        | .messages => (schema.perform edit).2.services = schema.services
        | .services => (schema.perform edit).2.messages = schema.messages := by
  have kept := kept_replay edits
  exact ⟨edits_replay edits, SymbolTable.nodup_keys _, SymbolTable.nodup_keys _, kept, kept.owned,
    kept.listed, kept.insertMessage_answer, kept.insertService_answer,
    Schema.perform_within _⟩

/-- A service that is renamed frees no key and takes none, and its methods stay its own. -/
example :
    let ping := Method.unattached "ping" .nowhere ⟨"void", .nowhere⟩ []
    let schema := (replay [.insertService "Geo" .nowhere [ping], .renameService "Geo" "Map",
      .insertService "Map" .nowhere [ping], .insertService "Geo" .nowhere [ping],
      .appendMethod "Geo" "late" .nowhere ⟨"void", .nowhere⟩ []]).2
    schema.services.entries.map (fun entry => (entry.1, entry.2.name)) =
        [("Geo", "Map"), ("Map", "Map")] ∧
      schema.methods.map (fun method => (method.name, method.owner)) =
        [("ping", "Geo"), ("late", ""), ("ping", "Map")] := by
  decide

end Past

end Idl
