/-
This file says what the declarations of a file leave in the schema. As long as no name is
repeated within its namespace, the schema lists exactly the declarations made so far,
each under its own name and in order. A declaration that repeats a name is refused, and
the line that is quoted is that of the one declaration that has the name.
-/

import Idl.Declaration.Basic
import Mathlib.Data.List.Induction

namespace Idl

namespace Declaration

/-- The message that is declared, if it is one. -/
def message? : Declaration → Option Message
  | .message declared => some declared
  | .service _ => none

/-- The service that is declared, if it is one. -/
def service? : Declaration → Option Service
  | .message _ => none
  | .service declared => some declared

/-- The declarations have the same name in the same namespace. -/
def Clash (first second : Declaration) : Prop :=
  first.kind = second.kind ∧ first.name = second.name

/-- What is reported of a declaration that repeats the name of another one. -/
def repetition (first second : Declaration) : Repetition :=
  ⟨second.kind, second.name, second.span, first.span.line⟩

end Declaration

open Declaration (Clash repetition)

/-- The messages among some declarations. -/
def messagesOf (declarations : List Declaration) : List Message :=
  declarations.filterMap Declaration.message?

/-- The services among some declarations. -/
def servicesOf (declarations : List Declaration) : List Service :=
  declarations.filterMap Declaration.service?

/-- The schema holds these declarations, each under its own name, in this order. -/
structure Schema.Lists (schema : Schema) (declarations : List Declaration) : Prop where
  messages : schema.messages.entries =
    (messagesOf declarations).map fun message => (message.name, message)
  services : schema.services.entries =
    (servicesOf declarations).map fun service => (service.name, service)

/-- The schema after some declarations, or the first of them that repeats a name. -/
def Schema.declareAll (declarations : List Declaration) : Except Repetition Schema :=
  declarations.foldlM Schema.declare .empty

theorem mem_messagesOf {declarations : List Declaration} {message : Message} :
    message ∈ messagesOf declarations ↔ .message message ∈ declarations := by
  rw [messagesOf, List.mem_filterMap]
  constructor
  · rintro ⟨declaration | declaration, member, same⟩
    · exact Option.some.inj same ▸ member
    · exact nomatch same
  · intro member
    exact ⟨_, member, rfl⟩

theorem mem_servicesOf {declarations : List Declaration} {service : Service} :
    service ∈ servicesOf declarations ↔ .service service ∈ declarations := by
  rw [servicesOf, List.mem_filterMap]
  constructor
  · rintro ⟨declaration | declaration, member, same⟩
    · exact nomatch same
    · exact Option.some.inj same ▸ member
  · intro member
    exact ⟨_, member, rfl⟩

/-! ### Tables of named values -/

namespace SymbolTable

variable {Value : Type} {table : SymbolTable Value} {values : List Value} {name : Value → String}

theorem contains_of_entries (entries : table.entries = values.map fun value => (name value, value))
    {value : Value} (member : value ∈ values) : table.contains (name value) = true := by
  rw [contains_iff_mem, keys, entries, List.map_map]
  exact List.mem_map_of_mem member

theorem find_of_entries (entries : table.entries = values.map fun value => (name value, value))
    {value : Value} (member : value ∈ values) (bound : table.contains (name value) = true) :
    table.find (name value) bound = value := by
  have inEntries : (name value, value) ∈ table.entries := by
    rw [entries]
    exact List.mem_map_of_mem member
  exact Option.some.inj ((get?_eq_find bound).symm.trans (get?_eq_some_iff.mpr inEntries))

theorem not_contains_of_entries
    (entries : table.entries = values.map fun value => (name value, value)) (key : String)
    (free : ∀ value ∈ values, name value ≠ key) : ¬ table.contains key = true := by
  rw [contains_iff_mem, keys, entries, List.map_map, List.mem_map]
  rintro ⟨value, member, same⟩
  exact free value member same

end SymbolTable

/-! ### One more declaration -/

namespace Schema

variable {schema : Schema} {earlier : List Declaration}

/-- A declaration that repeats a name is refused, and the declaration that has the name is
quoted. -/
theorem declare_of_clash (lists : schema.Lists earlier) {first declaration : Declaration}
    (member : first ∈ earlier) (clash : Clash first declaration) :
    schema.declare declaration = .error (repetition first declaration) := by
  obtain ⟨kinds, names⟩ := clash
  cases declaration with
  | message declared =>
    cases first with
    | service _ => exact nomatch kinds
    | message original =>
      have inValues := mem_messagesOf.mpr member
      have same : original.name = declared.name := names
      have taken := SymbolTable.contains_of_entries lists.messages inValues
      have found := SymbolTable.find_of_entries lists.messages inValues taken
      simp only [same] at taken found
      simp only [declare, taken, ↓reduceDIte, found]
      rfl
  | service declared =>
    cases first with
    | message _ => exact nomatch kinds
    | service original =>
      have inValues := mem_servicesOf.mpr member
      have same : original.name = declared.name := names
      have taken := SymbolTable.contains_of_entries lists.services inValues
      have found := SymbolTable.find_of_entries lists.services inValues taken
      simp only [same] at taken found
      simp only [declare, taken, ↓reduceDIte, found]
      rfl

/-- Any other declaration is added after those that are there. -/
theorem declare_of_not_clash (lists : schema.Lists earlier) {declaration : Declaration}
    (free : ∀ first ∈ earlier, ¬ Clash first declaration) :
    ∃ after, schema.declare declaration = .ok after ∧ after.Lists (earlier ++ [declaration]) := by
  cases declaration with
  | message declared =>
    have absent := SymbolTable.not_contains_of_entries lists.messages declared.name
      fun message member same => free (.message message) (mem_messagesOf.mp member) ⟨rfl, same⟩
    refine ⟨_, by rw [declare, dif_neg absent], ?_, ?_⟩
    · simp [messagesOf, SymbolTable.insert, lists.messages, Declaration.message?]
    · simp [servicesOf, lists.services, Declaration.service?]
  | service declared =>
    have absent := SymbolTable.not_contains_of_entries lists.services declared.name
      fun service member same => free (.service service) (mem_servicesOf.mp member) ⟨rfl, same⟩
    refine ⟨_, by rw [declare, dif_neg absent], ?_, ?_⟩
    · simp [messagesOf, lists.messages, Declaration.message?]
    · simp [servicesOf, SymbolTable.insert, lists.services, Declaration.service?]

/-! ### All declarations -/

/-- No declaration has the name of an earlier one in its namespace. -/
def Distinct (declarations : List Declaration) : Prop :=
  declarations.Pairwise fun first second => ¬ Clash first second

theorem distinct_append_singleton {declaration : Declaration} :
    Distinct (earlier ++ [declaration]) ↔
      Distinct earlier ∧ ∀ first ∈ earlier, ¬ Clash first declaration := by
  simp [Distinct, List.pairwise_append]

theorem distinct_cons {declaration : Declaration} {later : List Declaration} :
    Distinct (declaration :: later) ↔
      (∀ second ∈ later, ¬ Clash declaration second) ∧ Distinct later :=
  List.pairwise_cons

/-- Within each namespace the names are distinct. -/
theorem distinct_iff_nodup {declarations : List Declaration} :
    Distinct declarations ↔ ((messagesOf declarations).map Message.name).Nodup ∧
      ((servicesOf declarations).map Service.name).Nodup := by
  induction declarations with
  | nil => simp [Distinct, messagesOf, servicesOf]
  | cons declaration later inductionHypothesis =>
    rw [distinct_cons, inductionHypothesis]
    cases declaration with
    | message declared =>
      have fresh : (∀ second ∈ later, ¬ Clash (.message declared) second) ↔
          declared.name ∉ (messagesOf later).map Message.name := by
        constructor
        · intro free taken
          obtain ⟨other, member, same⟩ := List.mem_map.mp taken
          exact free (.message other) (mem_messagesOf.mp member) ⟨rfl, same.symm⟩
        · intro absent second member clash
          cases second with
          | message other =>
            exact absent (List.mem_map.mpr ⟨other, mem_messagesOf.mpr member, clash.2.symm⟩)
          | service _ => exact nomatch clash.1
      rw [fresh, ← and_assoc, ← List.nodup_cons]
      rfl
    | service declared =>
      have fresh : (∀ second ∈ later, ¬ Clash (.service declared) second) ↔
          declared.name ∉ (servicesOf later).map Service.name := by
        constructor
        · intro free taken
          obtain ⟨other, member, same⟩ := List.mem_map.mp taken
          exact free (.service other) (mem_servicesOf.mp member) ⟨rfl, same.symm⟩
        · intro absent second member clash
          cases second with
          | message _ => exact nomatch clash.1
          | service other =>
            exact absent (List.mem_map.mpr ⟨other, mem_servicesOf.mpr member, clash.2.symm⟩)
      rw [fresh, and_left_comm, ← List.nodup_cons]
      rfl

theorem declareAll_append_singleton (declaration : Declaration) :
    declareAll (earlier ++ [declaration]) =
      (declareAll earlier).bind fun schema => schema.declare declaration := by
  rw [declareAll, List.foldlM_append]
  simp [declareAll]
  rfl

/-- Declarations without a repetition are all listed. -/
theorem exists_declareAll_of_distinct {declarations : List Declaration}
    (distinct : Distinct declarations) :
    ∃ schema, declareAll declarations = .ok schema ∧ schema.Lists declarations := by
  induction declarations using List.reverseRecOn with
  | nil => exact ⟨.empty, rfl, rfl, rfl⟩
  | append_singleton earlier declaration inductionHypothesis =>
    obtain ⟨distinct, free⟩ := distinct_append_singleton.mp distinct
    obtain ⟨schema, declared, lists⟩ := inductionHypothesis distinct
    obtain ⟨after, added, listsAfter⟩ := declare_of_not_clash lists free
    refine ⟨after, ?_, listsAfter⟩
    rw [declareAll_append_singleton, declared]
    exact added

theorem declareAll_of_clash {first declaration : Declaration} (distinct : Distinct earlier)
    (member : first ∈ earlier) (clash : Clash first declaration) :
    declareAll (earlier ++ [declaration]) = .error (repetition first declaration) := by
  obtain ⟨schema, declared, lists⟩ := exists_declareAll_of_distinct distinct
  rw [declareAll_append_singleton, declared]
  exact declare_of_clash lists member clash

theorem distinct_of_declareAll {declarations : List Declaration} {schema : Schema}
    (declared : declareAll declarations = .ok schema) : Distinct declarations := by
  induction declarations using List.reverseRecOn generalizing schema with
  | nil => exact List.Pairwise.nil
  | append_singleton earlier declaration inductionHypothesis =>
    rw [declareAll_append_singleton] at declared
    cases before : declareAll earlier with
    | error repetition => rw [before] at declared; exact nomatch declared
    | ok middle =>
      rw [before] at declared
      have distinct := inductionHypothesis before
      refine distinct_append_singleton.mpr ⟨distinct, fun first member clash => ?_⟩
      have failed := declareAll_of_clash distinct member clash
      rw [declareAll_append_singleton, before] at failed
      exact nomatch failed.symm.trans declared

/-- The first declaration that is refused repeats the name of one before it. -/
theorem exists_clash_of_declareAll {declaration : Declaration} {found : Repetition}
    (distinct : Distinct earlier) (failed : declareAll (earlier ++ [declaration]) = .error found) :
    ∃ first ∈ earlier, Clash first declaration ∧ found = repetition first declaration := by
  by_cases free : ∀ first ∈ earlier, ¬ Clash first declaration
  · obtain ⟨_, added, _⟩ :=
      exists_declareAll_of_distinct (distinct_append_singleton.mpr ⟨distinct, free⟩)
    exact nomatch failed.symm.trans added
  · push Not at free
    obtain ⟨first, member, clash⟩ := free
    have same := declareAll_of_clash distinct member clash
    exact ⟨first, member, clash, Except.error.inj (failed.symm.trans same)⟩

/-- The values of the tables are what is declared, in order. -/
theorem Lists.values {declarations : List Declaration} (lists : schema.Lists declarations) :
    schema.messages.values = messagesOf declarations ∧
      schema.services.values = servicesOf declarations := by
  rw [SymbolTable.values, SymbolTable.values, lists.messages, lists.services, List.map_map,
    List.map_map]
  exact ⟨List.map_id _, List.map_id _⟩

theorem Lists.unique {first second : Schema} {declarations : List Declaration}
    (one : first.Lists declarations) (other : second.Lists declarations) : first = second := by
  obtain ⟨⟨firstMessages, _⟩, ⟨firstServices, _⟩⟩ := first
  obtain ⟨⟨secondMessages, _⟩, ⟨secondServices, _⟩⟩ := second
  cases one.messages.trans other.messages.symm
  cases one.services.trans other.services.symm
  rfl

/-- A table has no room for a repeated name. -/
theorem Lists.distinct {declarations : List Declaration} (lists : schema.Lists declarations) :
    Distinct declarations := by
  have messageKeys := schema.messages.distinct
  have serviceKeys := schema.services.distinct
  rw [lists.messages, List.map_map] at messageKeys
  rw [lists.services, List.map_map] at serviceKeys
  exact distinct_iff_nodup.mpr ⟨messageKeys, serviceKeys⟩

/-- What the declarations of a file leave in the schema. -/
theorem declareAll_eq_ok_iff {declarations : List Declaration} :
    declareAll declarations = .ok schema ↔ schema.Lists declarations := by
  constructor
  · intro declared
    obtain ⟨_, same, lists⟩ := exists_declareAll_of_distinct (distinct_of_declareAll declared)
    cases declared.symm.trans same
    exact lists
  · intro lists
    obtain ⟨other, declared, otherLists⟩ := exists_declareAll_of_distinct lists.distinct
    rw [declared, otherLists.unique lists]

end Schema

end Idl
