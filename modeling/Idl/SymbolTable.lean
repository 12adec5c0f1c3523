/-
This file holds the declarations of one namespace in the order in which they were
made. Each key is bound once, and a binding is never moved or freed, so the table
carries the fact that its keys are distinct. The view of a table is the function
that looks a key up; each operation is described by what it does to that view and
to the list of keys.
-/

namespace Idl

/-- Values bound to distinct keys, in the order in which they were bound. -/
structure SymbolTable (Value : Type) where
  entries : List (String × Value)
  distinct : (entries.map Prod.fst).Nodup
deriving DecidableEq, Repr

namespace SymbolTable

variable {Value Other : Type}

/-- The table without a binding. -/
def empty : SymbolTable Value := ⟨[], List.nodup_nil⟩

instance : Inhabited (SymbolTable Value) := ⟨empty⟩

/-- The bound keys in order. -/
def keys (table : SymbolTable Value) : List String := table.entries.map Prod.fst

/-- The bound values in order. -/
def values (table : SymbolTable Value) : List Value := table.entries.map Prod.snd

/-- The number of bindings. -/
def size (table : SymbolTable Value) : Nat := table.entries.length

/-- The key is bound. -/
def contains (table : SymbolTable Value) (key : String) : Bool := table.keys.contains key

/-- The value that a key is bound to. -/
def get? (table : SymbolTable Value) (key : String) : Option Value := table.entries.lookup key

/-! ### Looking up -/

theorem nodup_keys (table : SymbolTable Value) : table.keys.Nodup := table.distinct

private theorem lookup_isSome (entries : List (String × Value)) (key : String) :
    (entries.lookup key).isSome = (entries.map Prod.fst).contains key := by
  induction entries with
  | nil => rfl
  | cons entry rest inductionHypothesis =>
    obtain ⟨name, value⟩ := entry
    by_cases same : key = name
    · simp [same]
    · have differ : (key == name) = false := by simpa using same
      simp [List.lookup_cons, differ, inductionHypothesis]

theorem isSome_get? (table : SymbolTable Value) (key : String) :
    (table.get? key).isSome = table.contains key :=
  lookup_isSome table.entries key

theorem contains_iff_mem {table : SymbolTable Value} {key : String} :
    table.contains key = true ↔ key ∈ table.keys := by
  simp [contains]

/-- The value of a key that is known to be bound. -/
def find (table : SymbolTable Value) (key : String) (bound : table.contains key = true) : Value :=
  (table.get? key).get ((table.isSome_get? key).trans bound)

theorem get?_eq_find {table : SymbolTable Value} {key : String}
    (bound : table.contains key = true) : table.get? key = some (table.find key bound) :=
  (Option.some_get _).symm

private theorem lookup_eq_some_iff {entries : List (String × Value)}
    (distinct : (entries.map Prod.fst).Nodup) (key : String) (value : Value) :
    entries.lookup key = some value ↔ (key, value) ∈ entries := by
  induction entries with
  | nil => simp
  | cons entry rest inductionHypothesis =>
    obtain ⟨name, other⟩ := entry
    rw [List.map_cons, List.nodup_cons] at distinct
    by_cases same : key = name
    · subst same
      have absent : (key, value) ∉ rest := fun member =>
        distinct.1 (List.mem_map.mpr ⟨_, member, rfl⟩)
      simp [absent, eq_comm]
    · have differ : (key == name) = false := by simpa using same
      simp [List.lookup_cons, differ, inductionHypothesis distinct.2, same]

/-- Looking a key up finds what it is bound to. -/
theorem get?_eq_some_iff {table : SymbolTable Value} {key : String} {value : Value} :
    table.get? key = some value ↔ (key, value) ∈ table.entries :=
  lookup_eq_some_iff table.distinct key value

/-! ### Binding a key -/

/-- The table with a new key bound after all others. -/
def insert (table : SymbolTable Value) (key : String) (value : Value)
    (fresh : table.contains key = false) : SymbolTable Value where
  entries := table.entries ++ [(key, value)]
  distinct := by
    have absent : key ∉ table.entries.map Prod.fst := fun member => by
      rw [contains_iff_mem.mpr member] at fresh
      exact Bool.noConfusion fresh
    rw [List.map_append, List.nodup_append]
    refine ⟨table.distinct, by simp, fun name member other single same => ?_⟩
    rw [List.map_cons, List.map_nil, List.mem_singleton] at single
    subst same single
    exact absent member

theorem keys_insert {table : SymbolTable Value} {key : String} {value : Value}
    (fresh : table.contains key = false) :
    (table.insert key value fresh).keys = table.keys ++ [key] := by
  simp [keys, insert]

theorem values_insert {table : SymbolTable Value} {key : String} {value : Value}
    (fresh : table.contains key = false) :
    (table.insert key value fresh).values = table.values ++ [value] := by
  simp [values, insert]

theorem contains_insert {table : SymbolTable Value} {key : String} {value : Value}
    (fresh : table.contains key = false) (other : String) :
    (table.insert key value fresh).contains other = (table.contains other || other == key) := by
  rw [Bool.eq_iff_iff, contains_iff_mem, keys_insert, List.mem_append, List.mem_singleton,
    Bool.or_eq_true, contains_iff_mem, beq_iff_eq]

/-! ### Changing values in place -/

/-- The table with each value replaced, its key untouched. -/
def mapEntries (change : String → Value → Other) (table : SymbolTable Value) :
    SymbolTable Other where
  entries := table.entries.map fun entry => (entry.1, change entry.1 entry.2)
  distinct := by
    rw [List.map_map]
    exact table.distinct

/-- The table with each value replaced. -/
def map (change : Value → Other) (table : SymbolTable Value) : SymbolTable Other :=
  table.mapEntries fun _ value => change value

/-- The table with the value of one key replaced; nothing changes if the key is not bound. -/
def modify (key : String) (change : Value → Value) (table : SymbolTable Value) :
    SymbolTable Value :=
  table.mapEntries fun name value => if name == key then change value else value

@[simp] theorem keys_mapEntries (change : String → Value → Other) (table : SymbolTable Value) :
    (table.mapEntries change).keys = table.keys := by
  simp [keys, mapEntries]

@[simp] theorem keys_map (change : Value → Other) (table : SymbolTable Value) :
    (table.map change).keys = table.keys :=
  keys_mapEntries _ table

@[simp] theorem keys_modify (key : String) (change : Value → Value) (table : SymbolTable Value) :
    (table.modify key change).keys = table.keys :=
  keys_mapEntries _ table

theorem values_map (change : Value → Other) (table : SymbolTable Value) :
    (table.map change).values = table.values.map change := by
  simp [values, map, mapEntries]

@[simp] theorem contains_map (change : Value → Other) (table : SymbolTable Value) (key : String) :
    (table.map change).contains key = table.contains key := by
  simp [contains]

private theorem lookup_mapSnd (change : Value → Other) (entries : List (String × Value))
    (key : String) :
    (entries.map fun entry => (entry.1, change entry.2)).lookup key =
      (entries.lookup key).map change := by
  induction entries with
  | nil => rfl
  | cons entry rest inductionHypothesis =>
    obtain ⟨name, value⟩ := entry
    by_cases same : key = name
    · simp [same]
    · have differ : (key == name) = false := by simpa using same
      simp [List.lookup_cons, differ, inductionHypothesis]

theorem map_map {Third : Type} (first : Value → Other) (second : Other → Third)
    (table : SymbolTable Value) :
    (table.map first).map second = table.map fun value => second (first value) := by
  simp [map, mapEntries]

theorem get?_map (change : Value → Other) (table : SymbolTable Value) (key : String) :
    (table.map change).get? key = (table.get? key).map change :=
  lookup_mapSnd change table.entries key

theorem find_map (change : Value → Other) (table : SymbolTable Value) {key : String}
    (bound : (table.map change).contains key = true) :
    (table.map change).find key bound =
      change (table.find key ((contains_map change table key).symm.trans bound)) := by
  refine Option.some.inj ((get?_eq_find bound).symm.trans ?_)
  rw [get?_map, get?_eq_find ((contains_map change table key).symm.trans bound), Option.map_some]

theorem insert_map (change : Value → Other) (table : SymbolTable Value) {key : String}
    (value : Value) (fresh : table.contains key = false) :
    (table.map change).insert key (change value) ((contains_map change table key).trans fresh) =
      (table.insert key value fresh).map change := by
  simp [insert, map, mapEntries]

/-! ### Comparing tables -/

/-- Two tables bind the same keys to alike values, in whatever order. -/
def alikeBy (alike : Value → Value → Bool) (first second : SymbolTable Value) : Bool :=
  first.size == second.size &&
    first.entries.all fun entry =>
      match second.get? entry.1 with
      | none => false
      | some other => alike entry.2 other

end SymbolTable

end Idl
