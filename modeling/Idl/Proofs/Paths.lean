/-
This file says where paths lead and what writing a file changes. A file is found under its
name in the working folder, and from anywhere by the names on the way from the top. Writing
it leaves every folder and every other file alone, so the path that it was written at leads
to it afterwards, and so does every other path that led there.
-/

import Idl.File.Tree
import Mathlib.Data.List.Induction

namespace Idl.FileTree

variable {tree : FileTree} {location other folder reached : Location} {path name : String}
  {bytes : ByteArray} {writing : Bool}

/-! ### Names -/

/-- What a file or a folder can be called. -/
structure IsFileName (name : String) : Prop where
  nonempty : name ≠ ""
  noDot : name ≠ "."
  noDots : name ≠ ".."
  noSlash : '/' ∉ name.toList
  noNull : '\x00' ∉ name.toList
  short : name.utf8ByteSize ≤ nameLimit

instance : DecidablePred IsFileName := fun name =>
  decidable_of_iff (name ≠ "" ∧ name ≠ "." ∧ name ≠ ".." ∧ '/' ∉ name.toList ∧
      '\x00' ∉ name.toList ∧ name.utf8ByteSize ≤ nameLimit)
    ⟨fun ⟨nonempty, noDot, noDots, noSlash, noNull, short⟩ =>
      ⟨nonempty, noDot, noDots, noSlash, noNull, short⟩,
    fun ⟨nonempty, noDot, noDots, noSlash, noNull, short⟩ =>
      ⟨nonempty, noDot, noDots, noSlash, noNull, short⟩⟩

namespace IsFileName

variable (valid : IsFileName name)

include valid

theorem not_dots : ¬ (name == "." || name == "..") = true := by
  simp [valid.noDot, valid.noDots]

theorem toList_ne_nil : name.toList ≠ [] :=
  mt String.toList_eq_nil_iff.mp valid.nonempty

theorem no_slash_last (front : List Char) :
    ((front ++ name.toList).getLast? == some '/') = false := by
  rw [List.getLast?_append, List.getLast?_eq_some_getLast valid.toList_ne_nil, Option.some_or,
    beq_eq_false_iff_ne]
  exact fun last => valid.noSlash (Option.some.inj last ▸ List.getLast_mem valid.toList_ne_nil)

end IsFileName

/-! ### Where paths lead -/

theorem isFolder_of_prefix (above : location <+: tree.working) : tree.isFolder location = true := by
  rw [isFolder, List.isPrefixOf_iff_prefix.mpr above, Bool.true_or]

/-- Names that are followed through folders lead into the last of them. -/
theorem enter_of_names {names : List String} (valid : ∀ name ∈ names, IsFileName name)
    (way : ∀ passed, passed <+: names → tree.isFolder (folder ++ passed) = true) :
    tree.enter folder names = .ok (folder ++ names) := by
  induction names generalizing folder with
  | nil => rw [enter, List.append_nil]
  | cons name rest inductionHypothesis =>
    obtain ⟨first, others⟩ := List.forall_mem_cons.mp valid
    have here : tree.isFolder (folder ++ [name]) = true :=
      way [name] (List.prefix_append [name] rest)
    have ahead : ∀ passed, passed <+: rest →
        tree.isFolder (folder ++ [name] ++ passed) = true := by
      intro passed on
      rw [List.append_assoc]
      exact way (name :: passed) ((List.prefix_cons_inj name).mpr on)
    rw [enter, if_neg (by simp [first.noDot]), if_neg (by simp [first.noDots]),
      if_neg (Nat.not_lt.mpr first.short), if_pos here, inductionHypothesis others ahead,
      List.append_assoc, List.singleton_append]

/-- A path leads where its last name leads from the folder that the others lead to. -/
theorem locate_of_names {front : List String} (named : pathNames path = front ++ [name])
    (noNull : '\x00' ∉ path.toList) (short : path.utf8ByteSize ≤ pathLimit)
    (entered : tree.enter (tree.start path) front = .ok folder) :
    tree.locate writing path =
      tree.resolve writing (path.toList.getLast? == some '/') folder name := by
  rw [locate, if_neg (by simpa using noNull), if_neg (Nat.not_lt.mpr short), named,
    List.getLast?_concat, List.dropLast_concat]
  simp only [entered]

theorem locate_name (valid : IsFileName name) :
    tree.locate writing name = tree.resolve writing false tree.working name := by
  have named : pathNames name = [] ++ [name] := by
    rw [pathNames, Text.pieces_of_notMem valid.noSlash,
      List.filter_cons_of_pos (by simpa using valid.toList_ne_nil)]
    simp
  have start : tree.start name = tree.working := by
    rw [FileTree.start, if_neg]
    simpa using fun first => valid.noSlash (List.mem_of_mem_head? first)
  have limits : nameLimit ≤ pathLimit := by decide
  rw [locate_of_names named valid.noNull (Nat.le_trans valid.short limits) (by rw [start, enter])]
  rw [← List.nil_append name.toList, valid.no_slash_last]

theorem resolve_name (valid : IsFileName name) (file : tree.isFolder (folder ++ [name]) = false) :
    tree.resolve writing false folder name = .ok
      (match tree.content? (folder ++ [name]) with
      | some bytes => .file (folder ++ [name]) bytes
      | none => .vacant (folder ++ [name])) := by
  rw [resolve, if_neg valid.not_dots, if_neg (by simp), if_neg (Nat.not_lt.mpr valid.short), file,
    if_neg Bool.false_ne_true]
  cases tree.content? (folder ++ [name]) <;> rfl

/-- A file in the working folder is seen under its name. -/
theorem view_name (valid : IsFileName name)
    (file : tree.isFolder (tree.working ++ [name]) = false) :
    tree.view name =
      match tree.content? (tree.working ++ [name]) with
      | some bytes => .ok ⟨bytes.size, .ok bytes⟩
      | none => .error .notFound := by
  rw [view, locate_name valid, resolve_name valid file]
  cases tree.content? (tree.working ++ [name]) <;> rfl

/-- The path that leads from the top to a location. -/
def pathTo (location : Location) : String :=
  String.ofList (location.flatMap fun name => '/' :: name.toList)

theorem pathNames_pathTo (valid : ∀ name ∈ location, IsFileName name) :
    pathNames (pathTo location) = location := by
  have cut : Text.pieces '/' (location.flatMap fun name => '/' :: name.toList) =
      [] :: location.map String.toList := by
    induction location using List.reverseRecOn with
    | nil => rfl
    | append_singleton front name inductionHypothesis =>
      rw [List.forall_mem_append, List.forall_mem_singleton] at valid
      rw [List.flatMap_append, List.flatMap_singleton, Text.pieces_append_separator,
        inductionHypothesis valid.1, Text.pieces_of_notMem valid.2.noSlash, List.map_append,
        List.cons_append, List.map_singleton]
  have kept : (location.map String.toList).filter (fun piece => !piece.isEmpty) =
      location.map String.toList := by
    rw [List.filter_eq_self]
    intro piece member
    obtain ⟨name, inside, rfl⟩ := List.mem_map.mp member
    simpa using (valid name inside).toList_ne_nil
  rw [pathNames, pathTo, String.toList_ofList, cut, List.filter_cons_of_neg (by simp), kept,
    List.map_map]
  simp

/-- Wherever there could be a file, one can be written by the path from the top, whatever folder is
worked in. -/
theorem destination_pathTo (valid : ∀ part ∈ folder ++ [name], IsFileName part)
    (way : ∀ passed, passed <+: folder → tree.isFolder passed = true)
    (file : tree.isFolder (folder ++ [name]) = false)
    (short : (pathTo (folder ++ [name])).utf8ByteSize ≤ pathLimit) :
    tree.destination (pathTo (folder ++ [name])) = .ok (folder ++ [name]) := by
  have inFolder := (List.forall_mem_append.mp valid).1
  have last := (List.forall_mem_append.mp valid).2 name List.mem_cons_self
  have written : (pathTo (folder ++ [name])).toList =
      (folder.flatMap fun name => '/' :: name.toList) ++ ['/'] ++ name.toList := by
    rw [pathTo, String.toList_ofList, List.flatMap_append, List.flatMap_singleton,
      List.append_assoc, List.singleton_append]
  have start : tree.start (pathTo (folder ++ [name])) = [] := by
    rw [FileTree.start, if_pos]
    cases folder <;> simp [pathTo]
  have noNull : '\x00' ∉ (pathTo (folder ++ [name])).toList := by
    rw [pathTo, String.toList_ofList, List.mem_flatMap]
    rintro ⟨part, member, inPart⟩
    rcases List.mem_cons.mp inPart with slash | inside
    · exact absurd slash (by decide)
    · exact (valid part member).noNull inside
  have entered : tree.enter (tree.start (pathTo (folder ++ [name]))) folder = .ok folder := by
    rw [start]
    exact enter_of_names inFolder way
  rw [destination, locate_of_names (pathNames_pathTo valid) noNull short entered, written,
    last.no_slash_last, resolve_name last file]
  cases tree.content? (folder ++ [name]) <;> rfl

/-! ### Writing one file -/

private theorem lookup_cons_eq_ite (file : Location × ByteArray)
    (rest : List (Location × ByteArray)) :
    (file :: rest).lookup other = if other = file.1 then some file.2 else rest.lookup other := by
  by_cases same : other = file.1
  · rw [if_pos same, same]
    exact List.lookup_cons_self
  · rw [if_neg same, List.lookup_cons, beq_false_of_ne same]

private theorem lookup_replaced (files : List (Location × ByteArray)) :
    (files.map fun file => if file.1 == location then (location, bytes) else file).lookup other =
      if other = location then (files.lookup location).map fun _ => bytes
      else files.lookup other := by
  induction files with
  | nil => simp
  | cons file rest inductionHypothesis =>
    rw [List.map_cons, lookup_cons_eq_ite, lookup_cons_eq_ite, lookup_cons_eq_ite,
      inductionHypothesis]
    by_cases here : file.1 = location
    · by_cases asked : other = location <;> simp [here, asked]
    · by_cases asked : other = location
      · simp [here, asked, Ne.symm here]
      · simp [here, asked]

/-- One file comes to hold the bytes, and the others hold what they held. -/
theorem content?_put :
    (tree.put location bytes).content? other =
      if other = location then some bytes else tree.content? other := by
  rw [put, content?]
  split
  · next there =>
    obtain ⟨held, same⟩ := Option.isSome_iff_exists.mp there
    rw [lookup_replaced, ← content?, ← content?, same]
    rfl
  · next vacant =>
    rw [List.lookup_append, lookup_cons_eq_ite, ← content?]
    split
    · next same =>
      rw [same, Option.not_isSome_iff_eq_none.mp vacant]
      rfl
    · exact Option.or_none

theorem isFolder_put : (tree.put location bytes).isFolder other = tree.isFolder other := rfl

theorem start_put : (tree.put location bytes).start path = tree.start path := rfl

/-- The folders on the way to a file are still there when it has been written. -/
theorem enter_put {names : List String} (entered : tree.enter folder names = .ok reached) :
    (tree.put location bytes).enter folder names = .ok reached := by
  induction names generalizing folder with
  | nil => exact entered
  | cons name rest inductionHypothesis =>
    rw [enter] at entered ⊢
    rw [isFolder_put]
    split_ifs at entered ⊢
    all_goals exact inductionHypothesis entered

theorem bind_destination_folder (entered : Except FileFault Location) :
    (entered.map Target.folder).bind Target.destination ≠ .ok location := by
  cases entered <;> exact nofun

/-- A text goes where the last name of a path leads, unless there is a folder. -/
theorem of_resolve_destination {slash : Bool}
    (found : (tree.resolve true slash folder name).bind Target.destination = .ok location) :
    location = folder ++ [name] ∧ slash = false ∧ ¬ (name == "." || name == "..") = true ∧
      ¬ nameLimit < name.utf8ByteSize ∧ ¬ tree.isFolder (folder ++ [name]) = true := by
  rw [resolve] at found
  split_ifs at found with dots slashed long isFolder slashes
  · exact absurd found (bind_destination_folder _)
  · cases found
  · cases found
  · cases found
  · exact absurd slashes slashed
  · refine ⟨?_, Bool.eq_false_iff.mpr slashes, dots, long, isFolder⟩
    cases held : tree.content? (folder ++ [name]) with
    | none => rw [held] at found; cases found; rfl
    | some bytes => rw [held] at found; cases found; rfl

/-- What has been written is found again. -/
theorem resolve_put {slash : Bool}
    (found : (tree.resolve true slash folder name).bind Target.destination = .ok location) :
    (tree.put location bytes).resolve false slash folder name = .ok (.file location bytes) := by
  obtain ⟨rfl, rfl, dots, long, isFolder⟩ := of_resolve_destination found
  rw [resolve, if_neg dots, if_neg (by simp), if_neg long, isFolder_put, if_neg isFolder,
    content?_put, if_pos rfl]
  rfl

/-- What has been written is seen at every path that leads to it. -/
theorem view_put (found : tree.destination path = .ok location) :
    (tree.put location bytes).view path = .ok ⟨bytes.size, .ok bytes⟩ := by
  have located : (tree.put location bytes).locate false path = .ok (.file location bytes) := by
    rw [destination, locate] at found
    rw [locate, start_put]
    by_cases null : path.toList.contains '\x00' = true
    · rw [if_pos null] at found
      cases found
    by_cases long : pathLimit < path.utf8ByteSize
    · rw [if_neg null, if_pos long] at found
      cases found
    rw [if_neg null, if_neg long] at found ⊢
    cases named : (pathNames path).getLast? with
    | none =>
      simp only [named] at found
      split at found <;> cases found
    | some name =>
      simp only [named] at found ⊢
      cases entered : tree.enter (tree.start path) (pathNames path).dropLast with
      | error fault => rw [entered] at found; cases found
      | ok folder =>
        simp only [entered] at found
        simp only [enter_put entered, resolve_put found]
  rw [view, located]

end Idl.FileTree
