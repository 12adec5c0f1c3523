/-
This file says what dumping a schema does to the files. Nothing is written before the
input has compiled, and then one file is, if one is asked for: the file that the output
path leads to holds the schema and nothing else, and every other file and every folder is
as it was. Where a path leads is for the file system to say. Where it leads to no file that
can be written, nothing is, and the report names the path. The input may be the file that is
written, since it is read before.
-/

import Idl.Proofs.Checking

namespace Idl

/-! ### Dumping a schema -/

/-- A failure to read or to write a file is reported with its path. -/
theorem CompileError.render_file (colored : Bool) (path : String) (fault : FileFault) :
    (CompileError.file path fault).diagnostic.render colored =
      "I/O error on " ++ path ++ ": " ++ fault.message ++ ":\n[" ++ path ++ ":0]\n" := by
  have zero : toString (0 : UInt32).toNat = "0" := by decide
  have location : (CompileError.file path fault).diagnostic.location = path ++ ":0" := by
    simp only [Diagnostic.location, CompileError.diagnostic, Diagnostic.atLine, zero,
      String.append_assoc]
    rfl
  have rows : (CompileError.file path fault).diagnostic.rows colored =
      ['[' :: (path.toList ++ [':', '0', ']'])] := by
    show ['[' :: ((CompileError.file path fault).diagnostic.location.toList ++ [']'])] = _
    rw [location, String.toList_append, List.append_assoc]
    simp
  have opens : ":\n[".toList = [':', '\n', '['] := by decide
  have closes : ":0]\n".toList = [':', '0', ']', '\n'] := by decide
  apply String.toList_injective
  rw [Diagnostic.render, String.toList_ofList, rows]
  show ("I/O error on " ++ path ++ ": " ++ fault.message).toList ++ _ = _
  simp only [String.toList_append, List.append_assoc, List.flatMap_singleton, opens, closes,
    List.cons_append, List.nil_append]

namespace Command

theorem dump_into_run {State : Type} {access : FileAccess (StateM State)} {limit : Nat}
    {colored : Bool} (input output : String) (state : State) :
    (dump access limit colored input (some output)).run state =
      match compileView limit input (access.view input state).1 with
      | .error error => (failure false colored [error.diagnostic], (access.view input state).2)
      | .ok schema =>
        match (access.write output schema.dump).run (access.view input state).2 with
        | (.error fault, later) =>
          (failure false colored [(CompileError.file output fault).diagnostic], later)
        | (.ok _, later) => (⟨0, "", ""⟩, later) := by
  have looked : StateT.run (access.view input) state = access.view input state := rfl
  simp only [dump, FileAccess.compileFile, bind_assoc, pure_bind, StateT.run_bind, looked]
  obtain ⟨view, later⟩ := access.view input state
  conv_lhs => rw [show (view, later) = pure (f := Id) (view, later) from rfl, pure_bind]
  cases compileView limit input view with
  | error error => rfl
  | ok schema =>
    rw [StateT.run_bind]
    dsimp only
    obtain ⟨written, last⟩ := StateT.run (access.write output schema.dump) later
    cases written <;> rfl

/-- A single report on its own is followed by what the command came to. -/
theorem failure_singleton (colored : Bool) (diagnostic : Diagnostic) :
    failure false colored [diagnostic] =
      ⟨1, "", diagnostic.render colored ++ "compile failed!\n"⟩ := by
  rw [failure, readerReport, List.map_singleton, String.join_cons, String.join_nil,
    String.append_empty]
  rfl

section

variable {system : FileSystem} {limit : Nat} {colored : Bool} {input path : String}
  {tree : FileTree}

/-- The dump of a file that does not compile ends with a report, whatever is to be written. -/
theorem dump_of_error {error : CompileError} (output : Option String)
    (fails : compileView limit input (system.shown tree input) = .error error) :
    (dump system.access limit colored input output).run tree =
      (failure false colored [error.diagnostic], tree) := by
  have seen : compileView limit input (system.access.view input tree).1 = .error error := fails
  cases output with
  | none => rw [dump_run, seen]; rfl
  | some path => rw [dump_into_run, seen]; rfl

variable {schema : Schema}
  (compiles : compileView limit input (system.shown tree input) = .ok schema)

include compiles

theorem dump_of_ok :
    (dump system.access limit colored input none).run tree =
      (⟨0, schema.dump ++ "\n", ""⟩, tree) := by
  have seen : compileView limit input (system.access.view input tree).1 = .ok schema := compiles
  rw [dump_run, seen]
  rfl

theorem dump_into_of_ok :
    (dump system.access limit colored input (some path)).run tree =
      match system.destination tree path with
      | .error fault => (failure false colored [(CompileError.file path fault).diagnostic], tree)
      | .ok location => (⟨0, "", ""⟩, tree.put location schema.dump.toUTF8) := by
  have seen : compileView limit input (system.access.view input tree).1 = .ok schema := compiles
  have kept : (system.access.view input tree).2 = tree := rfl
  have written : (system.access.write path schema.dump).run tree =
      match system.destination tree path with
      | .error fault => (Except.error fault, tree)
      | .ok location => (Except.ok (), tree.put location schema.dump.toUTF8) := rfl
  rw [dump_into_run, seen, kept]
  dsimp only
  rw [written]
  cases system.destination tree path <;> rfl

end

/-- Dumping writes nothing unless the input compiles, and then what it reports: the schema is shown,
or it is all that the one file holds that the output path leads to in the file system, whether or
not it was the input, and everything else is as it was; or the report is that the path cannot be
written. What has been written is seen at every path whose names lead to the file. -/
theorem dump_writes_one_file (system : FileSystem) (terminal : Bool) (settings : Settings)
    (input : String) (output : Option String) (tree : FileTree) :
    let compiled := ((system.access.compileFile settings.byteLimit input).run tree).1
    let ended := (run system.access terminal (.dump input output settings)).run tree
    let report := fun error : CompileError =>
      error.diagnostic.render (settings.color.enabled terminal) ++ "compile failed!\n"
    (∀ error, compiled = .error error → ended = (⟨1, "", report error⟩, tree)) ∧
    ∀ schema, compiled = .ok schema →
      (output = none → ended = (⟨0, schema.dump ++ "\n", ""⟩, tree)) ∧
      ∀ path, output = some path →
        (∀ fault, system.destination tree path = .error fault →
          ended = (⟨1, "", report (.file path fault)⟩, tree) ∧
          report (.file path fault) = "I/O error on " ++ path ++ ": " ++ fault.message ++
            ":\n[" ++ path ++ ":0]\n" ++ "compile failed!\n") ∧
        ∀ location, system.destination tree path = .ok location →
          ended.1 = ⟨0, "", ""⟩ ∧
          ended.2.content? location = some schema.dump.toUTF8 ∧
          (∀ other, other ≠ location → ended.2.content? other = tree.content? other) ∧
          ended.2.folders = tree.folders ∧ ended.2.working = tree.working ∧
          ∀ reading, tree.destination reading = .ok location →
            ended.2.view reading = .ok ⟨schema.dump.toUTF8.size, .ok schema.dump.toUTF8⟩ := by
  intro compiled ended report
  have shown : compiled = compileView settings.byteLimit input (system.shown tree input) := rfl
  refine ⟨fun error fails => ?_, fun schema compiles => ⟨?_, ?_⟩⟩
  · exact (dump_of_error output (shown.symm.trans fails)).trans
      (congrArg (·, tree) (failure_singleton _ _))
  · rintro rfl
    exact dump_of_ok (shown.symm.trans compiles)
  · rintro path rfl
    have run : ended = match system.destination tree path with
        | .error fault => (failure false (settings.color.enabled terminal)
            [(CompileError.file path fault).diagnostic], tree)
        | .ok location => (⟨0, "", ""⟩, tree.put location schema.dump.toUTF8) :=
      dump_into_of_ok (shown.symm.trans compiles)
    refine ⟨fun fault refused => ⟨?_, ?_⟩, fun location found => ?_⟩
    · rw [refused] at run
      exact run.trans (congrArg (·, tree) (failure_singleton _ _))
    · exact congrArg (· ++ "compile failed!\n") (CompileError.render_file _ path fault)
    · rw [found] at run
      rw [run]
      refine ⟨rfl, ?_, ?_, rfl, rfl, fun reading leads => FileTree.view_put leads⟩
      · rw [FileTree.content?_put, if_pos rfl]
      · intro other differs
        rw [FileTree.content?_put, if_neg differs]

/-! ### A file that is dumped onto itself -/

/-- What the first text on the shelf declares. -/
def shelfSchema : Schema where
  messages := ⟨[("Size", ⟨"Size", [⟨⟨"int32", ⟨2, 1, 5⟩⟩, "width", ⟨2, 7, 5⟩⟩], ⟨1, 8, 4⟩⟩)],
    List.nodup_singleton _⟩
  services := .empty

theorem shelf_compiles :
    compileView defaultByteLimit "size.idl" (shelf.view "size.idl") = .ok shelfSchema := by
  have small : shelfText.toUTF8.size < defaultByteLimit := by decide
  have compiled : compileText "size.idl" shelfText = .ok shelfSchema := by cbv
  rw [shelf_view_size, compileView, fileText_of_small small]
  exact compiled

theorem shelf_destination : shelf.destination "/work/size.idl" = .ok ["work", "size.idl"] := by
  have path : "/work/size.idl" = FileTree.pathTo (shelf.working ++ ["size.idl"]) := by decide
  rw [path]
  exact FileTree.destination_pathTo (by decide) (fun _ => FileTree.isFolder_of_prefix) (by decide)
    (by decide)

/-- The schema replaces the text that it was read from, to which a path from the top leads, and is
found under the name of that text. -/
theorem shelf_dumped_onto_itself :
    let ended := (run FileTree.access true
      (.dump "size.idl" (some "/work/size.idl") ⟨.never, defaultByteLimit⟩)).run shelf
    ended.1 = ⟨0, "", ""⟩ ∧
      ended.2.content? ["work", "size.idl"] = some shelfSchema.dump.toUTF8 ∧
      ended.2.content? ["work", "unbound.idl"] = some unboundText.toUTF8 := by
  obtain ⟨_, compiles⟩ := dump_writes_one_file .plain true ⟨.never, defaultByteLimit⟩ "size.idl"
    (some "/work/size.idl") shelf
  obtain ⟨ends, written, others, _⟩ :=
    ((compiles shelfSchema shelf_compiles).2 "/work/size.idl" rfl).2 _ shelf_destination
  exact ⟨ends, written, (others ["work", "unbound.idl"] (by decide)).trans rfl⟩

end Command

end Idl
