/-
This file says what checking several files comes to. Each file has a verdict of its own,
which depends on what is seen of that file and on nothing else; the outcomes are put
together in order up to the first file that is wrong. So the run of all files is the fold
of the runs of single files, what stands behind the first wrong file has no bearing on it,
and no file is written.
-/

import Idl.Proofs.Agreement
import Idl.Proofs.JsonText

namespace Idl

/-- Looking at a file shows what is there and changes nothing. -/
structure FileAccess.Shows {State : Type} (access : FileAccess (StateM State))
    (seen : State → String → Except FileFault FileView) : Prop where
  view : ∀ path state, (access.view path).run state = (seen state path, state)

theorem FileTree.shows_access : FileTree.access.Shows FileTree.view := ⟨fun _ _ => rfl⟩

namespace Command

/-! ### Outcomes one after another -/

/-- Nothing has been done, and nothing is wrong. -/
def Outcome.done : Outcome := ⟨0, "", ""⟩

/-- The outcome of two runs, the second of which is made only if the first one succeeds. -/
def Outcome.andThen (first second : Outcome) : Outcome :=
  if first.code = 0 then
    ⟨second.code, first.output ++ second.output, first.errors ++ second.errors⟩
  else first

theorem Outcome.andThen_of_right (text : String) (second : Outcome) :
    andThen ⟨0, text, ""⟩ second = { second with output := text ++ second.output } := by
  rw [andThen, if_pos rfl, String.empty_append]

theorem Outcome.andThen_failure (json colored : Bool) (reports : List Diagnostic)
    (second : Outcome) : (failure json colored reports).andThen second =
      failure json colored reports := by
  rw [andThen, if_neg (by rw [code_failure]; decide)]

theorem Outcome.andThen_done (first : Outcome) : first.andThen .done = first := by
  obtain ⟨code, output, errors⟩ := first
  rw [andThen]
  split
  · next right => rw [done, String.append_empty, String.append_empty, ← right]
  · rfl

/-- What is left of the check of one file. -/
def fileOutcome (json colored : Bool) (path : String)
    (checked : Except CompileError (List Violation)) : Outcome :=
  match checkReports checked with
  | [] => ⟨0, okLine path, ""⟩
  | first :: others => failure json colored (first :: others)

theorem checkReports_eq_nil_iff {checked : Except CompileError (List Violation)} :
    checkReports checked = [] ↔ checked = .ok [] := by
  cases checked with
  | error error => exact ⟨nofun, nofun⟩
  | ok violations => simp [checkReports]

section Folds

variable {json colored : Bool} {path : String}
  {checked : String → Except CompileError (List Violation)} {files : List String}

theorem fileOutcome_of_right (right : checked path = .ok []) :
    fileOutcome json colored path (checked path) = ⟨0, okLine path, ""⟩ := by
  rw [fileOutcome, right]
  rfl

theorem fileOutcome_of_wrong (wrong : checked path ≠ .ok []) :
    fileOutcome json colored path (checked path) =
      failure json colored (checkReports (checked path)) := by
  rw [fileOutcome]
  split
  · next nothing => exact absurd (checkReports_eq_nil_iff.mp nothing) wrong
  · next reports => rw [reports]

/-- The outcome of the check of several files with these verdicts. -/
def filesOutcome (json colored : Bool) (checked : String → Except CompileError (List Violation))
    (files : List String) : Outcome :=
  (files.map fun file => fileOutcome json colored file (checked file)).foldr .andThen .done

theorem filesOutcome_cons (file : String) (rest : List String) :
    filesOutcome json colored checked (file :: rest) =
      (fileOutcome json colored file (checked file)).andThen
        (filesOutcome json colored checked rest) :=
  rfl

theorem filesOutcome_of_right (right : ∀ file ∈ files, checked file = .ok []) :
    filesOutcome json colored checked files = ⟨0, String.join (files.map okLine), ""⟩ := by
  induction files with
  | nil => rfl
  | cons file rest inductionHypothesis =>
    obtain ⟨fileRight, restRight⟩ := List.forall_mem_cons.mp right
    rw [filesOutcome_cons, fileOutcome_of_right fileRight, inductionHypothesis restRight,
      Outcome.andThen_of_right, List.map_cons, String.join_cons]

/-- What stands behind a file that is wrong is not checked. -/
theorem filesOutcome_of_wrong {before : List String} {file : String} (after : List String)
    (right : ∀ earlier ∈ before, checked earlier = .ok []) (wrong : checked file ≠ .ok []) :
    filesOutcome json colored checked (before ++ file :: after) =
      { failure json colored (checkReports (checked file)) with
        output := String.join (before.map okLine) ++
          (failure json colored (checkReports (checked file))).output } := by
  induction before with
  | nil =>
    rw [List.nil_append, filesOutcome_cons, fileOutcome_of_wrong wrong, Outcome.andThen_failure,
      List.map_nil, String.join_nil, String.empty_append]
  | cons earlier rest inductionHypothesis =>
    obtain ⟨earlierRight, restRight⟩ := List.forall_mem_cons.mp right
    rw [List.cons_append, filesOutcome_cons, fileOutcome_of_right earlierRight,
      inductionHypothesis restRight, Outcome.andThen_of_right, List.map_cons, String.join_cons,
      String.append_assoc]

/-- Either all files are right, or one of them is the first that is wrong. -/
theorem right_or_exists_wrong (checked : String → Except CompileError (List Violation))
    (files : List String) :
    (∀ file ∈ files, checked file = .ok []) ∨ ∃ before file after,
      files = before ++ file :: after ∧ (∀ earlier ∈ before, checked earlier = .ok []) ∧
        checked file ≠ .ok [] := by
  induction files with
  | nil => exact Or.inl nofun
  | cons file rest inductionHypothesis =>
    by_cases right : checked file = .ok []
    · rcases inductionHypothesis with restRight | ⟨before, wrong, after, rfl, early, found⟩
      · exact Or.inl (List.forall_mem_cons.mpr ⟨right, restRight⟩)
      · exact Or.inr ⟨file :: before, wrong, after, rfl, List.forall_mem_cons.mpr ⟨right, early⟩,
          found⟩
    · exact Or.inr ⟨[], file, rest, rfl, nofun, right⟩

end Folds

/-! ### Checking files -/

section Running

variable {State : Type} {access : FileAccess (StateM State)}
  {seen : State → String → Except FileFault FileView}

theorem check_run (shows : access.Shows seen) (limit : Nat) (json colored : Bool)
    (files : List String) (state : State) :
    (check access limit json colored files).run state =
      (filesOutcome json colored (fun file => checkView limit file (seen state file)) files,
        state) := by
  induction files with
  | nil => rfl
  | cons file rest inductionHypothesis =>
    rw [check_cons_run, show access.view file state = (seen state file, state) from
      shows.view file state, inductionHypothesis, filesOutcome_cons, fileOutcome]
    cases checkReports (checkView limit file (seen state file)) with
    | nil => rw [Outcome.andThen_of_right]
    | cons first others => rw [Outcome.andThen_failure]

theorem checkFile_run (shows : access.Shows seen) (limit : Nat) (file : String) (state : State) :
    ((access.checkFile limit file).run state).1 = checkView limit file (seen state file) :=
  congrArg (fun looked : _ × State => checkView limit file looked.1) (shows.view file state)

/-- Checking files is a fold that stops at the first wrong file: those before it are named, all
that is wrong with it is reported in the form that is asked for, those behind it have no bearing
on what comes of it, and nothing is written. -/
theorem check_stops_at_first_wrong (shows : access.Shows seen) (terminal json : Bool)
    (settings : Settings) (files : List String) (state : State) :
    let checked := fun file => ((access.checkFile settings.byteLimit file).run state).1
    let outcome := fun (files : List String) (state : State) =>
      ((run access terminal (.check files json settings)).run state).1
    let okLines := fun (files : List String) =>
      String.join (files.map fun file => file ++ ": ok\n")
    ((run access terminal (.check files json settings)).run state).2 = state ∧
    outcome files state = (files.map fun file => outcome [file] state).foldr .andThen .done ∧
    ((outcome files state).code = 0 ↔ ∀ file ∈ files, checked file = .ok []) ∧
    ((outcome files state).code = 0 →
      (outcome files state).output = okLines files ∧ (outcome files state).errors = "") ∧
    ((outcome files state).code ≠ 0 → ∃ before file after,
      files = before ++ file :: after ∧ (∀ earlier ∈ before, checked earlier = .ok []) ∧
      checked file ≠ .ok [] ∧
      let reports := checkReports (checked file)
      (outcome files state).code = 1 ∧
      (outcome files state).output = okLines before ++
        (if json then String.join (reports.map fun report => report.json.compact ++ "\n")
          else "") ∧
      (∀ report ∈ reports, '\n' ∉ report.json.compact.toList) ∧
      (outcome files state).errors =
        (if json then ""
          else String.join (reports.map (Diagnostic.render (settings.color.enabled terminal)))) ++
        "compile failed!\n" ∧
      ∀ others otherState,
        (∀ path ∈ before ++ [file], seen otherState path = seen state path) →
          outcome (before ++ file :: others) otherState = outcome files state) := by
  intro checked outcome okLines
  have verdict : checked = fun file => checkView settings.byteLimit file (seen state file) :=
    funext fun file => checkFile_run shows settings.byteLimit file state
  have folded : ∀ files state, outcome files state =
      filesOutcome json (settings.color.enabled terminal)
        (fun file => checkView settings.byteLimit file (seen state file)) files :=
    fun files state => congrArg Prod.fst (check_run shows _ _ _ files state)
  have here := folded files state
  rw [← verdict] at here
  refine ⟨congrArg Prod.snd (check_run shows _ _ _ files state), ?_, ?_⟩
  · simp only [folded, filesOutcome, List.map_cons, List.map_nil, List.foldr_cons, List.foldr_nil,
      Outcome.andThen_done]
  rcases right_or_exists_wrong checked files with
    right | ⟨before, file, after, rfl, right, wrong⟩
  · rw [filesOutcome_of_right right] at here
    rw [here]
    exact ⟨⟨fun _ => right, fun _ => rfl⟩, fun _ => ⟨rfl, rfl⟩, fun code => absurd rfl code⟩
  · have code : (outcome (before ++ file :: after) state).code = 1 := by
      rw [here, filesOutcome_of_wrong after right wrong]
      exact code_failure _ _ _
    rw [filesOutcome_of_wrong after right wrong] at here
    refine ⟨⟨fun none => by omega, fun all => ?_⟩, fun none => by omega, fun _ => ?_⟩
    · exact absurd (all file (by simp)) wrong
    refine ⟨before, file, after, rfl, right, wrong, code, ?_, ?_, ?_, ?_⟩
    · rw [here]
      cases json <;> rfl
    · exact fun report _ => Json.newline_notMem_compact _
    · rw [here]
      cases json <;> rfl
    · intro others otherState same
      have sameVerdict : ∀ path ∈ before ++ [file],
          checkView settings.byteLimit path (seen otherState path) = checked path :=
        fun path member => by rw [verdict, same path member]
      have there : file ∈ before ++ [file] := List.mem_append_right _ List.mem_cons_self
      rw [folded, filesOutcome_of_wrong others
        (fun earlier member => (sameVerdict earlier (List.mem_append_left _ member)).trans
          (right earlier member))
        ((sameVerdict file there).trans_ne wrong), here, sameVerdict file there]

end Running

theorem shelf_view_size :
    shelf.view "size.idl" = .ok ⟨shelfText.toUTF8.size, .ok shelfText.toUTF8⟩ := by
  rw [FileTree.view_name (by decide) (by decide)]
  rfl

theorem shelf_view_gone : shelf.view "gone.idl" = .error .notFound := by
  rw [FileTree.view_name (by decide) (by decide)]
  rfl

/-- The file that is there is checked, and the one that is not there ends the run. -/
theorem shelf_check_stops :
    let files := ["size.idl", "gone.idl", "size.idl"]
    let settings : Settings := ⟨.never, defaultByteLimit⟩
    let checked := fun file => ((FileTree.access.checkFile defaultByteLimit file).run shelf).1
    let ended := (run FileTree.access true (.check files true settings)).run shelf
    FileTree.access.Shows FileTree.view ∧ ended.2 = shelf ∧ ended.1.code = 1 ∧
      ∃ before file after, files = before ++ file :: after ∧
        (∀ earlier ∈ before, checked earlier = .ok []) ∧ checked file ≠ .ok [] ∧
        ended.1.errors = "compile failed!\n" := by
  intro files settings checked ended
  obtain ⟨kept, _, right, _, wrong⟩ := check_stops_at_first_wrong FileTree.shows_access true true
    settings files shelf
  have gone : checked "gone.idl" = .error (.file "gone.idl" .notFound) := by
    simp only [checked, checkFile_run FileTree.shows_access, checkView, fileText, shelf_view_gone]
  have code : ended.1.code ≠ 0 := by
    intro none
    have fine := gone.symm.trans (right.mp none "gone.idl" (by decide))
    cases fine
  obtain ⟨before, file, after, split, early, found, ends, _, _, errors, _⟩ := wrong code
  refine ⟨FileTree.shows_access, kept, ends, before, file, after, split, early, found, ?_⟩
  exact errors.trans String.empty_append

end Command

end Idl
