/-
This file shows that reports in JSON can be read back from what a run prints. The record
of a report tells every field of it, also which of them are not known, and its text holds
no control character; so each report takes one line, and the lines behind those that name
the right files are the reports, all of them and in order.
-/

import Idl.Proofs.Checking

namespace Idl

/-! ### Records of reports -/

namespace Diagnostic

theorem jsonNumber_injective : Function.Injective jsonNumber := by
  intro first second same
  cases first with
  | none =>
    cases second with
    | none => rfl
    | some other => exact nomatch same
  | some number =>
    cases second with
    | none => exact nomatch same
    | some other => exact congrArg some (UInt32.toNat_inj.mp (Json.number.inj same))

/-- A report is known by its record: an unknown line of the source leaves no field behind, and any
other field is there whatever is known. -/
theorem json_injective : Function.Injective json := by
  rintro ⟨message, file, line, column, spanLength, sourceLine⟩
    ⟨otherMessage, otherFile, otherLine, otherColumn, otherLength, otherSource⟩ same
  have fields := Json.object.inj same
  simp only [List.cons_append, List.nil_append, List.cons.injEq, Prod.mk.injEq, true_and,
    Json.text.injEq, Json.number.injEq, UInt32.toNat_inj, jsonNumber_injective.eq_iff] at fields
  obtain ⟨rfl, rfl, rfl, rfl, rfl, shown⟩ := fields
  cases sourceLine with
  | none =>
    cases otherSource with
    | none => rfl
    | some other => exact nomatch shown
  | some source =>
    cases otherSource with
    | none => exact nomatch shown
    | some other => simpa using shown

/-- The record of a report on one line. -/
def jsonLine (diagnostic : Diagnostic) : List Char := diagnostic.json.compact.toList

theorem jsonLine_injective : Function.Injective jsonLine := fun _ _ same =>
  json_injective (Json.compact_injective (String.toList_inj.mp same))

end Diagnostic

namespace Command

open Diagnostic (jsonLine)

/-! ### Lines of reports -/

/-- Reports in JSON come back one by one when the text is cut at its line feeds. -/
theorem pieces_jsonReport (reports : List Diagnostic) :
    Text.pieces '\n' (jsonReport reports).toList = reports.map jsonLine ++ [[]] := by
  induction reports with
  | nil => rfl
  | cons report rest inductionHypothesis =>
    have shape : (jsonReport (report :: rest)).toList =
        report.jsonLine ++ '\n' :: (jsonReport rest).toList := by
      rw [jsonReport, List.map_cons, String.join_cons, String.toList_append, String.toList_append,
        List.append_assoc]
      rfl
    have single : Text.pieces '\n' report.jsonLine = [report.jsonLine] :=
      Text.pieces_of_notMem (Json.newline_notMem_compact report.json)
    rw [shape, Text.pieces_append_separator, inductionHypothesis, single, List.map_cons]
    rfl

/-! ### Where a check ends -/

/-- What comes of files that are all right: they are named. -/
def allRight (files : List String) : Outcome := ⟨0, String.join (files.map okLine), ""⟩

theorem allRight_cons (path : String) (rest : List String) :
    allRight (path :: rest) = Outcome.andThen ⟨0, okLine path, ""⟩ (allRight rest) := by
  rw [Outcome.andThen_of_right, allRight, List.map_cons, String.join_cons]
  rfl

theorem Outcome.andThen_assoc (first second third : Outcome) :
    (first.andThen second).andThen third = first.andThen (second.andThen third) := by
  by_cases right : first.code = 0
  · by_cases alsoRight : second.code = 0
    · simp only [andThen, right, alsoRight, ↓reduceIte, String.append_assoc]
    · simp only [andThen, right, alsoRight, ↓reduceIte]
  · simp only [andThen, right, ↓reduceIte]

section

variable {State : Type} {access : FileAccess (StateM State)} {limit : Nat} {json colored : Bool}

/-- A file that is right is named, and the run goes on where looking at the file has led to. -/
theorem check_cons_of_right {path : String} {state : State}
    (right : checkReports (checkView limit path (access.view path state).1) = [])
    (rest : List String) :
    (check access limit json colored (path :: rest)).run state =
      (Outcome.andThen ⟨0, okLine path, ""⟩
          ((check access limit json colored rest).run (access.view path state).2).1,
        ((check access limit json colored rest).run (access.view path state).2).2) := by
  rw [check_cons_run, right, Outcome.andThen_of_right]

/-- Either all files are right, or the run ends with the reports of one of them, behind the names
of those before it. -/
theorem check_cases (files : List String) (state : State) :
    ((check access limit json colored files).run state).1 = allRight files ∨
      ∃ before file after reached, files = before ++ file :: after ∧
        (check access limit json colored before).run state = (allRight before, reached) ∧
        checkReports ((access.checkFile limit file).run reached).1 ≠ [] ∧
        ((check access limit json colored files).run state).1 =
          (allRight before).andThen
            (failure json colored (checkReports ((access.checkFile limit file).run reached).1)) := by
  induction files generalizing state with
  | nil => exact Or.inl rfl
  | cons path rest inductionHypothesis =>
    cases found : checkReports (checkView limit path (access.view path state).1) with
    | nil =>
      rcases inductionHypothesis (access.view path state).2 with
        right | ⟨before, file, after, reached, rfl, early, wrong, ended⟩
      · refine Or.inl ?_
        rw [check_cons_of_right found, right, allRight_cons]
      · refine Or.inr ⟨path :: before, file, after, reached, rfl, ?_, wrong, ?_⟩
        · rw [check_cons_of_right found, early, allRight_cons]
        · rw [check_cons_of_right found, ended, allRight_cons, Outcome.andThen_assoc]
    | cons first others =>
      have reports : checkReports ((access.checkFile limit path).run state).1 = first :: others :=
        found
      refine Or.inr ⟨[], path, rest, state, rfl, rfl, ?_, ?_⟩
      · rw [reports]
        exact List.cons_ne_nil _ _
      · rw [reports, check_cons_run, found, allRight, Outcome.andThen_of_right, List.map_nil,
          String.join_nil, String.empty_append]

end

/-- The text of a report in JSON holds no control character and tells the report. So a check that
fails leaves one line for each report behind the lines of the files that are right, and these
lines tell all reports. -/
theorem failing_check_tells_reports :
    (∀ report : Diagnostic, ∀ character ∈ report.json.compact.toList, 32 ≤ character.toNat) ∧
    (∀ first second : Diagnostic, first.json.compact = second.json.compact → first = second) ∧
    ∀ {State : Type} (access : FileAccess (StateM State)) (terminal : Bool) (settings : Settings)
      (files : List String) (state : State),
      let ran := fun files => (run access terminal (.check files true settings)).run state
      (ran files).1.code ≠ 0 → ∃ before file after rest, files = before ++ file :: after ∧
        (ran before).1.code = 0 ∧
        (ran files).1.output = String.join (before.map fun path => path ++ ": ok\n") ++ rest ∧
        let checked := (access.checkFile settings.byteLimit file).run (ran before).2
        let reports := checkReports checked.1
        let lines := reports.map fun report => report.json.compact.toList
        reports ≠ [] ∧ Text.pieces '\n' rest.toList = lines ++ [[]] ∧
          ∀ others : List Diagnostic,
            (others.map fun report => report.json.compact.toList) = lines → others = reports := by
  refine ⟨fun _ _ => Json.le_toNat_of_mem_compact, fun first second same =>
    Diagnostic.json_injective (Json.compact_injective same), ?_⟩
  · intro State access terminal settings files state ran wrong
    rcases check_cases files state with
      right | ⟨before, file, after, reached, split, early, wrongFile, ended⟩
    · exact absurd (congrArg Outcome.code right) wrong
    · have earlier : ran before = (allRight before, reached) := early
      have output : (ran files).1.output = String.join (before.map okLine) ++
          jsonReport (checkReports
            ((access.checkFile settings.byteLimit file).run (ran before).2).1) := by
        rw [earlier]
        exact congrArg Outcome.output (ended.trans (Outcome.andThen_of_right _ _))
      refine ⟨before, file, after, _, split, congrArg (fun run => run.1.code) earlier, output,
        by rwa [earlier], pieces_jsonReport _, fun others same => ?_⟩
      exact List.map_injective_iff.mpr Diagnostic.jsonLine_injective same

theorem shelf_size_reports :
    checkReports (checkView defaultByteLimit "size.idl" (shelf.view "size.idl")) = [] := by
  have small : shelfText.toUTF8.size < defaultByteLimit := by decide
  have right : checkText "size.idl" shelfText = .ok [] := by cbv
  rw [shelf_view_size, checkView, fileText_of_small small]
  exact congrArg checkReports right

/-- The two things that are wrong with the second file take a line each behind the line of the
first one, and these lines tell them. -/
theorem shelf_reports_told :
    let settings : Settings := ⟨.never, defaultByteLimit⟩
    let ended := ((run FileTree.access true
      (.check ["size.idl", "unbound.idl"] true settings)).run shelf).1
    let lines := [widthReport, heightReport].map fun report => report.json.compact.toList
    ended.code ≠ 0 ∧ ∃ rest, ended.output = "size.idl: ok\n" ++ rest ∧
      Text.pieces '\n' rest.toList = lines ++ [[]] ∧
      ∀ others : List Diagnostic, (others.map fun report => report.json.compact.toList) = lines →
        others = [widthReport, heightReport] := by
  intro settings ended lines
  have seen : ∀ path, FileTree.access.view path shelf = (shelf.view path, shelf) := fun _ => rfl
  have wrong : ended.code ≠ 0 := by
    change ((check FileTree.access defaultByteLimit true false
      ["size.idl", "unbound.idl"]).run shelf).1.code ≠ 0
    rw [check_cons_run, seen, shelf_size_reports]
    dsimp only
    rw [check_cons_run, seen, shelf_unbound_reports]
    decide
  obtain ⟨before, file, after, rest, split, early, output, found, cut, told⟩ :=
    failing_check_tells_reports.2.2 FileTree.access true settings ["size.idl", "unbound.idl"] shelf
      wrong
  have kept : ∀ files, ((run FileTree.access true (.check files true settings)).run shelf).2 =
      shelf := fun files => congrArg Prod.snd (check_run FileTree.shows_access _ _ _ files shelf)
  rw [kept] at found cut told
  cases before with
  | nil =>
    obtain ⟨rfl, -⟩ := List.cons.inj split
    exact absurd shelf_size_reports found
  | cons first others =>
    cases others with
    | nil =>
      obtain ⟨rfl, others⟩ := List.cons.inj split
      obtain ⟨rfl, -⟩ := List.cons.inj others
      have reports : checkReports ((FileTree.access.checkFile settings.byteLimit
          "unbound.idl").run shelf).1 = [widthReport, heightReport] := by
        rw [checkFile_run FileTree.shows_access]
        exact shelf_unbound_reports
      rw [reports] at cut told
      rw [List.map_singleton, String.join_cons, String.join_nil, String.append_empty] at output
      exact ⟨wrong, rest, output, cut, told⟩
    | cons second more => cases more <;> exact nomatch (List.cons.inj (List.cons.inj split).2).2

end Command

end Idl
