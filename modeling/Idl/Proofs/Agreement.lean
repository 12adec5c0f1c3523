/-
This file compares checking with compiling. The one goes on behind a violation and the
other stops at the first, but both read a text in the same way, so they agree on which
texts are right, and where a text is wrong, what compiling reports is the first thing that
checking reports. On the command line the same holds of checking a file and of dumping it,
however files are reached: both look at the file once, and refuse it for the same reason.
-/

import Idl.Command.Run
import Idl.Proofs.Paths
import Idl.Proofs.Positions

namespace Idl

/-! ### Texts -/

/-- What checking comes to agrees with what compiling comes to: nothing is listed and there is a
schema, or the first violation that is listed is the error, or nothing could be read. -/
inductive Agree : Except CompileError (List Violation) → Except CompileError Schema → Prop where
  | right (schema : Schema) : Agree (.ok []) (.ok schema)
  | broken (first : Violation) (rest : List Violation) :
      Agree (.ok (first :: rest)) (.error (.semantic first.diagnostic))
  | unread (error : CompileError) : Agree (.error error) (.error error)

theorem Schema.agree (schema : Schema) (source : Source) :
    Agree (.ok (schema.violations source)) (schema.verify source) := by
  rw [Schema.violations, Schema.verify]
  cases schema.findings with
  | nil => exact .right _
  | cons first rest => exact .broken (first.violation source) _

theorem agree_text (file text : String) : Agree (checkText file text) (compileText file text) := by
  rw [checkText, compileText]
  cases readText file text with
  | error error => exact .unread error
  | ok read => exact read.2.agree read.1

theorem agree_view (limit : Nat) (path : String) (view : Except FileFault FileView) :
    Agree (checkView limit path view) (compileView limit path view) := by
  rw [checkView, compileView]
  cases fileText limit path view with
  | error error => exact .unread error
  | ok text => exact agree_text path text

namespace Agree

variable {checked : Except CompileError (List Violation)} {compiled : Except CompileError Schema}

theorem eq_ok_nil_iff (agree : Agree checked compiled) :
    checked = .ok [] ↔ ∃ schema, compiled = .ok schema := by
  cases agree with
  | right schema => exact ⟨fun _ => ⟨schema, rfl⟩, fun _ => rfl⟩
  | broken first rest => exact ⟨nofun, fun ⟨_, compiles⟩ => nomatch compiles⟩
  | unread error => exact ⟨nofun, fun ⟨_, compiles⟩ => nomatch compiles⟩

theorem eq_semantic {first : Violation} {rest : List Violation} (agree : Agree checked compiled)
    (listed : checked = .ok (first :: rest)) : compiled = .error (.semantic first.diagnostic) := by
  cases agree with
  | right => exact nomatch listed
  | broken => cases listed; rfl
  | unread => exact nomatch listed

theorem eq_error {error : CompileError} (agree : Agree checked compiled)
    (unread : checked = .error error) : compiled = .error error := by
  cases agree with
  | right => exact nomatch unread
  | broken => exact nomatch unread
  | unread => cases unread; rfl

/-- What compiling reports is the first report of checking. -/
theorem checkReports (agree : Agree checked compiled) :
    (∃ schema, compiled = .ok schema ∧ Command.checkReports checked = []) ∨
      ∃ error rest, compiled = .error error ∧
        Command.checkReports checked = error.diagnostic :: rest := by
  cases agree with
  | right schema => exact Or.inl ⟨schema, rfl, rfl⟩
  | broken first rest => exact Or.inr ⟨_, rest.map Violation.diagnostic, rfl, rfl⟩
  | unread error => exact Or.inr ⟨error, [], rfl, rfl⟩

end Agree

/-- Checking a text fails where its source cannot be prepared or cannot be read. -/
theorem checkText_eq_error_iff {file text : String} {error : CompileError} :
    checkText file text = .error error ↔
      (∃ diagnostic, Source.ofText file text = .error diagnostic ∧ error = .lexical diagnostic) ∨
        ∃ source, Source.ofText file text = .ok source ∧ source.parse = .error error := by
  have unread : checkText file text = .error error ↔ readText file text = .error error := by
    rw [checkText]
    cases readText file text <;> simp
  rw [unread]
  refine ⟨readText_eq_error, ?_⟩
  rintro (⟨diagnostic, refused, rfl⟩ | ⟨source, ready, wrong⟩)
  · rw [readText, refused]
  · simp only [readText, ready, wrong]

/-! ### Files -/

theorem fromUTF8?_toUTF8 (text : String) : String.fromUTF8? text.toUTF8 = some text := by
  rw [String.fromUTF8?, String.toUTF8_eq_toByteArray, dif_pos text.isValidUTF8]
  rfl

/-- A text that is small enough is read from its bytes. -/
theorem fileText_of_small {limit : Nat} {path text : String} (small : text.toUTF8.size < limit) :
    fileText limit path (.ok ⟨text.toUTF8.size, .ok text.toUTF8⟩) = .ok text := by
  simp only [fileText, if_neg (Nat.not_le.mpr small), fromUTF8?_toUTF8]

namespace Command

variable {State : Type} {access : FileAccess (StateM State)} {limit : Nat} {json colored : Bool}

/-- Checking the first file decides whether the others are checked. -/
theorem check_cons_run (path : String) (rest : List String) (state : State) :
    (check access limit json colored (path :: rest)).run state =
      match checkReports (checkView limit path (access.view path state).1) with
      | [] =>
        let later := (check access limit json colored rest).run (access.view path state).2
        ({ later.1 with output := okLine path ++ later.1.output }, later.2)
      | first :: others =>
        (failure json colored (first :: others), (access.view path state).2) := by
  have looked : StateT.run (access.view path) state = access.view path state := rfl
  simp only [check, FileAccess.checkFile, bind_assoc, pure_bind, StateT.run_bind, looked]
  obtain ⟨view, later⟩ := access.view path state
  rw [show (view, later) = pure (f := Id) (view, later) from rfl, pure_bind]
  cases checkReports (checkView limit path view) <;> rfl

theorem dump_run (path : String) (state : State) :
    (dump access limit colored path none).run state =
      match compileView limit path (access.view path state).1 with
      | .error error => (failure false colored [error.diagnostic], (access.view path state).2)
      | .ok schema => (⟨0, schema.dump ++ "\n", ""⟩, (access.view path state).2) := by
  have looked : StateT.run (access.view path) state = access.view path state := rfl
  simp only [dump, FileAccess.compileFile, bind_assoc, pure_bind, StateT.run_bind, looked]
  obtain ⟨view, later⟩ := access.view path state
  rw [show (view, later) = pure (f := Id) (view, later) from rfl, pure_bind]
  cases compileView limit path view <;> rfl

theorem code_failure (json colored : Bool) (reports : List Diagnostic) :
    (failure json colored reports).code = 1 := by
  cases json <;> rfl

/-- Checking a file and dumping it end in the same way, and where dumping fails, it reports the
first of all that checking reports. -/
theorem check_agrees_dump (access : FileAccess (StateM State)) (limit : Nat) (json colored : Bool)
    (path : String) (state : State) :
    let checked := ((check access limit json colored [path]).run state).1
    let dumped := ((dump access limit colored path none).run state).1
    (checked.code = 0 ∧ dumped.code = 0) ∨ ∃ first rest,
      checkReports (checkView limit path (access.view path state).1) = first :: rest ∧
        checked = failure json colored (first :: rest) ∧
        dumped = failure false colored [first] := by
  intro checked dumped
  rcases (agree_view limit path (access.view path state).1).checkReports with
    ⟨schema, compiles, nothing⟩ | ⟨error, rest, fails, reports⟩
  · refine Or.inl ⟨?_, ?_⟩
    · simp only [checked, check_cons_run, nothing]
      rfl
    · simp only [dumped, dump_run, compiles]
  · refine Or.inr ⟨error.diagnostic, rest, reports, ?_, ?_⟩
    · simp only [checked, check_cons_run, reports]
    · simp only [dumped, dump_run, fails]

end Command

/-- Checking and compiling agree on every text: which texts are right, what is wrong first, and
what cannot be read at all. So do the commands that check a file and that dump it, wherever files
are kept. -/
theorem checking_agrees_compiling :
    (∀ file text,
      (checkText file text = .ok [] ↔ ∃ schema, compileText file text = .ok schema) ∧
      (∀ first rest, checkText file text = .ok (first :: rest) →
        compileText file text = .error (.semantic first.diagnostic)) ∧
      ∀ error,
        (checkText file text = .error error ↔
          (∃ diagnostic, Source.ofText file text = .error diagnostic ∧
            error = .lexical diagnostic) ∨
          ∃ source, Source.ofText file text = .ok source ∧ source.parse = .error error) ∧
        (checkText file text = .error error → compileText file text = .error error)) ∧
    ∀ {State : Type} (access : FileAccess (StateM State)) (state : State) (terminal json : Bool)
      (settings : Command.Settings) (path : String),
      let checked := ((Command.run access terminal (.check [path] json settings)).run state).1
      let dumped := ((Command.run access terminal (.dump path none settings)).run state).1
      let colored := settings.color.enabled terminal
      (checked.code = 0 ↔ dumped.code = 0) ∧
      (dumped.code ≠ 0 → ∃ first rest,
        Command.checkReports ((access.checkFile settings.byteLimit path).run state).1 =
          first :: rest ∧
        checked = Command.failure json colored (first :: rest) ∧
        dumped = Command.failure false colored [first]) := by
  refine ⟨fun file text => ?_, fun access state terminal json settings path => ?_⟩
  · have agree := agree_text file text
    exact ⟨agree.eq_ok_nil_iff, fun _ _ => agree.eq_semantic,
      fun _ => ⟨checkText_eq_error_iff, agree.eq_error⟩⟩
  · intro checked dumped colored
    rcases Command.check_agrees_dump access settings.byteLimit json colored path state with
      ⟨checkedRight, dumpedRight⟩ | ⟨first, rest, reports, checkedWrong, dumpedWrong⟩
    · exact ⟨⟨fun _ => dumpedRight, fun _ => checkedRight⟩, fun wrong => absurd dumpedRight wrong⟩
    · have codes : checked.code = 1 ∧ dumped.code = 1 :=
        ⟨(congrArg _ checkedWrong).trans (Command.code_failure _ _ _),
          (congrArg _ dumpedWrong).trans (Command.code_failure _ _ _)⟩
      refine ⟨?_, fun _ => ⟨first, rest, reports, checkedWrong, dumpedWrong⟩⟩
      rw [codes.1, codes.2]

/-! ### Two files -/

/-- A message with one member. -/
def shelfText : String := "message Size \x7b\n\tint32 width\n\x7d"

/-- A message of which two members have types that nobody declares. -/
def unboundText : String := "message Size \x7b\n\tWidth width\n\tHeight height\n\x7d"

/-- A working folder with these two texts in it. -/
def shelf : FileTree where
  working := ["work"]
  folders := []
  files := [(["work", "size.idl"], shelfText.toUTF8), (["work", "unbound.idl"], unboundText.toUTF8)]

/-- The lines of the second text. -/
def unboundLines : List (List Char) :=
  ["message Size \x7b".toList, "\tWidth width".toList, "\tHeight height".toList, "\x7d".toList]

/-- The second text, all of which is code. -/
def unboundSource : Source :=
  ⟨"unbound.idl", unboundText.toList, unboundLines, #[1, 2, 3, 4], unboundLines.toArray⟩

/-- What the second text declares. -/
def unboundSchema : Schema where
  messages := ⟨[("Size", ⟨"Size", [⟨⟨"Width", ⟨2, 1, 5⟩⟩, "width", ⟨2, 7, 5⟩⟩,
    ⟨⟨"Height", ⟨3, 1, 6⟩⟩, "height", ⟨3, 8, 6⟩⟩], ⟨1, 8, 4⟩⟩)], List.nodup_singleton _⟩
  services := .empty

/-- What is said about the type of its first member. -/
def widthReport : Diagnostic :=
  ⟨"undefined type \"Width\" in message \"Size\"", "unbound.idl", 2, some 1, some 5,
    some "\tWidth width"⟩

/-- What is said about the type of its second member. -/
def heightReport : Diagnostic :=
  ⟨"undefined type \"Height\" in message \"Size\"", "unbound.idl", 3, some 1, some 6,
    some "\tHeight height"⟩

theorem unboundSchema_violations :
    unboundSchema.violations unboundSource =
      [⟨.undefinedType, widthReport⟩, ⟨.undefinedType, heightReport⟩] := by
  decide

set_option maxRecDepth 2000 in
theorem unboundText_checked :
    checkText "unbound.idl" unboundText =
      .ok [⟨.undefinedType, widthReport⟩, ⟨.undefinedType, heightReport⟩] := by
  have read : readText "unbound.idl" unboundText = .ok (unboundSource, unboundSchema) := by cbv
  simp only [checkText, read, unboundSchema_violations]

theorem shelf_view_unbound :
    shelf.view "unbound.idl" = .ok ⟨unboundText.toUTF8.size, .ok unboundText.toUTF8⟩ := by
  rw [FileTree.view_name (by decide) (by decide)]
  rfl

theorem shelf_unbound_reports :
    Command.checkReports (checkView defaultByteLimit "unbound.idl" (shelf.view "unbound.idl")) =
      [widthReport, heightReport] := by
  have small : unboundText.toUTF8.size < defaultByteLimit := by decide
  rw [shelf_view_unbound, checkView, fileText_of_small small]
  exact congrArg Command.checkReports unboundText_checked

set_option maxRecDepth 2000 in
/-- A comma that cannot be read is the error of both. Of two types that nobody declares, both are
listed by checking and the first is the error of compiling, for the text as well as for the file. -/
theorem shelf_agreed :
    let settings : Command.Settings := ⟨.never, defaultByteLimit⟩
    let checked := ((Command.run FileTree.access true
      (.check ["unbound.idl"] true settings)).run shelf).1
    let dumped := ((Command.run FileTree.access true
      (.dump "unbound.idl" none settings)).run shelf).1
    compileText "size.idl" listedText = .error (.syntactic listedReport) ∧
      compileText "unbound.idl" unboundText = .error (.semantic widthReport) ∧
      checked = Command.failure true false [widthReport, heightReport] ∧
      dumped = Command.failure false false [widthReport] := by
  intro settings checked dumped
  obtain ⟨texts, files⟩ := checking_agrees_compiling
  have unread : checkText "size.idl" listedText = .error (.syntactic listedReport) := by cbv
  have ended : checked = Command.failure true false [widthReport, heightReport] := by
    have seen : (FileTree.access.view "unbound.idl" shelf).1 = shelf.view "unbound.idl" := rfl
    change ((Command.check FileTree.access defaultByteLimit true false
      ["unbound.idl"]).run shelf).1 = _
    rw [Command.check_cons_run, seen, shelf_unbound_reports]
  have wrong : checked.code ≠ 0 := by
    rw [ended, Command.code_failure]
    decide
  obtain ⟨codes, failing⟩ := files FileTree.access shelf true true settings "unbound.idl"
  obtain ⟨first, rest, listed, checkEnded, dumpEnded⟩ := failing (mt codes.mpr wrong)
  obtain ⟨rfl, rfl⟩ := List.cons.inj (listed.symm.trans shelf_unbound_reports)
  exact ⟨((texts _ _).2.2 _).2 unread, (texts _ _).2.1 _ _ unboundText_checked, checkEnded,
    dumpEnded⟩

end Idl
