/-
This file says when checking lists all that is wrong with a text. What is listed is what is
reported of each place of the schema, so everything is listed once the text has been read
to its end. A text whose tokens are in order may still not be read: a schema has no room
for a second declaration of one name, so reading ends at the first one, and what is wrong
before it or behind it is not listed.
-/

import Idl.Proofs.Agreement
import Idl.Proofs.Declared
import Idl.Proofs.Findings

namespace Idl

open Grammar Progress

variable {file text : String} {source : Source} {declarations : List Declaration}

/-- A source that declares something has its tokens in order, up to the end of the file. -/
theorem Source.Declares.exists_reads (declares : source.Declares declarations) :
    source.fault? = none ∧
      ∃ progress, Reads source.tokenSpan .start source.delivered progress := by
  obtain ⟨tokens, final, scans, spelled⟩ := declares
  obtain ⟨delivered, faultless⟩ := tokens_eq_ok_iff.mp (tokens_eq_ok_iff_scans.mpr scans)
  refine ⟨faultless, ⟨declarations, .finished⟩, ?_⟩
  rw [delivered]
  refine spelled.reads.append (reads_singleton_iff.mpr ⟨next?_behind _ scans.kind_final, ?_⟩)
  rw [declared_behind, List.reverse_reverse]

/-- A source whose declarations have names of their own is read as a schema of these. -/
theorem Source.Declares.exists_parse (declares : source.Declares declarations)
    (distinct : Schema.Distinct declarations) :
    ∃ schema, schema.Lists declarations ∧ source.parse = .ok schema := by
  obtain ⟨schema, _, lists⟩ := Schema.exists_declareAll_of_distinct distinct
  exact ⟨schema, lists, parse_eq_ok_iff_declares.mpr ⟨_, declares, lists⟩⟩

/-- Of a source that repeats a name, the first declaration that does is reported. -/
theorem Source.Declares.exists_repeats (declares : source.Declares declarations)
    (repetitive : ¬ Schema.Distinct declarations) :
    ∃ original repeated, Repeats source original repeated ∧
      source.parse = .error (.semantic (source.repetitionReport original repeated)) := by
  obtain ⟨faultless, progress, reads⟩ := declares.exists_reads
  rcases parse_outcome source with ⟨_, _, ⟨_, parses⟩ | ⟨_, fault, _⟩⟩ |
    ⟨original, repeated, repeats, _, refused⟩ | ⟨before, _, _, _, delivered, others, out, _⟩
  · exact absurd (declares.parses_iff.mp parses) repetitive
  · exact nomatch faultless.symm.trans fault
  · exact ⟨original, repeated, repeats, refused⟩
  · exact absurd reads (not_reads_of_firstWrong (firstWrong_of_refused delivered others out))

/-- Checking a text fails for a character or a token that is wrong, or for a repeated name. -/
theorem kind_of_checkText {error : CompileError} (failed : checkText file text = .error error) :
    error.kind = .lexical ∨ error.kind = .syntactic ∨
      ∃ source original repeated, Source.ofText file text = .ok source ∧
        Repeats source original repeated ∧
        error = .semantic (source.repetitionReport original repeated) := by
  rcases checkText_eq_error_iff.mp failed with ⟨_, _, rfl⟩ | ⟨source, ready, wrong⟩
  · exact Or.inl rfl
  · rcases parse_outcome source with ⟨_, _, ⟨_, _, parsed⟩ | ⟨_, _, lexical⟩⟩ |
      ⟨original, repeated, repeats, _, semantic⟩ | ⟨_, _, _, _, _, _, _, syntactic⟩
    · exact nomatch parsed.symm.trans wrong
    · cases lexical.symm.trans wrong
      exact Or.inl rfl
    · cases semantic.symm.trans wrong
      exact Or.inr (Or.inr ⟨source, original, repeated, ready, repeats, rfl⟩)
    · cases syntactic.symm.trans wrong
      exact Or.inr (Or.inl rfl)

theorem checkText_of_parse {outcome : Except CompileError Schema}
    (ready : Source.ofText file text = .ok source) (parsed : source.parse = outcome) :
    checkText file text = outcome.map fun schema => schema.reports source := by
  cases outcome with
  | error error => exact checkText_eq_error_iff.mpr (Or.inr ⟨source, ready, parsed⟩)
  | ok schema =>
    simp only [checkText, readText, ready, parsed, Schema.violations_eq]
    rfl

/-- A text whose tokens are those of the grammar is checked place by place, and all that is wrong
with its places is listed, unless two declarations have one name: then the second of these is all
that is reported. In no other case does a rule make checking fail. -/
theorem checkText_exhaustive (file text : String) :
    (∀ error, checkText file text = .error error →
      error.kind = .lexical ∨ error.kind = .syntactic ∨
        ∃ source original repeated, Source.ofText file text = .ok source ∧
          Repeats source original repeated ∧
          error = .semantic (source.repetitionReport original repeated)) ∧
    ∀ source tokens final, Source.ofText file text = .ok source →
      source.tokens = .ok (tokens ++ [final]) → tokens.map Token.kind ∈ code →
      ∃ declarations, SpellsCode source.tokenSpan tokens declarations ∧
        (Schema.Distinct declarations → ∃ schema : Schema, schema.Lists declarations ∧
          checkText file text = .ok (schema.reports source)) ∧
        (¬ Schema.Distinct declarations → ∃ original repeated, Repeats source original repeated ∧
          checkText file text =
            .error (.semantic (source.repetitionReport original repeated))) := by
  refine ⟨fun _ => kind_of_checkText, fun source tokens final ready delivered sentence => ?_⟩
  obtain ⟨declarations, spelled⟩ := (map_kind_mem_code_iff source.tokenSpan tokens).mp sentence
  have declares : source.Declares declarations :=
    ⟨tokens, final, Source.tokens_eq_ok_iff_scans.mp delivered, spelled⟩
  refine ⟨declarations, spelled, fun distinct => ?_, fun repetitive => ?_⟩
  · obtain ⟨schema, lists, parsed⟩ := declares.exists_parse distinct
    exact ⟨schema, lists, checkText_of_parse ready parsed⟩
  · obtain ⟨original, repeated, repeats, refused⟩ := declares.exists_repeats repetitive
    exact ⟨original, repeated, repeats, checkText_of_parse ready refused⟩

/-- A message with a repeated member, and a service with a method of an unknown type. -/
def plotText : String :=
  "message Point \x7b\n\tint32 x\n\tint32 x\n\x7d\n" ++
    "service Plot \x7b\n\tShape draw(Point)\n\x7d"

/-- What it declares. -/
def plotSchema : Schema where
  messages := ⟨[("Point", ⟨"Point", [⟨⟨"int32", ⟨2, 1, 5⟩⟩, "x", ⟨2, 7, 1⟩⟩,
    ⟨⟨"int32", ⟨3, 1, 5⟩⟩, "x", ⟨3, 7, 1⟩⟩], ⟨1, 8, 5⟩⟩)], List.nodup_singleton _⟩
  services := ⟨[("Plot", ⟨"Plot", [⟨"draw", [⟨"Point", ⟨6, 12, 5⟩⟩], ⟨"Shape", ⟨6, 1, 5⟩⟩,
    ⟨6, 7, 4⟩, "Plot"⟩], ⟨5, 8, 4⟩⟩)], List.nodup_singleton _⟩

set_option maxRecDepth 2000 in
theorem plotText_listed :
    ∃ source, Source.ofText "plot.idl" plotText = .ok source ∧
      checkText "plot.idl" plotText = .ok (plotSchema.reports source) ∧
      (plotSchema.reports source).map Violation.rule = [.duplicateMember, .undefinedType] := by
  have read : (readText "plot.idl" plotText).map Prod.snd = .ok plotSchema := by cbv
  cases done : readText "plot.idl" plotText with
  | error error =>
    rw [done] at read
    cases read
  | ok result =>
    rw [done] at read
    obtain ⟨source, schema⟩ := result
    cases read
    obtain ⟨ready, parsed⟩ := readText_eq_ok done
    obtain ⟨tokens, final, others, delivered, _, spelledOthers, declared⟩ :=
      Source.parse_eq_ok_iff.mp parsed
    obtain ⟨declarations, spelled, listed, _⟩ := (checkText_exhaustive "plot.idl" plotText).2
      source tokens final ready delivered ((map_kind_mem_code_iff _ _).mpr ⟨_, spelledOthers⟩)
    cases spelled.unique spelledOthers
    have lists := Schema.declareAll_eq_ok_iff.mp declared
    obtain ⟨schema, again, checked⟩ := listed lists.distinct
    cases again.unique lists
    have rules : plotSchema.findings.map (fun finding => finding.problem.rule) =
        [.duplicateMember, .undefinedType] := by decide
    refine ⟨source, ready, checked, ?_⟩
    rw [← Schema.violations_eq, Schema.violations, List.map_map]
    exact rules

/-- The same with a second message of the name of the first one. -/
def plotAgainText : String :=
  "message Point \x7b\n\tint32 x\n\tint32 x\n\x7d\nmessage Point \x7b\n\tint32 y\n\x7d\n" ++
    "service Plot \x7b\n\tShape draw(Point)\n\x7d"

set_option maxRecDepth 2000 in
/-- Of the three things that are wrong, one is reported, and it is neither a character nor a
token. -/
theorem plotAgainText_unlisted :
    ∃ error, checkText "plot.idl" plotAgainText = .error error ∧ error.kind ≠ .lexical ∧
      error.kind ≠ .syntactic := by
  refine ⟨.semantic ⟨"repeated message \"Point\", first declared at line 1", "plot.idl", 5, some 8,
    some 5, some "message Point \x7b"⟩, by cbv, nofun, nofun⟩

end Idl
