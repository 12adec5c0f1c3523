/-
This file shows that the order of the declarations of a file is no matter. Texts of whole
declarations that stand one below the other declare what each of them declares, and up to
places that does not depend on where a text stands. So in another order the same is
declared in another order, which repeats a name if and only if the first one does, and the
schemas are alike. Checking respects likeness, and so does compiling.
-/

import Idl.Proofs.Concatenation

namespace Idl

open Text (ReturnsEndLines)

variable {declarations others : List Declaration} {first second : Schema}

/-! ### Declarations in another order -/

/-- What has been moved is the same as before once its places are forgotten. -/
theorem Declaration.relocate_nowhere_relocate {move : Relocation} (declaration : Declaration) :
    (declaration.relocate move).relocate .nowhere = declaration.relocate .nowhere := by
  cases declaration with
  | message declared => exact congrArg Declaration.message (declared.unplaced_relocate move)
  | service declared => exact congrArg Declaration.service (declared.unplaced_relocate move)

namespace Schema

theorem distinct_perm (reordered : declarations.Perm others) :
    Distinct declarations ↔ Distinct others :=
  reordered.pairwise_iff fun free clash => free ⟨clash.1.symm, clash.2.symm⟩

theorem Lists.reordered (lists : first.Lists declarations) (otherLists : second.Lists others)
    (reordered : declarations.Perm others) : first.Reordered second := by
  constructor
  · rw [lists.messages, otherLists.messages]
    exact (reordered.filterMap _).map _
  · rw [lists.services, otherLists.services]
    exact (reordered.filterMap _).map _

/-- Schemas of the same declarations are alike, wherever these stand and in whatever order. -/
theorem Lists.alike (lists : first.Lists declarations) (otherLists : second.Lists others)
    (reordered : (declarations.map (Declaration.relocate .nowhere)).Perm
      (others.map (Declaration.relocate .nowhere))) : first.alike second = true :=
  alike_iff_reordered.mpr (lists.relocate.reordered otherLists.relocate reordered)

end Schema

/-! ### Texts below texts -/

/-- A text of whole declarations, as many as there are, in the words of the grammar. There may be
comments and empty lines, but no carriage returns. -/
structure Text.IsCode (text : String) : Prop where
  noReturn : '\r' ∉ text.toList
  grammatical : ∃ source tokens final, Source.ofText "" text = .ok source ∧
    source.tokens = .ok (tokens ++ [final]) ∧ tokens.map Token.kind ∈ Grammar.code

/-- The texts, one below the other. -/
def Text.stacked (texts : List String) : String := "\n".intercalate texts

/-- The text declares this up to places, whatever its file is called. -/
structure Text.Declares (text : String) (unplaced : List Declaration) : Prop where
  noReturn : '\r' ∉ text.toList
  declares : ∀ file, Source.ofText file text = .ok (.prepared file text) ∧
    ∃ declarations, (Source.prepared file text).Declares declarations ∧
      declarations.map (Declaration.relocate .nowhere) = unplaced

namespace Text

variable {text : String} {unplaced : List Declaration}

theorem IsCode.exists_declares (code : IsCode text) : ∃ unplaced, Declares text unplaced := by
  obtain ⟨noReturn, _, tokens, final, ready, delivered, sentence⟩ := code
  obtain ⟨_, rfl⟩ := Source.ofText_eq_ok_iff.mp ready
  obtain ⟨declarations, spelled⟩ :=
    (Grammar.map_kind_mem_code_iff (Source.prepared "" text).tokenSpan tokens).mp sentence
  have scans := Source.tokens_eq_ok_iff_scans.mp delivered
  have clean := Source.firstSlash?_eq_none_of_ofText ready
  -- The name of the file is nowhere in what is scanned, nor in the places of words.
  exact ⟨_, noReturn, fun file => ⟨Source.ofText_of_firstSlash?_eq_none clean,
    declarations, ⟨tokens, final, scans, spelled⟩, rfl⟩⟩

/-- A text that is read is code. -/
theorem isCode_of_readText {file : String} {source : Source} {schema : Schema}
    (noReturn : '\r' ∉ text.toList) (read : readText file text = .ok (source, schema)) :
    IsCode text := by
  obtain ⟨ready, parsed⟩ := readText_eq_ok read
  have clean := Source.firstSlash?_eq_none_of_ofText ready
  obtain ⟨_, rfl⟩ := Source.ofText_eq_ok_iff.mp ready
  obtain ⟨declarations, ⟨tokens, final, scans, spelled⟩, _⟩ :=
    Source.parse_eq_ok_iff_declares.mp parsed
  have delivered : (Source.prepared "" text).tokens = .ok (tokens ++ [final]) :=
    Source.tokens_eq_ok_iff_scans.mpr scans
  exact ⟨noReturn, _, tokens, final, Source.ofText_of_firstSlash?_eq_none clean, delivered,
    (Grammar.map_kind_mem_code_iff _ tokens).mpr ⟨declarations, spelled⟩⟩

theorem returnsEndLines_of_notMem {text : List Char} (noReturn : '\r' ∉ text) :
    ReturnsEndLines text := by
  induction text with
  | nil => exact .nil
  | cons character rest inductionHypothesis =>
    rw [List.mem_cons, not_or] at noReturn
    refine List.isChain_cons.mpr ⟨fun next _ same => absurd same.symm noReturn.1, ?_⟩
    exact inductionHypothesis noReturn.2

theorem declares_empty : Declares "" [] :=
  ⟨List.not_mem_nil, fun _ => ⟨rfl, [], ⟨[], _, .ending, .empty⟩, rfl⟩⟩

theorem Declares.append_line {below : String} {more : List Declaration}
    (declares : Declares text unplaced) (declaresBelow : Declares below more) :
    Declares (text ++ "\n" ++ below) (unplaced ++ more) := by
  have returns := returnsEndLines_of_notMem declares.noReturn
  constructor
  · rw [Source.toList_append_line]
    exact List.not_mem_append declares.noReturn
      (List.not_mem_cons_of_ne_of_not_mem (by decide) declaresBelow.noReturn)
  · intro file
    obtain ⟨ready, declarations, here, rfl⟩ := declares.declares file
    obtain ⟨readyBelow, others, there, rfl⟩ := declaresBelow.declares file
    refine ⟨Source.ofText_append_line returns ready readyBelow, _,
      here.append_line returns there, ?_⟩
    rw [List.map_append, List.map_map]
    refine congrArg (List.append _) (List.map_congr_left fun declaration _ => ?_)
    exact declaration.relocate_nowhere_relocate

/-- Texts that stand one below the other declare what each of them declares. -/
theorem declares_stacked {texts : List String} {each : List (List Declaration)}
    (declares : List.Forall₂ Declares texts each) : Declares (stacked texts) each.flatten := by
  induction declares with
  | nil => exact declares_empty
  | cons head tail inductionHypothesis =>
    cases tail with
    | nil =>
      rw [stacked, String.intercalate_singleton, List.flatten_singleton]
      exact head
    | cons =>
      rw [stacked, String.intercalate_cons_cons, List.flatten_cons]
      exact head.append_line inductionHypothesis

end Text

/-! ### Compiling in another order -/

/-- Two texts that declare the same in another order are read alike. -/
theorem Text.Declares.parse {text other : String} {unplaced otherUnplaced : List Declaration}
    (declares : Declares text unplaced) (otherDeclares : Declares other otherUnplaced)
    (reordered : unplaced.Perm otherUnplaced) (file : String) :
    ((∃ schema, (Source.prepared file text).parse = .ok schema) ↔
      ∃ schema, (Source.prepared file other).parse = .ok schema) ∧
    ∀ {first second : Schema}, (Source.prepared file text).parse = .ok first →
      (Source.prepared file other).parse = .ok second → first.alike second = true := by
  obtain ⟨_, declarations, here, rfl⟩ := declares.declares file
  obtain ⟨_, others, there, rfl⟩ := otherDeclares.declares file
  constructor
  · rw [here.parses_iff, there.parses_iff, ← Schema.distinct_relocate_iff,
      Schema.distinct_perm reordered, Schema.distinct_relocate_iff]
  · intro first second parsed otherParsed
    obtain ⟨_, again, lists⟩ := Source.parse_eq_ok_iff_declares.mp parsed
    obtain ⟨_, otherAgain, otherLists⟩ := Source.parse_eq_ok_iff_declares.mp otherParsed
    cases here.unique again
    cases there.unique otherAgain
    exact lists.alike otherLists reordered

/-- Two texts that declare the same in another order are compiled alike. -/
theorem Text.Declares.compileText {text other : String} {unplaced otherUnplaced : List Declaration}
    (declares : Declares text unplaced) (otherDeclares : Declares other otherUnplaced)
    (reordered : unplaced.Perm otherUnplaced) (file : String) :
    ((∃ schema, compileText file text = .ok schema) ↔
      ∃ schema, compileText file other = .ok schema) ∧
    ∀ first second, compileText file text = .ok first → compileText file other = .ok second →
      first.alike second = true := by
  obtain ⟨sameReading, alike⟩ := declares.parse otherDeclares reordered file
  have ready := (declares.declares file).1
  have otherReady := (otherDeclares.declares file).1
  cases parsed : (Source.prepared file text).parse with
  | error error =>
    cases otherParsed : (Source.prepared file other).parse with
    | ok schema =>
      obtain ⟨_, again⟩ := sameReading.mpr ⟨schema, otherParsed⟩
      exact nomatch parsed.symm.trans again
    | error otherError =>
      rw [compileText_of_parse_error ready parsed,
        compileText_of_parse_error otherReady otherParsed]
      exact ⟨⟨nofun, nofun⟩, nofun⟩
  | ok schema =>
    obtain ⟨otherSchema, otherParsed⟩ := sameReading.mp ⟨schema, parsed⟩
    rw [compileText_of_parse_ok ready parsed, compileText_of_parse_ok otherReady otherParsed]
    exact Schema.verify_alike (alike parsed otherParsed) _ _

/-- Likeness is an equivalence, checking respects it, and so does compiling: the order of the
declarations of a file is no matter. -/
theorem alike_respected :
    Equivalence (fun first second : Schema => first.alike second = true) ∧
    (∀ (first second : Schema) (source other : Source), first.alike second = true →
      ((first.violations source).map Violation.complaint).Perm
          ((second.violations other).map Violation.complaint) ∧
        ((∃ after, first.verify source = .ok after) ↔ ∃ after, second.verify other = .ok after) ∧
        ∀ after otherAfter, first.verify source = .ok after →
          second.verify other = .ok otherAfter → after.alike otherAfter = true) ∧
    ∀ (file : String) (texts others : List String), (∀ text ∈ texts, Text.IsCode text) →
      texts.Perm others →
        ((∃ schema, compileText file (Text.stacked texts) = .ok schema) ↔
          ∃ schema, compileText file (Text.stacked others) = .ok schema) ∧
        ∀ first second, compileText file (Text.stacked texts) = .ok first →
          compileText file (Text.stacked others) = .ok second → first.alike second = true := by
  refine ⟨⟨Schema.alike_self, Schema.alike_symm, Schema.alike_trans⟩, ?_, ?_⟩
  · intro first second source other alike
    exact ⟨Schema.perm_complaint_of_alike alike source other,
      Schema.verify_alike alike source other⟩
  · intro file texts others code reordered
    choose! unplaced declares using fun text member => (code text member).exists_declares
    have each : ∀ {some : List String}, some ⊆ texts →
        List.Forall₂ Text.Declares some (some.map unplaced) := fun among =>
      List.forall₂_map_right_iff.mpr (List.forall₂_same.mpr fun text member =>
        declares text (among member))
    exact (Text.declares_stacked (each (List.Subset.refl _))).compileText
      (Text.declares_stacked (each reordered.symm.subset)) (reordered.map unplaced).flatten file

/-- A message on lines without carriage returns. -/
def plainText : String := "message Pair \x7b\n\tint8 left\n\x7d"

set_option maxRecDepth 2000 in
theorem pairSchema_permuted : ∃ first second,
    compileText "pair.idl" (Text.stacked [plainText, swapText]) = .ok first ∧
      compileText "pair.idl" (Text.stacked [swapText, plainText]) = .ok second ∧
      first.alike second = true := by
  have compiled : compileText "pair.idl" (Text.stacked [plainText, swapText]) =
      .ok ⟨pairSchema.messages, (swapSchema.relocate (Source.lower 3)).services⟩ := by cbv
  have readPlain : readText "pair.idl" plainText =
      .ok (Source.prepared "pair.idl" plainText, pairSchema) := by cbv
  have readSwap : readText "pair.idl" swapText =
      .ok (Source.prepared "pair.idl" swapText, swapSchema) := by cbv
  have code : ∀ text ∈ [plainText, swapText], Text.IsCode text := by
    rw [List.forall_mem_cons, List.forall_mem_singleton]
    exact ⟨Text.isCode_of_readText (by decide) readPlain,
      Text.isCode_of_readText (by decide) readSwap⟩
  obtain ⟨sameSuccess, alike⟩ := alike_respected.2.2 "pair.idl" _ _ code (.swap _ _ [])
  obtain ⟨second, otherCompiled⟩ := sameSuccess.mp ⟨_, compiled⟩
  exact ⟨_, second, compiled, otherCompiled, alike _ _ compiled otherCompiled⟩

end Idl
