/-
This file shows that blank lines and comments are invisible. Lines that say nothing may
be inserted into a text anywhere: the text compiles to the same schema as before or fails
for the same reason as before, and everything keeps its column and its length and moves
to the new number of its line. The end of a file may come to stand in another column, and
a report that quotes the line of a first declaration quotes the new number.
-/

import Idl.Proofs.InvisibleLines
import Idl.Proofs.PlacedNames
import Idl.Proofs.TrailingBlanks
import Idl.Proofs.Verified

namespace Idl

open Text (Inserted ReturnsEndLines pieces joinPieces)

/-! ### Codes with blanks behind them -/

theorem Text.joinPieces_append_last (separator : Char) (front : List (List Char))
    (last blanks : List Char) :
    joinPieces separator (front ++ [last ++ blanks]) =
      joinPieces separator (front ++ [last]) ++ blanks := by
  induction front with
  | nil => simp only [List.nil_append, joinPieces_singleton]
  | cons part rest inductionHypothesis =>
    cases rest with
    | nil =>
      simp only [List.cons_append, List.nil_append, joinPieces_cons_cons, joinPieces_singleton,
        List.append_assoc]
    | cons second others =>
      simp only [List.cons_append, joinPieces_cons_cons, List.append_assoc] at inductionHypothesis ⊢
      rw [inductionHypothesis]

namespace Source

variable {file text other : String} {renumber : Nat → Nat}

theorem SameCode.joinPieces_eq {whole trimmed : List (List Char × Nat)}
    (same : SameCode whole trimmed) :
    whole.map Prod.snd = trimmed.map Prod.snd ∧
      ∃ tail, (∀ character ∈ tail, Text.isBlank character) ∧
        joinPieces '\n' (whole.map Prod.fst) = joinPieces '\n' (trimmed.map Prod.fst) ++ tail := by
  rcases same with rfl | ⟨front, code, number, blanks, rfl, rfl, blank⟩
  · exact ⟨rfl, [], nofun, (List.append_nil _).symm⟩
  · refine ⟨by simp only [List.map_append, List.map_singleton], blanks, blank, ?_⟩
    rw [List.map_append, List.map_append]
    exact Text.joinPieces_append_last '\n' _ code blanks

/-- The second text has the code of the first one on the lines that it is taken to, and possibly
other blanks at its end. -/
structure SameLines (renumber : Nat → Nat) (text other : String) : Prop where
  numbers : (keptLines (numberedLines other)).map Prod.snd =
    (keptLines (numberedLines text)).map fun line => renumber line.2
  code : ∃ tail otherTail, (∀ character ∈ tail, Text.isBlank character) ∧
    (∀ character ∈ otherTail, Text.isBlank character) ∧
    joinPieces '\n' ((keptLines (numberedLines text)).map Prod.fst) ++ tail =
      joinPieces '\n' ((keptLines (numberedLines other)).map Prod.fst) ++ otherTail
  slash : firstSlash? (numberedLines other) =
    (firstSlash? (numberedLines text)).map fun place => (renumber place.1, place.2)

/-- Inserted lines leave the code on its lines. -/
theorem sameLines_of_inserted (returns : ReturnsEndLines text.toList)
    (inserted : Inserted renumber 1 1 (pieces '\n' text.toList) (pieces '\n' other.toList)) :
    SameLines renumber text other := by
  have clean : ∀ line ∈ pieces '\n' text.toList, '\r' ∉ Text.dropReturn line :=
    fun line member => Text.return_notMem_dropReturn returns member
  obtain ⟨same, sameSlash⟩ := sameCode_numberedLines clean
  obtain ⟨otherSame, otherSlash⟩ :=
    sameCode_numberedLines (return_notMem_of_inserted inserted clean)
  obtain ⟨numbers, tail, blank, joined⟩ := same.joinPieces_eq
  obtain ⟨otherNumbers, otherTail, otherBlank, otherJoined⟩ := otherSame.joinPieces_eq
  have kept := keptLines_of_inserted inserted
  refine ⟨?_, ⟨tail, otherTail, blank, otherBlank, ?_⟩, ?_⟩
  · have mapped := congrArg (List.map renumber) numbers
    rw [List.map_map, List.map_map] at mapped
    rw [← otherNumbers, kept, List.map_map]
    exact mapped
  · rw [← joined, ← otherJoined, kept, List.map_map]
    rfl
  · rw [← otherSlash, ← sameSlash, firstSlash?_of_inserted inserted]

/-! ### Sources with other line numbers -/

/-- Every line is taken to its new number. -/
def renumbering (renumber : Nat → Nat) : Relocation :=
  .ofLine fun line => UInt32.ofNat (renumber line.toNat)

/-- Where there is code, every line of it and its end have a number in the line map. -/
theorem exists_lineNumber {source : Source} (nonempty : source.lineMap ≠ #[]) (line : Nat) :
    ∃ number ∈ source.lineMap, source.lineMap[line]?.or source.lineMap.back? = some number := by
  cases found : source.lineMap[line]? with
  | some number => exact ⟨number, Array.mem_of_getElem? found, rfl⟩
  | none =>
    cases last : source.lineMap.back? with
    | some number => exact ⟨number, Array.mem_of_back? last, rfl⟩
    | none => exact absurd (Array.back?_eq_none_iff.mp last) nonempty

theorem lineNumber_mem {source : Source} (nonempty : source.lineMap ≠ #[]) (line : Nat) :
    source.lineNumber line ∈ source.lineMap := by
  obtain ⟨number, member, same⟩ := exists_lineNumber nonempty line
  rw [lineNumber, same, Option.getD_some]
  exact member

theorem lineNumber_of_map {source moved : Source} {change : UInt32 → UInt32}
    (mapped : moved.lineMap = source.lineMap.map change) (nonempty : source.lineMap ≠ #[])
    (line : Nat) : moved.lineNumber line = change (source.lineNumber line) := by
  obtain ⟨number, _, same⟩ := exists_lineNumber nonempty line
  have both : moved.lineMap[line]?.or moved.lineMap.back? = some (change number) := by
    rw [mapped, Array.getElem?_map, Array.back?_map, ← Option.map_or, same, Option.map_some]
  rw [lineNumber, lineNumber, same, both, Option.getD_some, Option.getD_some]

/-- The sources of two texts with the same lines of code, when there are any. The one is the other
one moved, and no number is too large. -/
theorem movedTo_of_sameLines (file : String) (short : text.length < 2 ^ 32)
    (otherShort : other.length < 2 ^ 32) (same : SameLines renumber text other)
    (nonempty : (prepared file text).lineMap ≠ #[]) :
    (prepared file text).MovedTo (renumbering renumber) (prepared file other) ∧
      ∀ number ∈ (prepared file text).lineMap,
        (UInt32.ofNat (renumber number.toNat)).toNat = renumber number.toNat := by
  have lineMap : (prepared file text).lineMap =
      ((keptLines (numberedLines text)).map fun line => UInt32.ofNat line.2).toArray := rfl
  have mapped : (prepared file other).lineMap =
      (prepared file text).lineMap.map fun number => UInt32.ofNat (renumber number.toNat) := by
    have numbers := congrArg (List.map UInt32.ofNat) same.numbers
    rw [List.map_map, List.map_map] at numbers
    rw [lineMap, List.map_toArray, List.map_map]
    refine congrArg List.toArray (numbers.trans (List.map_congr_left fun line member => ?_))
    exact congrArg (fun number => UInt32.ofNat (renumber number))
      (toNat_of_mem_keptLines short member).symm
  refine ⟨⟨rfl, fun line column length => ?_⟩, fun number member => ?_⟩
  · rw [span, lineNumber_of_map mapped nonempty]
    rfl
  · rw [lineMap, List.mem_toArray] at member
    obtain ⟨line, kept, rfl⟩ := List.mem_map.mp member
    have inOther : renumber line.2 ∈ (keptLines (numberedLines other)).map Prod.snd := by
      rw [same.numbers]
      exact List.mem_map.mpr ⟨line, kept, rfl⟩
    obtain ⟨otherLine, otherKept, number⟩ := List.mem_map.mp inOther
    -- Nothing bounds `renumber` itself: the new number fits because the other text has such a line.
    rw [toNat_of_mem_keptLines short kept, ← number]
    exact toNat_of_mem_keptLines otherShort otherKept

theorem scansLike_of_sameLines (file : String) (same : SameLines renumber text other) :
    (prepared file text).ScansLike (prepared file other) := by
  obtain ⟨tail, otherTail, blank, otherBlank, joined⟩ := same.code
  rcases List.append_eq_append_iff.mp joined with ⟨more, longer, rest⟩ | ⟨more, longer, rest⟩
  · refine scansLike_of_blank (List.append_nil _).symm longer nofun fun character member => ?_
    exact blank character (rest ▸ List.mem_append_left _ member)
  · refine scansLike_of_blank longer (List.append_nil _).symm (fun character member => ?_) nofun
    exact otherBlank character (rest ▸ List.mem_append_left _ member)

/-- A text without code has an empty source, and so has a text with the same lines of code. -/
theorem text_eq_nil_of_sameLines (file : String) (same : SameLines renumber text other)
    (blank : (prepared file text).lineMap = #[]) :
    (prepared file text).text = [] ∧ (prepared file other).text = [] := by
  have none : keptLines (numberedLines text) = [] :=
    List.map_eq_nil_iff.mp (congrArg Array.toList blank)
  have otherNone : keptLines (numberedLines other) = [] := by
    refine List.map_eq_nil_iff.mp (same.numbers.trans ?_)
    rw [none, List.map_nil]
  constructor
  · rw [prepared, none]
    rfl
  · rw [prepared, otherNone]
    rfl

/-! ### Slashes -/

theorem ofText_of_firstSlash? {number column : Nat}
    (slash : firstSlash? (numberedLines text) = some (number, column)) :
    ∃ line, (line, number) ∈ numberedLines text ∧ line ≠ [] ∧
      ofText file text = .error ⟨straySlashMessage, file, UInt32.ofNat number,
        some (UInt32.ofNat column), some 1, some (String.ofList line)⟩ := by
  obtain ⟨before, ⟨line, _⟩, after, shape, found, none⟩ := List.findSome?_eq_some_iff.mp slash
  obtain ⟨_, here, same⟩ := Option.map_eq_some_iff.mp found
  cases same
  refine ⟨line, by rw [shape]; simp, ?_, ofText_eq_error_iff.mpr ?_⟩
  · rintro rfl
    exact nomatch here
  · refine List.findSome?_eq_some_iff.mpr ⟨before, _, after, shape, ?_, ?_⟩
    · rw [straySlash?, here]
      rfl
    · intro earlier member
      rw [straySlash?, Option.map_eq_none_iff.mp (none earlier member)]
      rfl

theorem ofText_of_firstSlash?_eq_none (clean : firstSlash? (numberedLines text) = none) :
    ofText file text = .ok (prepared file text) := by
  refine ofText_eq_ok_iff.mpr ⟨List.findSome?_eq_none_iff.mpr fun line member => ?_, rfl⟩
  have none := List.findSome?_eq_none_iff.mp clean line member
  rw [straySlash?, Option.map_eq_none_iff.mp none]
  rfl

theorem toNat_of_mem_numberedLines (short : text.length < 2 ^ 32) {line : List Char}
    {number : Nat} (member : (line, number) ∈ numberedLines text) (nonempty : line ≠ []) :
    (UInt32.ofNat number).toNat = number := by
  obtain ⟨place, rfl⟩ := Nat.exists_eq_add_of_le (List.le_snd_of_mem_zipIdx member)
  have inFile := List.mk_add_mem_zipIdx_iff_getElem?.mp member
  rw [Nat.add_comm]
  exact (Text.shows_of_getElem?_fileLines short inFile nonempty).1

end Source

/-! ### The same outcome on other lines -/

/-- A declaration of the text repeats the name of an earlier one, and this is reported. -/
def RepeatsName (file text : String) : Prop :=
  ∃ source original repeated, Source.ofText file text = .ok source ∧
    source.RepeatsInTime original repeated

/-- The first token of the text that cannot follow is the end of the file, and this is
reported. -/
def EndsEarly (file text : String) : Prop :=
  ∃ source diagnostic index token, Source.ofText file text = .ok source ∧
    source.parse = .error (.syntactic diagnostic) ∧ source.FirstWrong index ∧
    source.delivered[index]? = some token ∧ token.kind = .endOfFile

/-- The second report is the first one with other line numbers, where the first one was made of
the text. -/
structure Diagnostic.Renumbered (file text : String) (renumber : Nat → Nat)
    (first second : Diagnostic) : Prop where
  label : second.file = first.file
  line : second.line.toNat = renumber first.line.toNat
  column : second.column = first.column ∨ EndsEarly file text
  spanLength : second.spanLength = first.spanLength
  message : ¬ RepeatsName file text → second.message = first.message
  quoted : RepeatsName file text → ∃ start number,
    first.message = start ++ ", first declared at line " ++ toString number ∧
      second.message = start ++ ", first declared at line " ++ toString (renumber number)

/-- The second failure is of the same kind as the first one, with other line numbers. -/
inductive CompileError.Renumbered (file text : String) (renumber : Nat → Nat) :
    CompileError → CompileError → Prop where
  | lexical {first second : Diagnostic} (report : first.Renumbered file text renumber second) :
      Renumbered file text renumber (.lexical first) (.lexical second)
  | syntactic {first second : Diagnostic} (report : first.Renumbered file text renumber second) :
      Renumbered file text renumber (.syntactic first) (.syntactic second)
  | semantic {first second : Diagnostic} (report : first.Renumbered file text renumber second) :
      Renumbered file text renumber (.semantic first) (.semantic second)

/-- The second schema is the first one with everything in it moved to the new number of its
line. -/
structure Schema.Renumbered (renumber : Nat → Nat) (schema other : Schema) : Prop where
  moved : other = schema.relocate (Source.renumbering renumber)
  lines : ∀ word ∈ schema.placedNames,
    ((Source.renumbering renumber).span word.2).line.toNat = renumber word.2.line.toNat
  alike : schema.alike other = true
  messageKeys : other.messages.keys = schema.messages.keys
  serviceKeys : other.services.keys = schema.services.keys

variable {file text other : String} {renumber : Nat → Nat} {source otherSource : Source}
  {schema : Schema}

theorem not_repeatsName (ready : Source.ofText file text = .ok source)
    (unlike : ∀ diagnostic, source.parse ≠ .error (.semantic diagnostic)) :
    ¬ RepeatsName file text := by
  rintro ⟨_, original, repeated, again, inTime⟩
  cases ready.symm.trans again
  exact unlike _ inTime.parse_eq

/-- The lines of a source have numbers that are not too large. -/
def Source.Told (renumber : Nat → Nat) (source : Source) : Prop :=
  ∀ line, (UInt32.ofNat (renumber (source.lineNumber line).toNat)).toNat =
    renumber (source.lineNumber line).toNat

/-- The same problem is reported on the new line. -/
theorem Source.MovedTo.renumbered
    (moved : source.MovedTo (Source.renumbering renumber) otherSource)
    (told : source.Told renumber) (once : ¬ RepeatsName file text) (message : String)
    (line length : Nat) {column otherColumn : Nat}
    (columns : otherColumn = column ∨ EndsEarly file text) :
    (source.diagnostic message (source.span line column length)).Renumbered file text renumber
      (otherSource.diagnostic message (otherSource.span line otherColumn length)) := by
  rw [moved.span]
  exact {
    label := moved.file
    line := told line
    column := Or.imp_left (congrArg fun number => some (UInt32.ofNat number)) columns
    spanLength := rfl
    message := fun _ => rfl
    quoted := fun repeats => absurd repeats once }

open Declaration in
theorem renumbered_of_misread (ready : Source.ofText file text = .ok source)
    (moved : source.MovedTo (Source.renumbering renumber) otherSource)
    (told : source.Told renumber) {error otherError : CompileError}
    (failed : source.parse = .error error)
    (misread : Misread (Source.renumbering renumber) source otherSource error otherError) :
    error.Renumbered file text renumber otherError := by
  cases misread with
  | invalid character line column =>
    have once : ¬ RepeatsName file text :=
      not_repeatsName ready fun _ semantic => nomatch failed.symm.trans semantic
    exact .lexical (moved.renumbered told once _ line 1 (Or.inl rfl))
  | @refused index token otherToken message wrong found like =>
    have once : ¬ RepeatsName file text :=
      not_repeatsName ready fun _ semantic => nomatch failed.symm.trans semantic
    have columns : otherToken.column = token.column ∨ EndsEarly file text := by
      by_cases final : token.kind = .endOfFile
      · exact Or.inr ⟨source, _, index, token, ready, failed, wrong, found, final⟩
      · exact Or.inl (like.column final)
    rw [Source.tokenSpan, Source.tokenSpan, Token.length, Token.length, like.line, like.text]
    exact .syntactic (moved.renumbered told once message _ _ columns)
  | @repeated original repeated repeats =>
    have repeatsName : RepeatsName file text := by
      obtain ⟨first, second, inTime, _⟩ := Source.parse_eq_semantic_iff.mp failed
      exact ⟨source, first, second, ready, inTime⟩
    obtain ⟨_, originalSpan⟩ := repeats.originalIn.named
    obtain ⟨_, repeatedSpan⟩ := repeats.repeatedIn.named
    have toldFirst : ((Source.renumbering renumber).line original.declaration.span.line).toNat =
        renumber original.declaration.span.line.toNat := by
      rw [originalSpan]
      exact told original.name.line
    refine .semantic {
      label := moved.file
      line := ?_
      column := Or.inl rfl
      spanLength := rfl
      message := fun once => absurd repeatsName once
      quoted := fun _ => ⟨_, _, rfl, ?_⟩ }
    · show ((Source.renumbering renumber).span repeated.declaration.span).line.toNat =
        renumber repeated.declaration.span.line.toNat
      rw [repeatedSpan]
      exact told repeated.name.line
    · exact congrArg (fun number => "repeated " ++ repeated.declaration.kind.word ++ " " ++
        Text.quote repeated.declaration.name ++ ", first declared at line " ++ toString number)
        toldFirst

/-! ### Compiling -/

theorem compileText_of_refused {diagnostic : Diagnostic}
    (refused : Source.ofText file text = .error diagnostic) :
    compileText file text = .error (.lexical diagnostic) := by
  rw [compileText, readText, refused]

theorem compileText_of_parse_error (ready : Source.ofText file text = .ok source)
    {error : CompileError} (failed : source.parse = .error error) :
    compileText file text = .error error := by
  simp only [compileText, readText, ready, failed]

theorem compileText_of_parse_ok (ready : Source.ofText file text = .ok source)
    (parsed : source.parse = .ok schema) : compileText file text = schema.verify source := by
  simp only [compileText, readText, ready, parsed]

/-- Clearing `void` takes words away and adds none. -/
theorem Schema.placedNames_clearVoid_subset (schema : Schema) :
    schema.clearVoid.placedNames ⊆ schema.placedNames := by
  refine List.append_subset.mpr ⟨List.subset_append_left _ _, fun word member => ?_⟩
  rw [Schema.clearVoid, SymbolTable.values_map, List.mem_flatMap] at member
  obtain ⟨cleared, inValues, inService⟩ := member
  obtain ⟨service, inSchema, rfl⟩ := List.mem_map.mp inValues
  refine List.mem_append_right _ (List.mem_flatMap.mpr ⟨service, inSchema, ?_⟩)
  rcases List.mem_cons.mp inService with rfl | inMethods
  · exact List.mem_cons_self
  · obtain ⟨_, inCleared, inMethod⟩ := List.mem_flatMap.mp inMethods
    obtain ⟨method, inService, rfl⟩ := List.mem_map.mp inCleared
    refine List.mem_cons_of_mem _ (List.mem_flatMap.mpr ⟨method, inService, ?_⟩)
    rcases method.clearVoid_cases with ⟨same, _⟩ | emptied
    · exact same ▸ inMethod
    · rw [emptied] at inMethod
      rcases List.mem_cons.mp inMethod with rfl | inRest
      · exact List.mem_cons_self
      · rw [List.mem_singleton.mp inRest]
        exact List.mem_cons_of_mem _ List.mem_cons_self

/-- A schema that is moved keeps all that it is to its users. -/
theorem Schema.renumbered_relocate {schema : Schema}
    (lines : ∀ word ∈ schema.placedNames,
      ((Source.renumbering renumber).span word.2).line.toNat = renumber word.2.line.toNat) :
    schema.Renumbered renumber (schema.relocate (Source.renumbering renumber)) where
  moved := rfl
  lines := lines
  alike := schema.alike_relocate _
  messageKeys := SymbolTable.keys_map _ _
  serviceKeys := SymbolTable.keys_map _ _

/-- Two texts compile alike or fail alike. -/
def CompileAlike (file text other : String) (renumber : Nat → Nat) : Prop :=
  (∃ schema otherSchema, compileText file text = .ok schema ∧
      compileText file other = .ok otherSchema ∧ schema.Renumbered renumber otherSchema) ∨
    ∃ error otherError, compileText file text = .error error ∧
      compileText file other = .error otherError ∧ error.Renumbered file text renumber otherError

/-- What is declared on other lines is checked alike. -/
theorem compileAlike_of_parse (ready : Source.ofText file text = .ok source)
    (otherReady : Source.ofText file other = .ok otherSource)
    (moved : source.MovedTo (Source.renumbering renumber) otherSource)
    (told : source.Told renumber) (parsed : source.parse = .ok schema)
    (otherParsed : otherSource.parse = .ok (schema.relocate (Source.renumbering renumber))) :
    CompileAlike file text other renumber := by
  have placed : ∀ word ∈ schema.placedNames, ∃ token, word.2 = source.tokenSpan token := by
    intro word member
    obtain ⟨token, _, _, rfl⟩ := Source.placed_of_parse parsed word member
    exact ⟨token, rfl⟩
  have compiled := compileText_of_parse_ok ready parsed
  have otherCompiled := compileText_of_parse_ok otherReady otherParsed
  rw [Schema.verify] at compiled otherCompiled
  rw [Schema.findings_relocate] at otherCompiled
  cases findings : schema.findings with
  | nil =>
    rw [findings] at compiled otherCompiled
    rw [List.map_nil, Schema.clearVoid_relocate] at otherCompiled
    refine Or.inl ⟨_, _, compiled, otherCompiled, Schema.renumbered_relocate fun word member => ?_⟩
    obtain ⟨token, place⟩ := placed word (schema.placedNames_clearVoid_subset member)
    rw [place]
    exact told token.line
  | cons finding rest =>
    rw [findings] at compiled otherCompiled
    rw [List.map_cons] at otherCompiled
    refine Or.inr ⟨_, _, compiled, otherCompiled, .semantic ?_⟩
    have once : ¬ RepeatsName file text :=
      not_repeatsName ready fun _ semantic => by cases parsed.symm.trans semantic
    obtain ⟨word, fault⟩ := Schema.exists_atFault (findings ▸ List.mem_cons_self)
    obtain ⟨token, place⟩ := placed _ fault.placed
    rw [Finding.diagnostic, Finding.diagnostic, Finding.relocate,
      show finding.span = _ from place, ← moved.tokenSpan]
    exact moved.renumbered told once _ _ _ (Or.inl rfl)

/-- The same slash is refused on the new line. -/
theorem compileAlike_of_firstSlash? (short : text.length < 2 ^ 32)
    (otherShort : other.length < 2 ^ 32) (same : Source.SameLines renumber text other)
    {number column : Nat}
    (slash : Source.firstSlash? (Source.numberedLines text) = some (number, column)) :
    CompileAlike file text other renumber := by
  have otherSlash : Source.firstSlash? (Source.numberedLines other) =
      some (renumber number, column) := by
    rw [same.slash, slash]
    rfl
  obtain ⟨line, member, nonempty, refused⟩ := Source.ofText_of_firstSlash? slash
  obtain ⟨otherLine, otherMember, otherNonempty, otherRefused⟩ :=
    Source.ofText_of_firstSlash? otherSlash
  have once : ¬ RepeatsName file text := by
    rintro ⟨_, _, _, ready, _⟩
    exact nomatch refused.symm.trans ready
  refine Or.inr ⟨_, _, compileText_of_refused refused, compileText_of_refused otherRefused,
    .lexical {
      label := rfl
      line := ?_
      column := Or.inl rfl
      spanLength := rfl
      message := fun _ => rfl
      quoted := fun repeats => absurd repeats once }⟩
  rw [Source.toNat_of_mem_numberedLines short member nonempty]
  exact Source.toNat_of_mem_numberedLines otherShort otherMember otherNonempty

/-- Texts with the same lines of code compile alike. -/
theorem compileAlike_of_sameLines (short : text.length < 2 ^ 32)
    (otherShort : other.length < 2 ^ 32) (same : Source.SameLines renumber text other) :
    CompileAlike file text other renumber := by
  cases slash : Source.firstSlash? (Source.numberedLines text) with
  | some place => exact compileAlike_of_firstSlash? short otherShort same slash
  | none =>
    have otherSlash : Source.firstSlash? (Source.numberedLines other) = none := by
      rw [same.slash, slash]
      rfl
    have ready : Source.ofText file text = .ok _ := Source.ofText_of_firstSlash?_eq_none slash
    have otherReady : Source.ofText file other = .ok _ :=
      Source.ofText_of_firstSlash?_eq_none otherSlash
    by_cases nothing : (Source.prepared file text).lineMap = #[]
    · obtain ⟨blank, otherBlank⟩ := Source.text_eq_nil_of_sameLines file same nothing
      have compiled := compileText_of_parse_ok ready (Source.parse_of_text_nil blank)
      have otherCompiled := compileText_of_parse_ok otherReady (Source.parse_of_text_nil otherBlank)
      have renumbered : Schema.Renumbered renumber .empty .empty :=
        Schema.renumbered_relocate nofun
      exact Or.inl ⟨.empty, .empty, compiled, otherCompiled, renumbered⟩
    · obtain ⟨moved, exactNumbers⟩ :=
        Source.movedTo_of_sameLines file short otherShort same nothing
      have told : (Source.prepared file text).Told renumber := fun line =>
        exactNumbers _ (Source.lineNumber_mem nothing line)
      rcases moved.parse (Source.scansLike_of_sameLines file same) with
        ⟨schema, parsed, otherParsed⟩ | ⟨error, otherError, failed, otherFailed, misread⟩
      · exact compileAlike_of_parse ready otherReady moved told parsed otherParsed
      · exact Or.inr ⟨error, otherError, compileText_of_parse_error ready failed,
          compileText_of_parse_error otherReady otherFailed,
          renumbered_of_misread ready moved told failed misread⟩

/-- Lines that say nothing may be inserted into a text whose carriage returns stand at the ends of
its lines. The text compiles just where it did before. The schema is then the same with every line
taken to its new number; and what goes wrong is the same on the new line, where it is not the end
of the file in the same column. -/
theorem compileText_inserted (file : String) (short : text.length < 2 ^ 32)
    (otherShort : other.length < 2 ^ 32) (returns : ReturnsEndLines text.toList)
    (inserted : Inserted renumber 1 1 (pieces '\n' text.toList) (pieces '\n' other.toList)) :
    ((∃ schema, compileText file other = .ok schema) ↔
      ∃ schema, compileText file text = .ok schema) ∧
    (∀ schema, compileText file text = .ok schema → ∃ otherSchema,
      compileText file other = .ok otherSchema ∧ schema.Renumbered renumber otherSchema) ∧
    ∀ error, compileText file text = .error error → ∃ otherError,
      compileText file other = .error otherError ∧
        error.Renumbered file text renumber otherError := by
  have same := Source.sameLines_of_inserted returns inserted
  have alike : CompileAlike file text other renumber :=
    compileAlike_of_sameLines short otherShort same
  rcases alike with
    ⟨schema, otherSchema, compiled, otherCompiled, renumbered⟩ |
    ⟨error, otherError, failed, otherFailed, renumbered⟩
  · refine ⟨⟨fun _ => ⟨schema, compiled⟩, fun _ => ⟨otherSchema, otherCompiled⟩⟩, ?_, ?_⟩
    · intro again compiledAgain
      cases compiled.symm.trans compiledAgain
      exact ⟨otherSchema, otherCompiled, renumbered⟩
    · intro error failed
      exact nomatch compiled.symm.trans failed
  · refine ⟨⟨?_, ?_⟩, ?_, ?_⟩
    · rintro ⟨schema, compiled⟩
      exact nomatch otherFailed.symm.trans compiled
    · rintro ⟨schema, compiled⟩
      exact nomatch failed.symm.trans compiled
    · intro schema compiled
      exact nomatch failed.symm.trans compiled
    · intro again failedAgain
      cases failed.symm.trans failedAgain
      exact ⟨otherError, otherFailed, renumbered⟩

/-- A message over three lines. -/
def pairText : String := "message Pair \x7b\r\n\tint8 left\n\x7d"

/-- The message with a line that says nothing in front of each of its lines. -/
def spacedText : String :=
  "// A pair.\nmessage Pair \x7b\r\n\n\tint8 left\n \t// That is all.\n\x7d"

/-- What it declares. -/
def pairSchema : Schema where
  messages := ⟨[("Pair", ⟨"Pair", [⟨⟨"int8", ⟨2, 1, 4⟩⟩, "left", ⟨2, 6, 4⟩⟩], ⟨1, 8, 4⟩⟩)],
    List.nodup_singleton _⟩
  services := .empty

theorem pairSchema_renumbered :
    compileText "pair.idl" pairText = .ok pairSchema ∧ ∃ spaced,
      compileText "pair.idl" spacedText = .ok spaced ∧
        pairSchema.Renumbered (fun line => 2 * line) spaced := by
  have compiled : compileText "pair.idl" pairText = .ok pairSchema := by cbv
  have old : pieces '\n' pairText.toList =
      ["message Pair \x7b\r".toList, "\tint8 left".toList, "\x7d".toList] := rfl
  have new : pieces '\n' spacedText.toList =
      ["// A pair.".toList, "message Pair \x7b\r".toList, [], "\tint8 left".toList,
        " \t// That is all.".toList, "\x7d".toList] := rfl
  have returns : ReturnsEndLines pairText.toList := by
    unfold ReturnsEndLines
    decide
  have inserted : Inserted (fun line => 2 * line) 1 1 (pieces '\n' pairText.toList)
      (pieces '\n' spacedText.toList) := by
    rw [old, new]
    refine .invisible ⟨[], "// A pair.".toList, rfl, List.forall_mem_nil _, by decide,
      by decide, Or.inr ⟨_, rfl⟩⟩ (.line rfl ?_)
    refine .invisible ⟨[], [], rfl, List.forall_mem_nil _, by decide, by decide, Or.inl rfl⟩
      (.line rfl ?_)
    refine .invisible ⟨" \t".toList, "// That is all.".toList, rfl, by simp [Text.isBlank],
      by decide, by decide, Or.inr ⟨_, rfl⟩⟩ (.line rfl .nil)
  have outcome := compileText_inserted "pair.idl" (by decide) (by decide) returns inserted
  exact ⟨compiled, outcome.2.1 _ compiled⟩

end Idl
