/-
This file reads one text below another one. If the second text repeats no name of the first
one, the schema of both lists the declarations of the first text and then those of the
second one, on lines that are counted on. If it does, reading ends at the first declaration
of the second text whose name the first one has taken, and the report quotes the line of the
declaration that has it.
-/

import Idl.Proofs.Positions
import Idl.Proofs.Seams

namespace Idl

open Declaration (Clash repetition)

open Text (ReturnsEndLines pieces)

/-! ### Names that are taken -/

/-- The line of the declaration that has the name of this one, if the name is taken in its
namespace. -/
def Schema.takenLine? (schema : Schema) : Declaration → Option UInt32
  | .message declared => (schema.messages.get? declared.name).map fun first => first.span.line
  | .service declared => (schema.services.get? declared.name).map fun first => first.span.line

/-- The second schema has no name of the first one, neither for a message nor for a service. -/
structure Schema.Apart (first second : Schema) : Prop where
  messages : ∀ key ∈ second.messages.keys, key ∉ first.messages.keys
  services : ∀ key ∈ second.services.keys, key ∉ first.services.keys

namespace SymbolTable

variable {Value : Type} {table : SymbolTable Value} {values : List Value} {name : Value → String}
  {key : String}

theorem get?_eq_none_iff : table.get? key = none ↔ key ∉ table.keys := by
  rw [← contains_iff_mem, ← isSome_get?, Option.not_isSome_iff_eq_none]

theorem get?_eq_some_iff_of_entries
    (entries : table.entries = values.map fun value => (name value, value)) {value : Value} :
    table.get? key = some value ↔ value ∈ values ∧ name value = key := by
  rw [get?_eq_some_iff, entries, List.mem_map]
  constructor
  · rintro ⟨other, member, same⟩
    obtain ⟨rfl, rfl⟩ := Prod.mk.inj same
    exact ⟨member, rfl⟩
  · rintro ⟨member, rfl⟩
    exact ⟨value, member, rfl⟩

theorem mem_keys_of_entries
    (entries : table.entries = values.map fun value => (name value, value)) :
    key ∈ table.keys ↔ ∃ value ∈ values, name value = key := by
  rw [keys, entries, List.map_map, List.mem_map]
  rfl

end SymbolTable

namespace Schema

variable {first second schema : Schema} {declarations others : List Declaration}
  {declaration : Declaration} {line : UInt32}

theorem Lists.takenLine?_eq_some_iff (lists : schema.Lists declarations) :
    schema.takenLine? declaration = some line ↔
      ∃ first ∈ declarations, Clash first declaration ∧ first.span.line = line := by
  cases declaration with
  | message declared =>
    simp only [takenLine?, Option.map_eq_some_iff,
      SymbolTable.get?_eq_some_iff_of_entries lists.messages, mem_messagesOf]
    constructor
    · rintro ⟨first, ⟨member, same⟩, rfl⟩
      exact ⟨.message first, member, ⟨rfl, same⟩, rfl⟩
    · rintro ⟨first | _, member, clash, rfl⟩
      · exact ⟨first, ⟨member, clash.2⟩, rfl⟩
      · exact nomatch clash.1
  | service declared =>
    simp only [takenLine?, Option.map_eq_some_iff,
      SymbolTable.get?_eq_some_iff_of_entries lists.services, mem_servicesOf]
    constructor
    · rintro ⟨first, ⟨member, same⟩, rfl⟩
      exact ⟨.service first, member, ⟨rfl, same⟩, rfl⟩
    · rintro ⟨_ | first, member, clash, rfl⟩
      · exact nomatch clash.1
      · exact ⟨first, ⟨member, clash.2⟩, rfl⟩

theorem Lists.takenLine?_eq_none_iff (lists : schema.Lists declarations) :
    schema.takenLine? declaration = none ↔ ∀ first ∈ declarations, ¬ Clash first declaration := by
  rw [Option.eq_none_iff_forall_ne_some]
  simp only [ne_eq, lists.takenLine?_eq_some_iff]
  exact ⟨fun free first member clash => free _ ⟨first, member, clash, rfl⟩,
    fun free _ ⟨first, member, clash, _⟩ => free first member clash⟩

theorem Lists.apart_iff (lists : second.Lists others) :
    first.Apart second ↔ ∀ declaration ∈ others, first.takenLine? declaration = none := by
  constructor
  · rintro apart (declared | declared) member
    · refine Option.map_eq_none_iff.mpr (SymbolTable.get?_eq_none_iff.mpr (apart.messages _ ?_))
      exact (SymbolTable.mem_keys_of_entries lists.messages).mpr
        ⟨declared, mem_messagesOf.mpr member, rfl⟩
    · refine Option.map_eq_none_iff.mpr (SymbolTable.get?_eq_none_iff.mpr (apart.services _ ?_))
      exact (SymbolTable.mem_keys_of_entries lists.services).mpr
        ⟨declared, mem_servicesOf.mpr member, rfl⟩
  · intro free
    constructor
    · intro key member
      obtain ⟨declared, inSecond, rfl⟩ := (SymbolTable.mem_keys_of_entries lists.messages).mp member
      exact SymbolTable.get?_eq_none_iff.mp
        (Option.map_eq_none_iff.mp (free _ (mem_messagesOf.mp inSecond)))
    · intro key member
      obtain ⟨declared, inSecond, rfl⟩ := (SymbolTable.mem_keys_of_entries lists.services).mp member
      exact SymbolTable.get?_eq_none_iff.mp
        (Option.map_eq_none_iff.mp (free _ (mem_servicesOf.mp inSecond)))

theorem distinct_append (firstDistinct : Distinct declarations) (secondDistinct : Distinct others)
    (free : ∀ second ∈ others, ∀ first ∈ declarations, ¬ Clash first second) :
    Distinct (declarations ++ others) :=
  List.pairwise_append.mpr ⟨firstDistinct, secondDistinct,
    fun first inFirst second inSecond => free second inSecond first inFirst⟩

end Schema

/-- Reading ends at the first declaration that repeats a name. -/
theorem Source.Declares.parse_of_clash {source : Source} {earlier later : List Declaration}
    {first declaration : Declaration}
    (declares : source.Declares (earlier ++ declaration :: later))
    (distinct : Schema.Distinct earlier) (member : first ∈ earlier)
    (clash : Clash first declaration) :
    source.parse = .error (Reader.repeated source (repetition first declaration)) := by
  obtain ⟨tokens, final, scans, spelled⟩ := declares
  rw [← List.singleton_append, ← List.append_assoc] at spelled
  obtain ⟨front, rest, rfl, spelledFront⟩ := spelled.exists_append
  have delivered : source.delivered = front ++ (rest ++ [final]) := by
    rw [Source.delivered, scans.deliver, List.append_assoc]
  obtain ⟨original, repeated, repeats, length, rfl, rfl⟩ :=
    exists_repeats_of_clash delivered spelledFront distinct member clash
  rw [repeated_repetition repeats.originalIn repeats.repeatedIn]
  refine repeats.parse_eq ?_
  rw [length, delivered, List.length_append, List.length_append, List.length_singleton]
  omega

/-! ### Lines and characters -/

/-- Each line but the last one ends in a character, and the characters of a line come to these. -/
theorem Text.length_pieces_add_le {separator : Char} {text piece : List Char}
    (member : piece ∈ pieces separator text) :
    (pieces separator text).length + piece.length ≤ text.length + 1 := by
  obtain ⟨before, after, rfl⟩ := infix_of_mem_pieces member
  have clean : piece.count separator = 0 :=
    List.count_eq_zero_of_not_mem fun inPiece => (of_mem_pieces member inPiece).2 rfl
  have beforeBound := List.count_le_length (a := separator) (l := before)
  have afterBound := List.count_le_length (a := separator) (l := after)
  rw [length_pieces, List.count_append, List.count_append, clean, List.length_append,
    List.length_append]
  omega

namespace Source

open Grammar

variable {file text first second : String}

theorem exists_keyword {place : Token → Span} {tokens : List Token} {declaration : Declaration}
    {declarations : List Declaration}
    (spelled : SpellsCode place tokens (declaration :: declarations)) :
    ∃ token ∈ tokens, token.kind = .message ∨ token.kind = .service := by
  have opens : ∀ {front : List Token}, SpellsStatement place front declaration →
      ∃ token ∈ front, token.kind = .message ∨ token.kind = .service := by
    intro front statement
    cases statement with
    | message keywordKind => exact ⟨_, List.mem_cons_self, Or.inl keywordKind⟩
    | service keywordKind => exact ⟨_, List.mem_cons_self, Or.inr keywordKind⟩
  cases spelled with
  | statements statement _ =>
    obtain ⟨token, member, kind⟩ := opens statement
    exact ⟨token, List.mem_append_left _ member, kind⟩
  | feedStatements _ statement _ =>
    obtain ⟨token, member, kind⟩ := opens statement
    exact ⟨token, List.mem_cons_of_mem _ (List.mem_append_left _ member), kind⟩

/-- A token of a text stands on a line that is found in the text. -/
theorem exists_shown (short : text.length < 2 ^ 32) {token : Token}
    (member : token ∈ (prepared file text).delivered) (visible : token.kind ≠ .newline)
    (nonempty : (prepared file text).lines ≠ []) :
    ∃ shown, Text.Shows text.toList ((prepared file text).lineNumber token.line) shown ∧
      (prepared file text).fileLine? ((prepared file text).lineNumber token.line) = some shown ∧
      token.text.length ≤ shown.length := by
  obtain ⟨before, after, found, _, stands⟩ := (places _).1 token member
  rw [if_neg visible] at stands
  obtain ⟨rest, rfl⟩ := stands
  obtain ⟨shown, behind, rfl, _, shows, fileLine⟩ := shows_of_getElem?_pieces short nonempty found
  refine ⟨_, shows, fileLine, ?_⟩
  rw [← String.length_toList]
  simp only [List.length_append]
  omega

theorem mem_pieces_of_line? {text line : List Char} {number : Nat}
    (found : Text.line? text number = some line) : line ∈ pieces '\n' text ∧ number ≠ 0 ∧
      number ≤ (pieces '\n' text).length := by
  cases number with
  | zero => exact nomatch found
  | succ index =>
    obtain ⟨within, _⟩ := List.getElem?_eq_some_iff.mp found
    exact ⟨List.mem_of_getElem? found, Nat.succ_ne_zero _, within⟩

/-- A text that declares something has fewer lines than characters. -/
theorem length_pieces_lt (short : text.length < 2 ^ 32) {declaration : Declaration}
    {declarations : List Declaration}
    (declares : (prepared file text).Declares (declaration :: declarations)) :
    (pieces '\n' text.toList).length < text.length := by
  have nonempty : (prepared file text).lines ≠ [] := fun none =>
    nomatch declares_nil_of_lines none declares
  obtain ⟨tokens, final, scans, spelled⟩ := declares
  obtain ⟨keyword, inTokens, kind⟩ := exists_keyword spelled
  have member : keyword ∈ (prepared file text).delivered := by
    rw [delivered, scans.deliver]
    exact List.mem_append_left _ inTokens
  have visible : keyword.kind ≠ .newline := by
    rcases kind with same | same <;> rw [same] <;> decide
  obtain ⟨shown, ⟨silent, line, _⟩, _, fits⟩ := exists_shown short member visible nonempty
  have bound := Text.length_pieces_add_le (mem_pieces_of_line? line).1
  -- Either keyword has seven letters.
  have length : keyword.text.length = 7 := by
    have lexeme := lexeme_of_mem_delivered _ keyword member
    rcases kind with same | same
    all_goals
      rw [same] at lexeme
      generalize keyword.text = word at lexeme
      cases lexeme
      rfl
  rw [List.length_append, String.length_toList] at bound
  omega

/-- Every word that is read stands on a line that is found in the text, and the number of that line
can be told below another text. -/
theorem told_of_placed (short : first.length + second.length < 2 ^ 32) {schema : Schema}
    (parsed : (prepared file second).parse = .ok schema) :
    ∀ word ∈ schema.placedNames,
      ((lower (pieces '\n' first.toList).length).line word.2.line).toNat =
          (pieces '\n' first.toList).length + word.2.line.toNat ∧
        ∃ shown, (prepared file second).fileLine? word.2.line = some shown := by
  have secondShort : second.length < 2 ^ 32 := by omega
  intro word inSchema
  obtain ⟨declarations, declares, lists⟩ := parse_eq_ok_iff_declares.mp parsed
  cases declarations with
  | nil =>
    have nothing : schema = .empty := lists.unique ⟨rfl, rfl⟩
    rw [nothing] at inSchema
    exact nomatch inSchema
  | cons declaration others =>
    have nonempty : (prepared file second).lines ≠ [] := fun none =>
      nomatch declares_nil_of_lines none declares
    obtain ⟨token, member, kind, rfl⟩ := placed_of_parse parsed word inSchema
    obtain ⟨shown, ⟨silent, line, _⟩, fileLine, _⟩ :=
      exists_shown secondShort member (kind ▸ by decide) nonempty
    obtain ⟨_, _, within⟩ := mem_pieces_of_line? line
    have fewer := length_pieces_lt secondShort declares
    have lines := List.count_le_length (a := '\n') (l := first.toList)
    rw [String.length_toList] at lines
    have fits : (pieces '\n' first.toList).length +
        ((prepared file second).lineNumber token.line).toNat < 2 ^ 32 := by
      rw [Text.length_pieces '\n' first.toList]
      omega
    exact ⟨UInt32.toNat_ofNat_of_lt fits, shown, fileLine⟩

/-- A line of the second text is shown as it is, on its lower line. -/
theorem fileLine?_append_line {line : UInt32} {shown : List Char}
    (found : (prepared file second).fileLine? line = some shown)
    (told : ((lower (pieces '\n' first.toList).length).line line).toNat =
      (pieces '\n' first.toList).length + line.toNat) :
    (prepared file (first ++ "\n" ++ second)).fileLine?
        ((lower (pieces '\n' first.toList).length).line line) =
      (prepared file second).fileLine? line := by
  rw [found]
  rw [fileLine?] at found ⊢
  split at found
  · cases found
  · next other =>
    have here : (Text.fileLines second.toList)[line.toNat - 1]? = some shown := by
      rwa [prepared, List.getElem?_toArray] at found
    have positive : 0 < line.toNat := Nat.pos_of_ne_zero fun zero =>
      other (beq_iff_eq.mpr (UInt32.toNat_inj.mp zero))
    have speaks : Text.trimEnd second.toList ≠ [] := by
      intro silent
      rw [Text.fileLines, silent, List.getElem?_nil] at here
      cases here
    have lower : ¬ ((lower (pieces '\n' first.toList).length).line line == 0) = true := by
      rw [beq_iff_eq]
      intro zero
      rw [zero] at told
      have nothing : (pieces '\n' first.toList).length + line.toNat = 0 := told.symm
      omega
    rw [if_neg lower, told, prepared, List.getElem?_toArray, toList_append_line,
      Text.fileLines_append_line speaks, Nat.add_sub_assoc positive,
      List.getElem?_append_right (by rw [List.length_map]; exact Nat.le_add_right _ _),
      List.length_map, Nat.add_sub_cancel_left, here]

/-! ### Reading one text below another one -/

variable {firstSchema secondSchema : Schema} {declarations others : List Declaration}

theorem clash_lower_iff {lines : Nat} {earlier declaration : Declaration} :
    Clash earlier (declaration.relocate (lower lines)) ↔ Clash earlier declaration := by
  cases declaration <;> rfl

/-- Where no name is taken, everything is declared. -/
theorem exists_parse_append_line (returns : ReturnsEndLines first.toList)
    (declaresFirst : (prepared file first).Declares declarations)
    (listsFirst : firstSchema.Lists declarations)
    (declaresSecond : (prepared file second).Declares others)
    (listsSecond : secondSchema.Lists others) (apart : firstSchema.Apart secondSchema) :
    ∃ schema, (prepared file (first ++ "\n" ++ second)).parse = .ok schema ∧
      schema.Lists (declarations ++
        others.map (Declaration.relocate (lower (pieces '\n' first.toList).length))) := by
  have declares := declaresFirst.append_line returns declaresSecond
  have distinct : Schema.Distinct (declarations ++
      others.map (Declaration.relocate (lower (pieces '\n' first.toList).length))) := by
    refine Schema.distinct_append listsFirst.distinct
      (Schema.distinct_relocate_iff.mpr listsSecond.distinct) (List.forall_mem_map.mpr ?_)
    intro declaration member earlier inFirst clash
    have free := listsSecond.apart_iff.mp apart declaration member
    exact listsFirst.takenLine?_eq_none_iff.mp free earlier inFirst (clash_lower_iff.mp clash)
  obtain ⟨schema, _, lists⟩ := Schema.exists_declareAll_of_distinct distinct
  exact ⟨schema, parse_eq_ok_iff_declares.mpr ⟨_, declares, lists⟩, lists⟩

/-- Where a name is taken, the first declaration that has it is refused. -/
theorem exists_parse_append_line_error (returns : ReturnsEndLines first.toList)
    (declaresFirst : (prepared file first).Declares declarations)
    (listsFirst : firstSchema.Lists declarations)
    (declaresSecond : (prepared file second).Declares others)
    (listsSecond : secondSchema.Lists others) (taken : ¬ firstSchema.Apart secondSchema) :
    ∃ before repeated after original, others = before ++ repeated :: after ∧
      (∀ earlier ∈ before, firstSchema.takenLine? earlier = none) ∧
      firstSchema.takenLine? repeated = some original.span.line ∧
      (prepared file (first ++ "\n" ++ second)).parse =
        .error (Reader.repeated (prepared file (first ++ "\n" ++ second)) (repetition original
          (repeated.relocate (lower (pieces '\n' first.toList).length)))) := by
  have declares := declaresFirst.append_line returns declaresSecond
  obtain ⟨repeated, found⟩ : ∃ repeated,
      others.find? (fun declaration => (firstSchema.takenLine? declaration).isSome) =
        some repeated := by
    refine Option.ne_none_iff_exists'.mp fun none => taken (listsSecond.apart_iff.mpr ?_)
    exact fun declaration member => Option.not_isSome_iff_eq_none.mp
      (List.find?_eq_none.mp none declaration member)
  obtain ⟨isTaken, before, after, rfl, freeBefore⟩ := List.find?_eq_some_iff_append.mp found
  obtain ⟨line, takenLine⟩ := Option.isSome_iff_exists.mp isTaken
  obtain ⟨original, member, clash, rfl⟩ := listsFirst.takenLine?_eq_some_iff.mp takenLine
  have free : ∀ earlier ∈ before, firstSchema.takenLine? earlier = none := by
    intro earlier inBefore
    have notTaken := freeBefore earlier inBefore
    rwa [Bool.not_eq_true', Option.isSome_eq_false_iff, Option.isNone_iff_eq_none] at notTaken
  refine ⟨before, repeated, after, original, rfl, free, takenLine, ?_⟩
  rw [List.map_append, List.map_cons, ← List.append_assoc] at declares
  refine declares.parse_of_clash ?_ (List.mem_append_left _ member) (clash_lower_iff.mpr clash)
  have distinctBefore : Schema.Distinct before :=
    List.Pairwise.sublist (List.sublist_append_left _ _) listsSecond.distinct
  refine Schema.distinct_append listsFirst.distinct
    (Schema.distinct_relocate_iff.mpr distinctBefore) (List.forall_mem_map.mpr ?_)
  intro earlier inBefore first inFirst clash
  exact listsFirst.takenLine?_eq_none_iff.mp (free earlier inBefore) first inFirst
    (clash_lower_iff.mp clash)

end Source

/-! ### One text below another one -/

/-- The report of a declaration that repeats a name, made that many lines further down than the
declaration stands in its own source. The line of the first declaration is quoted. -/
structure Diagnostic.RepeatsAbove (report : Diagnostic) (lines : Nat) (source : Source)
    (repeated : Declaration) (firstLine : UInt32) : Prop where
  file : report.file = source.file
  line : report.line.toNat = lines + repeated.span.line.toNat
  column : report.column = some repeated.span.column
  spanLength : report.spanLength = some repeated.span.length
  sourceLine : report.sourceLine = (source.fileLine? repeated.span.line).map String.ofList
  message : report.message = "repeated " ++ repeated.kind.word ++ " " ++
    Text.quote repeated.name ++ ", first declared at line " ++ toString firstLine.toNat

variable {file first second : String} {firstSource secondSource : Source}
  {firstSchema secondSchema : Schema}

theorem readText_of_parse_ok {text : String} {source : Source} {schema : Schema}
    (ready : Source.ofText file text = .ok source) (parsed : source.parse = .ok schema) :
    readText file text = .ok (source, schema) := by
  simp only [readText, ready, parsed]

theorem readText_of_parse_error {text : String} {source : Source} {error : CompileError}
    (ready : Source.ofText file text = .ok source) (failed : source.parse = .error error) :
    readText file text = .error error := by
  simp only [readText, ready, failed]

/-- A declaration is a word of the schema that it is listed in. -/
theorem Schema.Lists.mem_placedNames {schema : Schema} {declarations : List Declaration}
    (lists : schema.Lists declarations) {declaration : Declaration}
    (member : declaration ∈ declarations) :
    (declaration.name, declaration.span) ∈ schema.placedNames := by
  cases declaration with
  | message declared =>
    have inValues : declared ∈ schema.messages.values :=
      lists.values.1 ▸ mem_messagesOf.mpr member
    exact List.mem_append_left _ (List.mem_flatMap.mpr ⟨declared, inValues, List.mem_cons_self⟩)
  | service declared =>
    have inValues : declared ∈ schema.services.values :=
      lists.values.2 ▸ mem_servicesOf.mpr member
    exact List.mem_append_right _ (List.mem_flatMap.mpr ⟨declared, inValues, List.mem_cons_self⟩)

/-- One text below another one is read as both are, with the words of the second one on lower
lines, if they have no name in common. If they have, reading ends at the first declaration of the
second text that repeats a name of the first one. -/
theorem readText_append_line (short : first.length + second.length < 2 ^ 32)
    (returns : ReturnsEndLines first.toList)
    (readFirst : readText file first = .ok (firstSource, firstSchema))
    (readSecond : readText file second = .ok (secondSource, secondSchema)) :
    (firstSchema.Apart secondSchema → ∃ source schema lowered,
      readText file (first ++ "\n" ++ second) = .ok (source, schema) ∧
        secondSchema.Renumbered ((pieces '\n' first.toList).length + ·) lowered ∧
        schema.messages.entries = firstSchema.messages.entries ++ lowered.messages.entries ∧
        schema.services.entries = firstSchema.services.entries ++ lowered.services.entries) ∧
    (¬ firstSchema.Apart secondSchema → ∃ before repeated after firstLine report,
      secondSource.Declares (before ++ repeated :: after) ∧
        (∀ earlier ∈ before, firstSchema.takenLine? earlier = none) ∧
        firstSchema.takenLine? repeated = some firstLine ∧
        readText file (first ++ "\n" ++ second) = .error (.semantic report) ∧
        report.RepeatsAbove (pieces '\n' first.toList).length secondSource repeated firstLine) := by
  obtain ⟨readyFirst, parsedFirst⟩ := readText_eq_ok readFirst
  obtain ⟨readySecond, parsedSecond⟩ := readText_eq_ok readSecond
  have ready := Source.ofText_append_line returns readyFirst readySecond
  obtain ⟨_, rfl⟩ := Source.ofText_eq_ok_iff.mp readyFirst
  obtain ⟨_, rfl⟩ := Source.ofText_eq_ok_iff.mp readySecond
  obtain ⟨declarations, declaresFirst, listsFirst⟩ := Source.parse_eq_ok_iff_declares.mp parsedFirst
  obtain ⟨others, declaresSecond, listsSecond⟩ := Source.parse_eq_ok_iff_declares.mp parsedSecond
  have told := Source.told_of_placed short parsedSecond
  constructor
  · intro apart
    obtain ⟨schema, parsed, lists⟩ := Source.exists_parse_append_line returns declaresFirst
      listsFirst declaresSecond listsSecond apart
    have lowered : (secondSchema.relocate
        (Source.lower (pieces '\n' first.toList).length)).Lists _ := listsSecond.relocate
    refine ⟨_, schema, _, readText_of_parse_ok ready parsed,
      Schema.renumbered_relocate fun word member => (told word member).1, ?_, ?_⟩
    · rw [lists.messages, messagesOf, List.filterMap_append, List.map_append, listsFirst.messages]
      exact congrArg (List.append _) lowered.messages.symm
    · rw [lists.services, servicesOf, List.filterMap_append, List.map_append, listsFirst.services]
      exact congrArg (List.append _) lowered.services.symm
  · intro taken
    obtain ⟨before, repeated, after, original, rfl, free, takenLine, failed⟩ :=
      Source.exists_parse_append_line_error returns declaresFirst listsFirst declaresSecond
        listsSecond taken
    have member : repeated ∈ before ++ repeated :: after :=
      List.mem_append_right _ List.mem_cons_self
    obtain ⟨line, shown, fileLine⟩ := told _ (listsSecond.mem_placedNames member)
    refine ⟨before, repeated, after, _, _, declaresSecond, free, takenLine,
      readText_of_parse_error ready failed, ?_⟩
    constructor
    · rfl
    · cases repeated <;> exact line
    · cases repeated <;> rfl
    · cases repeated <;> rfl
    · have quoted := Source.fileLine?_append_line fileLine line
      refine congrArg (Option.map String.ofList) (Eq.trans ?_ quoted)
      cases repeated <;> rfl
    · cases repeated <;> rfl

/-- A service that is called like a message. -/
def swapText : String := "service Pair \x7b\n\tPair swap(Pair)\n\x7d"

/-- What it declares. -/
def swapSchema : Schema where
  messages := .empty
  services := ⟨[("Pair", ⟨"Pair", [⟨"swap", [⟨"Pair", ⟨2, 11, 4⟩⟩], ⟨"Pair", ⟨2, 1, 4⟩⟩, ⟨2, 6, 4⟩,
    "Pair"⟩], ⟨1, 8, 4⟩⟩)], List.nodup_singleton _⟩

theorem pairSchema_appended :
    (∃ source schema, readText "pair.idl" (pairText ++ "\n" ++ swapText) = .ok (source, schema) ∧
      schema.messages.entries = pairSchema.messages.entries) ∧
    ∃ report, readText "pair.idl" (pairText ++ "\n" ++ pairText) = .error (.semantic report) := by
  have returns : ReturnsEndLines pairText.toList := by
    unfold ReturnsEndLines
    decide
  have readPair : readText "pair.idl" pairText =
      .ok (Source.prepared "pair.idl" pairText, pairSchema) := by cbv
  have readSwap : readText "pair.idl" swapText =
      .ok (Source.prepared "pair.idl" swapText, swapSchema) := by cbv
  constructor
  · have apart : pairSchema.Apart swapSchema := ⟨by decide, by decide⟩
    obtain ⟨source, schema, lowered, read, renumbered, messages, _⟩ :=
      (readText_append_line (by decide) returns readPair readSwap).1 apart
    have none : swapSchema.messages.entries = [] := rfl
    refine ⟨source, schema, read, messages.trans ?_⟩
    rw [renumbered.moved]
    exact List.append_nil _
  · have taken : ¬ pairSchema.Apart pairSchema := fun apart =>
      apart.messages "Pair" (by decide) (by decide)
    obtain ⟨_, _, _, _, report, _, _, _, refused, _⟩ :=
      (readText_append_line (by decide) returns readPair readPair).2 taken
    exact ⟨report, refused⟩

end Idl
