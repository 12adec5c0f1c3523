/-
This file prints schemas: each declaration over lines of its own, a member by its type and
its name and a method by its signature. What is printed is read as it was meant. Its words
spell the declaration that it was printed from, no line of it is a comment or empty, and
so compiling the text of a schema that has been compiled gives the schema back, save for
the places of its words.
-/

import Idl.Proofs.Emptying
import Idl.Proofs.Permutation

namespace Idl

open Text (isBlank isBlankLine isWordCharacter pieces joinPieces stacked trimEnd)

/-! ### The text of a schema -/

/-- A member on a line of its own. -/
def Member.line (member : Member) : String := "\t" ++ member.type.name ++ " " ++ member.name

/-- A method on a line of its own. -/
def Method.line (method : Method) : String := "\t" ++ method.signature

/-- The lines of a declaration of one of the two kinds: its name, its entries, and the brace that
closes it. -/
def DeclarationKind.lines (kind : DeclarationKind) (name : String) (entries : List String) :
    List String :=
  (kind.word ++ " " ++ name ++ " \x7b") :: entries ++ ["\x7d"]

/-- The text of a declaration of one of the two kinds. -/
def DeclarationKind.printed (kind : DeclarationKind) (name : String) (entries : List String) :
    String :=
  stacked (kind.lines name entries)

/-- The text of a declaration. -/
def Declaration.printed : Declaration → String
  | .message declared =>
    DeclarationKind.message.printed declared.name (declared.members.map Member.line)
  | .service declared =>
    DeclarationKind.service.printed declared.name (declared.methods.map Method.line)

/-- What a schema declares: its messages, and then its services. -/
def Schema.declarations (schema : Schema) : List Declaration :=
  schema.messages.values.map .message ++ schema.services.values.map .service

/-- The text of a schema. -/
def Schema.printed (schema : Schema) : String :=
  stacked (schema.declarations.map Declaration.printed)

/-! ### The words of a declaration -/

/-- The token of that kind and that text in no place. -/
def TokenKind.token (kind : TokenKind) (text : String) : Token := ⟨kind, text, 0, 0⟩

open TokenKind (token)

def Member.words (member : Member) : List Token :=
  [token .identifier member.type.name, token .identifier member.name, token .newline "\n"]

/-- A parameter that is not the first. -/
def TypeReference.words (type : TypeReference) : List Token :=
  [token .comma ",", token .identifier type.name]

def TypeReference.listWords : List TypeReference → List Token
  | [] => []
  | first :: rest => token .identifier first.name :: rest.flatMap TypeReference.words

def Method.words (method : Method) : List Token :=
  [token .identifier method.response.name, token .identifier method.name,
    token .leftParenthesis "("] ++ (TypeReference.listWords method.requests ++
    [token .rightParenthesis ")", token .newline "\n"])

def DeclarationKind.words (kind : DeclarationKind) (name : String) (body : List Token) :
    List Token :=
  [token (Cursor.wordKind kind.word) kind.word, token .identifier name, token .leftBrace "\x7b",
    token .newline "\n"] ++ (body ++ [token .rightBrace "\x7d"])

def Declaration.words : Declaration → List Token
  | .message declared =>
    DeclarationKind.message.words declared.name (declared.members.flatMap Member.words)
  | .service declared =>
    DeclarationKind.service.words declared.name (declared.methods.flatMap Method.words)

namespace Grammar

theorem spellsEach_flatMap {Value Entry : Type} {spells : List Token → Entry → Prop}
    {words : Value → List Token} {entry : Value → Entry}
    (each : ∀ value, spells (words value) (entry value)) (values : List Value) :
    SpellsEach spells (values.flatMap words) (values.map entry) := by
  induction values with
  | nil => exact .nil
  | cons value _ inductionHypothesis => exact .cons (each value) inductionHypothesis

theorem spellsMember_words (member : Member) :
    SpellsMember (fun _ => .nowhere) member.words (member.relocate .nowhere) :=
  .line rfl rfl rfl

theorem spellsParameter_words (type : TypeReference) :
    SpellsParameter (fun _ => .nowhere) type.words (type.relocate .nowhere) :=
  .next rfl rfl

theorem spellsMethod_words (method : Method) :
    SpellsMethod (fun _ => .nowhere) method.words
      { method.relocate .nowhere with owner := "" } := by
  refine .line rfl rfl rfl ?_ rfl rfl
  show SpellsParameters _ (TypeReference.listWords method.requests)
    (method.requests.map (TypeReference.relocate .nowhere))
  cases method.requests with
  | nil => exact .empty
  | cons first rest => exact .list rfl (spellsEach_flatMap spellsParameter_words rest)

/-- The words of a declaration spell it. -/
theorem spellsStatement_words {declaration : Declaration} (formed : declaration.Formed) :
    SpellsStatement (fun _ => .nowhere) declaration.words (declaration.relocate .nowhere) := by
  cases declaration with
  | message declared =>
    exact .message rfl rfl rfl rfl (spellsEach_flatMap spellsMember_words declared.members)
      (fun empty => formed.nonempty (List.map_eq_nil_iff.mp empty)) rfl
  | service declared =>
    have owned : Service.ofMethods declared.name .nowhere (declared.methods.map fun method =>
        { method.relocate .nowhere with owner := "" }) = declared.relocate .nowhere := by
      rw [Service.ofMethods, List.map_map]
      refine congrArg (Service.mk _ · _) (List.map_congr_left fun method member => ?_)
      exact congrArg (Method.mk _ _ _ _) (formed.owner method member).symm
    rw [Declaration.relocate, ← owned]
    exact .service rfl rfl rfl rfl (spellsEach_flatMap spellsMethod_words declared.methods)
      (fun empty => formed.nonempty (List.map_eq_nil_iff.mp empty)) rfl

end Grammar

/-! ### The characters of a text -/

namespace Text

theorem toList_stacked_append (lines : List String) (last : String) :
    (stacked (lines ++ [last])).toList =
      lines.flatMap (fun line => line.toList ++ ['\n']) ++ last.toList := by
  induction lines with
  | nil => rw [List.nil_append, stacked, String.intercalate_singleton, List.flatMap_nil,
      List.nil_append]
  | cons line rest inductionHypothesis =>
    have some : rest ++ [last] ≠ [] := List.append_ne_nil_of_right_ne_nil _ (List.cons_ne_nil _ _)
    rw [List.cons_append, stacked, String.intercalate_cons_of_ne_nil some, String.toList_append,
      String.toList_append, ← stacked, inductionHypothesis, List.flatMap_cons, List.append_assoc]
    simp only [List.append_assoc]
    rfl

theorem toList_stacked (lines : List String) :
    (stacked lines).toList = joinPieces '\n' (lines.map String.toList) := by
  rw [stacked, String.toList_intercalate]
  rfl

/-- The parameters after the first one come behind commas. -/
theorem toList_intercalate_cons (separator first : String) (rest : List String) :
    (separator.intercalate (first :: rest)).toList =
      first.toList ++ rest.flatMap fun part => separator.toList ++ part.toList := by
  induction rest generalizing first with
  | nil => rw [String.intercalate_singleton, List.flatMap_nil, List.append_nil]
  | cons second others inductionHypothesis =>
    rw [String.intercalate_cons_cons, String.toList_append, String.toList_append,
      inductionHypothesis, List.flatMap_cons, List.append_assoc, List.append_assoc]

namespace Holds

open Cursor.Scans (stops_cons)

variable {rest : List Char} {words : List Token}

theorem name {text : String} (named : IsName text)
    (stops : ∀ character ∈ rest.head?, ¬ isWordCharacter character) (later : Holds rest words) :
    Holds (text.toList ++ rest) (token .identifier text :: words) := by
  have kind : Cursor.wordKind text = .identifier := by
    rw [Cursor.wordKind, if_neg (mt beq_iff_eq.mp named.ne_message),
      if_neg (mt beq_iff_eq.mp named.ne_service)]
  have holds := Holds.word named.word stops later
  rwa [kind] at holds

theorem flatMap {Value : Type} {written : Value → List Char} {spelled : Value → List Token}
    {values : List Value} (each : ∀ value ∈ values, ∀ {rest words}, Holds rest words →
      Holds (written value ++ rest) (spelled value ++ words)) (later : Holds rest words) :
    Holds (values.flatMap written ++ rest) (values.flatMap spelled ++ words) := by
  induction values with
  | nil => exact later
  | cons value others inductionHypothesis =>
    rw [List.forall_mem_cons] at each
    rw [List.flatMap_cons, List.flatMap_cons, List.append_assoc, List.append_assoc]
    exact each.1 (inductionHypothesis each.2)

/-- Behind a type there is a comma or what stands behind the last one. -/
theorem stops_parameters (types : List TypeReference)
    (stops : ∀ character ∈ rest.head?, ¬ isWordCharacter character) :
    ∀ character ∈ ((types.map TypeReference.name).flatMap (", ".toList ++ String.toList ·) ++
      rest).head?, ¬ isWordCharacter character := by
  cases types with
  | nil => exact stops
  | cons => exact stops_cons rfl

theorem parameters {types : List TypeReference} (named : ∀ type ∈ types, IsName type.name)
    (stops : ∀ character ∈ rest.head?, ¬ isWordCharacter character) (later : Holds rest words) :
    Holds ((types.map TypeReference.name).flatMap (", ".toList ++ String.toList ·) ++ rest)
      (types.flatMap TypeReference.words ++ words) := by
  induction types with
  | nil => exact later
  | cons type others inductionHypothesis =>
    rw [List.forall_mem_cons] at named
    have holds := (inductionHypothesis named.2).name named.1 (stops_parameters others stops)
    rw [List.map_cons, List.flatMap_cons, List.flatMap_cons, List.append_assoc, List.append_assoc,
      List.append_assoc]
    exact .mark rfl (.blank rfl holds)

theorem list {types : List TypeReference} (named : ∀ type ∈ types, IsName type.name)
    (stops : ∀ character ∈ rest.head?, ¬ isWordCharacter character) (later : Holds rest words) :
    Holds ((", ".intercalate (types.map TypeReference.name)).toList ++ rest)
      (TypeReference.listWords types ++ words) := by
  cases types with
  | nil => exact later
  | cons first others =>
    rw [List.forall_mem_cons] at named
    rw [List.map_cons, toList_intercalate_cons, List.append_assoc]
    exact (later.parameters named.2 stops).name named.1 (stops_parameters others stops)

theorem member {member : Member}
    (named : ∀ word ∈ [member.type.placed, (member.name, member.span)], IsName word.1)
    (later : Holds rest words) :
    Holds (member.line.toList ++ ['\n'] ++ rest) (member.words ++ words) := by
  rw [List.forall_mem_cons, List.forall_mem_singleton] at named
  simp only [Member.line, String.toList_append, List.append_assoc]
  have name := later.feed.name named.2 (stops_cons rfl)
  exact .blank rfl (.name named.1 (stops_cons rfl) (.blank rfl name))

theorem method {method : Method} (named : ∀ word ∈ method.placedNames, IsName word.1)
    (later : Holds rest words) :
    Holds (method.line.toList ++ ['\n'] ++ rest) (method.words ++ words) := by
  rw [Method.placedNames, List.forall_mem_cons, List.forall_mem_cons, List.forall_mem_map] at named
  obtain ⟨responseNamed, methodNamed, typesNamed⟩ := named
  simp only [Method.line, Method.signature, Method.words, String.toList_append, List.append_assoc]
  have closing : Holds (")".toList ++ (['\n'] ++ rest))
      ([token .rightParenthesis ")", token .newline "\n"] ++ words) := .mark rfl later.feed
  have takes := closing.list typesNamed (stops_cons rfl)
  have name : Holds (method.name.toList ++ ("(".toList ++ _)) _ :=
    .name methodNamed (stops_cons rfl) (.mark rfl takes)
  exact .blank rfl (.name responseNamed (stops_cons rfl) (.blank rfl name))

/-- A declaration that is printed holds its words. -/
theorem block {kind : DeclarationKind} {name : String} {entries : List String} {body : List Token}
    (named : IsName name) (holds : ∀ {rest words}, Holds rest words →
      Holds (entries.flatMap (fun line => line.toList ++ ['\n']) ++ rest) (body ++ words)) :
    Holds (kind.printed name entries).toList (kind.words name body) := by
  have closing : Holds "\x7d".toList [token .rightBrace "\x7d"] := .mark rfl .nil
  have inside := (holds closing).feed
  rw [DeclarationKind.printed, DeclarationKind.lines, toList_stacked_append, List.flatMap_cons]
  simp only [String.toList_append, List.append_assoc]
  have isWord : isWord kind.word.toList = true := by cases kind <;> rfl
  have heading : Holds (name.toList ++ (" \x7b".toList ++ _)) _ :=
    .name named (stops_cons rfl) (.blank rfl (.mark rfl inside))
  exact .word isWord (stops_cons rfl) (.blank rfl heading)

theorem declaration {declaration : Declaration}
    (named : ∀ word ∈ declaration.placedNames, IsName word.1) :
    Holds declaration.printed.toList declaration.words := by
  cases declaration with
  | message declared =>
    rw [Declaration.placedNames, Message.placedNames, List.forall_mem_cons,
      List.forall_mem_flatMap] at named
    refine .block named.1 fun later => ?_
    rw [List.flatMap_map]
    exact later.flatMap fun member inMembers _ _ after => after.member (named.2 member inMembers)
  | service declared =>
    rw [Declaration.placedNames, Service.placedNames, List.forall_mem_cons,
      List.forall_mem_flatMap] at named
    refine .block named.1 fun later => ?_
    rw [List.flatMap_map]
    exact later.flatMap fun method inMethods _ _ after => after.method (named.2 method inMethods)

end Holds

/-! ### The lines of a text -/

/-- The character belongs to a word, is a mark, or is a blank. -/
def isWritten (character : Char) : Bool :=
  isWordCharacter character || (Cursor.punctuation? character).isSome || isBlank character

/-- The line has something on it, and no comment. -/
structure IsLine (line : List Char) : Prop where
  written : line.all isWritten
  visible : isBlankLine line = false

theorem IsLine.notMem {line : List Char} (isLine : IsLine line) :
    '\n' ∉ line ∧ '\r' ∉ line ∧ '/' ∉ line := by
  have written := List.all_eq_true.mp isLine.written
  refine ⟨fun member => ?_, fun member => ?_, fun member => ?_⟩
  all_goals exact absurd (written _ member) (by decide)

theorem isLine_of_isName {text : String} (named : IsName text) : IsLine text.toList := by
  have word := named.word
  generalize text.toList = characters at word
  cases characters with
  | nil => exact nomatch word
  | cons first rest =>
    rw [isWord, Bool.and_eq_true, List.all_eq_true] at word
    obtain ⟨opens, goesOn⟩ := word
    constructor
    · refine List.all_eq_true.mpr (List.forall_mem_cons.mpr ⟨?_, fun character member => ?_⟩)
      · rw [isWritten, isWordCharacter_of_isWordStart opens]
        rfl
      · rw [isWritten, goesOn character member]
        rfl
    · have code := Bool.eq_false_iff.mpr (Cursor.not_isBlank_of_isWordStart opens)
      rw [isBlankLine, List.all_cons, code, Bool.false_and]

theorem IsLine.append {first second : List Char} (isLine : IsLine first)
    (written : second.all isWritten) : IsLine (first ++ second) := by
  refine ⟨?_, ?_⟩
  · rw [List.all_append, isLine.written, written, Bool.and_self]
  · have visible := isLine.visible
    rw [isBlankLine] at visible ⊢
    rw [List.all_append, visible, Bool.false_and]

theorem IsLine.prepend {first second : List Char} (isLine : IsLine second)
    (written : first.all isWritten) : IsLine (first ++ second) := by
  refine ⟨?_, ?_⟩
  · rw [List.all_append, isLine.written, written, Bool.and_self]
  · have visible := isLine.visible
    rw [isBlankLine] at visible ⊢
    rw [List.all_append, visible, Bool.and_false]

theorem all_isWritten_intercalate {types : List TypeReference}
    (named : ∀ type ∈ types, IsName type.name) :
    (", ".intercalate (types.map TypeReference.name)).toList.all isWritten := by
  cases types with
  | nil => rfl
  | cons first others =>
    rw [List.forall_mem_cons] at named
    rw [List.map_cons, toList_intercalate_cons, List.all_append, List.all_flatMap, List.all_map,
      (isLine_of_isName named.1).written, Bool.true_and, List.all_eq_true]
    exact fun type member => ((isLine_of_isName (named.2 type member)).prepend rfl).written

theorem isLine_member {member : Member}
    (named : ∀ word ∈ [member.type.placed, (member.name, member.span)], IsName word.1) :
    IsLine member.line.toList := by
  rw [List.forall_mem_cons, List.forall_mem_singleton] at named
  have type : IsLine member.type.name.toList := isLine_of_isName named.1
  have name : IsLine member.name.toList := isLine_of_isName named.2
  simp only [Member.line, String.toList_append]
  exact ((type.prepend rfl).append rfl).append name.written

theorem isLine_method {method : Method} (named : ∀ word ∈ method.placedNames, IsName word.1) :
    IsLine method.line.toList := by
  rw [Method.placedNames, List.forall_mem_cons, List.forall_mem_cons, List.forall_mem_map] at named
  have response : IsLine method.response.name.toList := isLine_of_isName named.1
  have name : IsLine method.name.toList := isLine_of_isName named.2.1
  have list := all_isWritten_intercalate named.2.2
  simp only [Method.line, Method.signature, String.toList_append]
  exact (((((response.append rfl).append name.written).append rfl).append list).append rfl).prepend
    rfl

/-- The lines of a declaration that is printed. -/
theorem isLine_block {kind : DeclarationKind} {name : String} {entries : List String}
    (named : IsName name) (isLine : ∀ line ∈ entries, IsLine line.toList) :
    ∀ line ∈ kind.lines name entries, IsLine line.toList := by
  have word : IsLine kind.word.toList := by cases kind <;> exact ⟨rfl, rfl⟩
  rw [DeclarationKind.lines, List.forall_mem_append, List.forall_mem_cons,
    List.forall_mem_singleton]
  refine ⟨⟨?_, isLine⟩, ⟨rfl, rfl⟩⟩
  simp only [String.toList_append]
  exact ((word.append rfl).append (isLine_of_isName named).written).append rfl

end Text

namespace Source

variable {file text : String} {lines : List (List Char)}

/-- Lines of code are kept as they are. -/
theorem keptLines_of_isLine {numbered : List (List Char × Nat)}
    (isLine : ∀ line ∈ numbered, Text.IsLine line.1) :
    keptLines numbered = numbered ∧ firstSlash? numbered = none := by
  have uncut : ∀ line ∈ numbered, Text.beforeComment line.1 = line.1 := fun line member =>
    Text.beforeComment_of_notMem (isLine line member).notMem.2.2
  constructor
  · have same : numbered.map (fun line => (Text.beforeComment line.1, line.2)) = numbered := by
      refine (List.map_congr_left fun line member => ?_).trans (List.map_id numbered)
      exact Prod.ext (uncut line member) rfl
    rw [keptLines, same, List.filter_eq_self]
    intro line member
    rw [(isLine line member).visible]
    rfl
  · refine List.findSome?_eq_none_iff.mpr fun line member => ?_
    rw [uncut line member, Option.map_eq_none_iff, Text.slashColumn?, List.findIdx?_eq_none_iff]
    intro character inLine
    exact beq_eq_false_iff_ne.mpr fun same =>
      (isLine line member).notMem.2.2 (same ▸ inLine)

theorem numberedLines_of_lines (shape : text.toList = joinPieces '\n' lines) (some : lines ≠ [])
    (isLine : ∀ line ∈ lines, Text.IsLine line) (ends : trimEnd text.toList = text.toList) :
    numberedLines text = lines.zipIdx 1 := by
  have cut : pieces '\n' text.toList = lines := by
    rw [shape]
    exact Text.pieces_joinPieces some fun line member => (isLine line member).notMem.1
  have speaks : trimEnd text.toList ≠ [] := by
    intro silent
    rw [← ends, silent, Text.pieces_nil] at cut
    have visible := (isLine [] (cut ▸ List.mem_singleton_self [])).visible
    exact nomatch visible
  rw [numberedLines, Text.fileLines_of_speaks speaks, ends, cut]
  refine congrArg (List.zipIdx · 1) ((List.map_congr_left fun line member => ?_).trans
    (List.map_id lines))
  rw [Text.dropReturn, if_neg fun last =>
    (isLine line member).notMem.2.1 (List.mem_of_getLast? (beq_iff_eq.mp last))]
  rfl

/-- A text of lines of code is ready for scanning as it stands. -/
theorem ofText_of_lines (shape : text.toList = joinPieces '\n' lines) (some : lines ≠ [])
    (isLine : ∀ line ∈ lines, Text.IsLine line) (ends : trimEnd text.toList = text.toList) :
    ofText file text = .ok (prepared file text) ∧ (prepared file text).text = text.toList := by
  have numbered := numberedLines_of_lines shape some isLine ends
  have each : ∀ line ∈ lines.zipIdx 1, Text.IsLine line.1 := fun line member =>
    isLine line.1 (List.fst_mem_of_mem_zipIdx member)
  obtain ⟨kept, clean⟩ := keptLines_of_isLine each
  constructor
  · exact ofText_of_firstSlash?_eq_none (numbered ▸ clean)
  · rw [shape, prepared, numbered, kept, List.zipIdx_map_fst]

end Source

/-! ### What is printed is read -/

namespace DeclarationKind

variable {kind : DeclarationKind} {name : String} {entries : List String}

theorem trimEnd_printed (kind : DeclarationKind) (name : String) (entries : List String) :
    trimEnd (kind.printed name entries).toList = (kind.printed name entries).toList := by
  rw [printed, lines, Text.toList_stacked_append]
  exact Text.trimEnd_append (by decide) _

theorem return_notMem_printed (isLine : ∀ line ∈ kind.lines name entries, Text.IsLine line.toList) :
    '\r' ∉ (kind.printed name entries).toList := by
  rw [lines, List.forall_mem_append, List.forall_mem_singleton] at isLine
  rw [printed, lines, Text.toList_stacked_append]
  refine List.not_mem_append (fun member => ?_) isLine.2.notMem.2.1
  obtain ⟨line, inLines, inLine⟩ := List.mem_flatMap.mp member
  rcases List.mem_append.mp inLine with inLine | feed
  · exact (isLine.1 line inLines).notMem.2.1 inLine
  · exact absurd (List.mem_singleton.mp feed) (by decide)

/-- What is printed is ready for scanning as it stands. -/
theorem ofText_printed (file : String)
    (isLine : ∀ line ∈ kind.lines name entries, Text.IsLine line.toList) :
    Source.ofText file (kind.printed name entries) =
        .ok (.prepared file (kind.printed name entries)) ∧
      (Source.prepared file (kind.printed name entries)).text =
        (kind.printed name entries).toList :=
  Source.ofText_of_lines (Text.toList_stacked _) (List.cons_ne_nil _ _)
    (List.forall_mem_map.mpr isLine) (trimEnd_printed kind name entries)

end DeclarationKind

/-- A declaration with proper words is read when it is printed. -/
theorem Declaration.declares_printed {declaration : Declaration} (formed : declaration.Formed)
    (named : ∀ word ∈ declaration.placedNames, IsName word.1) :
    Text.Declares declaration.printed [declaration.relocate .nowhere] := by
  obtain ⟨kind, name, entries, shape, isLine⟩ : ∃ kind name entries,
      declaration.printed = DeclarationKind.printed kind name entries ∧
        ∀ line ∈ kind.lines name entries, Text.IsLine line.toList := by
    cases declaration with
    | message declared =>
      rw [placedNames, Message.placedNames, List.forall_mem_cons, List.forall_mem_flatMap] at named
      exact ⟨_, _, _, rfl, Text.isLine_block named.1 (List.forall_mem_map.mpr
        fun member inMembers => Text.isLine_member (named.2 member inMembers))⟩
    | service declared =>
      rw [placedNames, Service.placedNames, List.forall_mem_cons, List.forall_mem_flatMap] at named
      exact ⟨_, _, _, rfl, Text.isLine_block named.1 (List.forall_mem_map.mpr
        fun method inMethods => Text.isLine_method (named.2 method inMethods))⟩
  have holds := Text.Holds.declaration named
  have spelled : Grammar.SpellsCode (fun _ => .nowhere) declaration.words
      [declaration.relocate .nowhere] := by
    have code := Grammar.SpellsCode.statements (Grammar.spellsStatement_words formed) .nil
    rwa [List.append_nil] at code
  refine ⟨shape ▸ DeclarationKind.return_notMem_printed isLine, fun file => ?_⟩
  obtain ⟨ready, text⟩ := DeclarationKind.ofText_printed file isLine
  rw [← shape] at ready text
  exact ⟨ready, Source.exists_declares (text ▸ holds) spelled⟩

/-! ### Printing what has been compiled -/

namespace Schema

variable {schema : Schema}

theorem Formed.clearVoid (formed : schema.Formed) : schema.clearVoid.Formed := by
  refine ⟨formed.messageKeys, List.forall_mem_map.mpr formed.serviceKeys, formed.messages, ?_⟩
  rw [Schema.clearVoid, SymbolTable.values_map]
  exact List.forall_mem_map.mpr fun service member => (formed.services service member).clearVoid

theorem messagesOf_declarations (schema : Schema) :
    messagesOf schema.declarations = schema.messages.values := by
  have messages : messagesOf (schema.messages.values.map .message) = schema.messages.values := by
    rw [messagesOf, List.filterMap_map]
    exact List.filterMap_some
  have none : messagesOf (schema.services.values.map .service) = [] :=
    List.filterMap_eq_nil_iff.mpr (List.forall_mem_map.mpr fun _ _ => rfl)
  rw [messagesOf] at messages none ⊢
  rw [declarations, List.filterMap_append, messages, none, List.append_nil]

theorem servicesOf_declarations (schema : Schema) :
    servicesOf schema.declarations = schema.services.values := by
  have services : servicesOf (schema.services.values.map .service) = schema.services.values := by
    rw [servicesOf, List.filterMap_map]
    exact List.filterMap_some
  have none : servicesOf (schema.messages.values.map .message) = [] :=
    List.filterMap_eq_nil_iff.mpr (List.forall_mem_map.mpr fun _ _ => rfl)
  rw [servicesOf] at services none ⊢
  rw [declarations, List.filterMap_append, services, none, List.nil_append]

/-- A schema of properly keyed declarations lists them. -/
theorem Formed.lists (formed : schema.Formed) : schema.Lists schema.declarations := by
  constructor
  · rw [messagesOf_declarations, SymbolTable.values, List.map_map]
    refine (List.map_id _).symm.trans (List.map_congr_left fun entry member => ?_)
    exact Prod.ext (formed.messageKeys entry member) rfl
  · rw [servicesOf_declarations, SymbolTable.values, List.map_map]
    refine (List.map_id _).symm.trans (List.map_congr_left fun entry member => ?_)
    exact Prod.ext (formed.serviceKeys entry member) rfl

theorem Formed.declares_printed (formed : schema.Formed)
    (named : ∀ word ∈ schema.placedNames, IsName word.1) :
    Text.Declares schema.printed (schema.declarations.map (Declaration.relocate .nowhere)) := by
  rw [placedNames, List.forall_mem_append, List.forall_mem_flatMap, List.forall_mem_flatMap]
    at named
  have each : ∀ declaration ∈ schema.declarations,
      Text.Declares declaration.printed [declaration.relocate .nowhere] := by
    rw [declarations, List.forall_mem_append, List.forall_mem_map, List.forall_mem_map]
    constructor
    · intro message member
      exact Declaration.declares_printed (formed.messages message member) (named.1 message member)
    · intro service member
      exact Declaration.declares_printed (formed.services service member) (named.2 service member)
  have stack := Text.declares_stacked (List.forall₂_map_left_iff.mpr
    (List.forall₂_map_right_iff.mpr (List.forall₂_same.mpr each)))
  rwa [← List.flatMap_def, ← List.map_eq_flatMap] at stack

/-- Schemas that are the same up to places are alike and list their keys in the same order. -/
theorem alike_of_relocate_eq {first second : Schema}
    (same : first.relocate .nowhere = second.relocate .nowhere) :
    first.alike second = true ∧ first.messages.keys = second.messages.keys ∧
      first.services.keys = second.services.keys := by
  refine ⟨alike_iff_reordered.mpr (same ▸ .refl _), ?_, ?_⟩
  · have keys := congrArg (fun schema => schema.messages.keys) same
    simpa only [relocate, SymbolTable.keys_map] using keys
  · have keys := congrArg (fun schema => schema.services.keys) same
    simpa only [relocate, SymbolTable.keys_map] using keys

theorem methods_relocate (move : Relocation) (schema : Schema) :
    (schema.relocate move).methods = schema.methods.map (Method.relocate move) := by
  rw [methods, methods, relocate, SymbolTable.values_map, List.flatMap_map, List.map_flatMap]
  rfl

end Schema

/-- A text that declares what a schema lists is read as that schema, up to places. -/
theorem Text.Declares.readText {text : String} {schema : Schema} {declarations : List Declaration}
    (declares : Declares text (declarations.map (Declaration.relocate .nowhere)))
    (lists : schema.Lists declarations) (file : String) :
    ∃ read, readText file text = .ok (.prepared file text, read) ∧
      read.relocate .nowhere = schema.relocate .nowhere := by
  obtain ⟨ready, placed, here, same⟩ := declares.declares file
  have distinct : Schema.Distinct placed := by
    refine Schema.distinct_relocate_iff.mp
      (?_ : Schema.Distinct (placed.map (Declaration.relocate .nowhere)))
    rw [same]
    exact Schema.distinct_relocate_iff.mpr lists.distinct
  obtain ⟨read, parsed⟩ := here.parses_iff.mpr distinct
  obtain ⟨_, again, listsPlaced⟩ := Source.parse_eq_ok_iff_declares.mp parsed
  cases here.unique again
  exact ⟨read, readText_of_parse_ok ready parsed,
    (same ▸ listsPlaced.relocate).unique lists.relocate⟩

/-- What compiling has found in a text. -/
theorem compileText_eq_ok {file text : String} {schema : Schema}
    (compiled : compileText file text = .ok schema) :
    ∃ source read, readText file text = .ok (source, read) ∧ read.findings = [] ∧
      schema = read.clearVoid := by
  unfold compileText at compiled
  split at compiled
  · exact nomatch compiled
  · next source read done => exact ⟨source, read, done, Schema.verify_eq_ok_iff.mp compiled⟩

/-- A schema that has been compiled has proper names, and there is nothing in it to find or to
clear. -/
theorem printable_of_compileText {file text : String} {schema : Schema}
    (compiled : compileText file text = .ok schema) :
    schema.Formed ∧ (∀ word ∈ schema.placedNames, IsName word.1) ∧ schema.findings = [] ∧
      schema.clearVoid = schema := by
  obtain ⟨source, read, done, faultless, rfl⟩ := compileText_eq_ok compiled
  obtain ⟨_, parsed⟩ := readText_eq_ok done
  have keeps := Schema.keepsRules_iff_findings.mpr faultless
  refine ⟨(Source.formed_of_parse parsed).clearVoid, fun word member => ?_,
    Schema.keepsRules_iff_findings.mp keeps.clearVoid,
    (Schema.voidFree_clearVoid keeps).clearVoid_eq⟩
  obtain ⟨token, delivered, kind, rfl⟩ :=
    Source.placed_of_parse parsed word (read.placedNames_clearVoid_subset member)
  exact Token.isName (source.lexeme_of_mem_delivered token delivered) kind

/-- A service of a single method that is printed is read with that method. -/
theorem Method.exists_readText {service : Service} {method : Method}
    (formed : service.Formed) (named : ∀ word ∈ service.placedNames, IsName word.1)
    (member : method ∈ service.methods) (file : String) :
    ∃ source alone parsed,
      readText file (DeclarationKind.service.printed service.name [method.line]) =
          .ok (source, alone) ∧
        alone.methods = [parsed] ∧ parsed.unplaced = method.unplaced := by
  have single : Service.Formed ⟨service.name, [method], service.span⟩ :=
    ⟨formed.name, List.cons_ne_nil _ _,
      List.forall_mem_singleton.mpr (formed.methods method member),
      List.forall_mem_singleton.mpr (formed.owner method member)⟩
  have singleNamed : ∀ word ∈ Service.placedNames ⟨service.name, [method], service.span⟩,
      IsName word.1 := by
    rw [Service.placedNames, List.forall_mem_cons, List.forall_mem_flatMap] at named ⊢
    exact ⟨named.1, List.forall_mem_singleton.mpr (named.2 method member)⟩
  obtain ⟨schema, _, lists⟩ := Schema.exists_declareAll_of_distinct
    (List.pairwise_singleton _ (Declaration.service ⟨service.name, [method], service.span⟩))
  have declares := @Declaration.declares_printed (.service _) single singleNamed
  obtain ⟨read, done, same⟩ := Text.Declares.readText declares lists file
  have methods : schema.methods = [method] := by
    rw [Schema.methods, lists.values.2]
    rfl
  have readMethods := congrArg Schema.methods same
  rw [Schema.methods_relocate, Schema.methods_relocate, methods, List.map_singleton] at readMethods
  obtain ⟨parsed, alone, unplaced⟩ := List.map_eq_singleton_iff.mp readMethods
  exact ⟨_, read, parsed, done, alone, unplaced⟩

/-- Compiling the text of a compiled schema gives the schema back, in the same order. So the
signature of a method, in a service of its own, is read as that method. -/
theorem compileText_printed {file text : String} {schema : Schema}
    (compiled : compileText file text = .ok schema) (label : String) :
    (∃ again, compileText label schema.printed = .ok again ∧ again.alike schema = true ∧
      again.messages.keys = schema.messages.keys ∧ again.services.keys = schema.services.keys) ∧
    ∀ method ∈ schema.methods, ∃ source alone parsed,
      readText label (DeclarationKind.service.printed method.owner [method.line]) =
          .ok (source, alone) ∧
        alone.methods = [parsed] ∧ parsed.unplaced = method.unplaced := by
  obtain ⟨formed, named, faultless, cleared⟩ := printable_of_compileText compiled
  constructor
  · obtain ⟨read, done, same⟩ := (formed.declares_printed named).readText formed.lists label
    have readFaultless :=
      (Schema.findings_eq_nil_of_alike (Schema.alike_of_relocate_eq same).1).mpr faultless
    have again : read.clearVoid.relocate .nowhere = schema.relocate .nowhere := by
      rw [← Schema.clearVoid_relocate, same, Schema.clearVoid_relocate, cleared]
    refine ⟨read.clearVoid, ?_, Schema.alike_of_relocate_eq again⟩
    simp only [compileText, done]
    exact Schema.verify_eq_ok_iff.mpr ⟨readFaultless, rfl⟩
  · intro method member
    obtain ⟨service, inServices, inMethods⟩ := List.mem_flatMap.mp member
    have serviceFormed := formed.services service inServices
    have serviceNamed : ∀ word ∈ service.placedNames, IsName word.1 := fun word inService =>
      named word (List.mem_append_right _ (List.mem_flatMap.mpr ⟨service, inServices, inService⟩))
    rw [serviceFormed.owner method inMethods]
    exact Method.exists_readText serviceFormed serviceNamed inMethods label

set_option maxRecDepth 2000 in
theorem chainSchema_printed :
    chainSchema.printed =
        "message Link \x7b\n\tLink next\n\x7d\nservice Chain \x7b\n\tLink first()\n\x7d" ∧
      ∃ again, compileText "again.idl" chainSchema.printed = .ok again ∧
        again.alike chainSchema = true := by
  have compiled : compileText "chain.idl" chainText = .ok chainSchema := by cbv
  obtain ⟨⟨again, recompiled, alike, _⟩, _⟩ := compileText_printed compiled "again.idl"
  exact ⟨by cbv, again, recompiled, alike⟩

end Idl
