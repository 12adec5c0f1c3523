/-
This file shows that positions are exact in the file as its author wrote it. Every name
and every type of a schema stands where its span says, and so does whatever a report is
about: a slash, a character that belongs to no token, a token that cannot follow, a
repeated name, or a type that breaks a rule. The end of a line and the end of the file
are no part of a line, and what is said of them stands behind something on the line.
Every report shows the line that it speaks of.
-/

import Idl.Compile
import Idl.Proofs.PlacedNames
import Idl.Proofs.Places
import Idl.Proofs.Precedence
import Idl.Proofs.Prepared
import Mathlib

namespace Idl

open Text (pieces)

/-! ### Places in a text -/

/-- The words stand in the text just where the span says. -/
def Span.Marks (text : List Char) (span : Span) (words : List Char) : Prop :=
  ∃ line, Text.line? text span.line.toNat = some line ∧ span.length.toNat = words.length ∧
    (line.drop span.column.toNat).take span.length.toNat = words

/-- The report shows the line that it speaks of and points at an item. The end of a line or of
the file is pointed at behind something that is shown. -/
def Diagnostic.PointsAt (text : List Char) (diagnostic : Diagnostic) (item : List Char) : Prop :=
  ∃ column length shown, diagnostic.column = some column ∧ diagnostic.spanLength = some length ∧
    diagnostic.sourceLine = some (String.ofList shown) ∧ Text.Shows text diagnostic.line shown ∧
    if item = ['\n'] ∨ item = [] then
      length.toNat = item.length ∧ column.toNat ≤ shown.length
    else Span.Marks text ⟨diagnostic.line, column, length⟩ item

/-- What the reports of a text are about. -/
inductive Offends (file text : String) : Diagnostic → List Char → Prop where
  /-- A slash that opens no comment. -/
  | slash {diagnostic : Diagnostic} (refused : Source.ofText file text = .error diagnostic)
      (message : diagnostic.message = Source.straySlashMessage) :
      Offends file text diagnostic ['/']
  /-- A character that belongs to no token. -/
  | character {source : Source} {diagnostic : Diagnostic} {character : Char}
      (prepared : Source.ofText file text = .ok source)
      (failed : source.parse = .error (.lexical diagnostic))
      (message : diagnostic.message = Cursor.invalidMessage character) :
      Offends file text diagnostic [character]
  /-- The first token that cannot follow. -/
  | token {source : Source} {diagnostic : Diagnostic} {index : Nat} {token : Token}
      (prepared : Source.ofText file text = .ok source)
      (failed : source.parse = .error (.syntactic diagnostic))
      (wrong : source.FirstWrong index) (found : source.delivered[index]? = some token) :
      Offends file text diagnostic token.text.toList
  /-- The name of the declaration that repeats it. -/
  | declaration {source : Source} {original repeated : Occurrence}
      (prepared : Source.ofText file text = .ok source)
      (failed : source.parse = .error (.semantic (source.repetitionReport original repeated)))
      (repeats : source.RepeatsInTime original repeated) :
      Offends file text (source.repetitionReport original repeated)
        repeated.declaration.name.toList
  /-- The name or the type that breaks a rule. -/
  | violation {source : Source} {schema : Schema} {finding : Finding} {word : String}
      (read : readText file text = .ok (source, schema)) (found : finding ∈ schema.findings)
      (fault : schema.AtFault finding word) :
      Offends file text (finding.diagnostic source) word.toList

namespace Source

variable {file text : String}

theorem marks_of_shows {shown before words rest : List Char} {number : UInt32}
    (short : text.length < 2 ^ 32) (shows : Text.Shows text.toList number shown)
    (shape : shown = before ++ (words ++ rest)) (fits : shown.length ≤ text.length) :
    Span.Marks text.toList ⟨number, UInt32.ofNat before.length, UInt32.ofNat words.length⟩
      words := by
  obtain ⟨silent, raw, _⟩ := shows
  rw [shape, List.length_append, List.length_append] at fits
  have column := Text.toNat_ofNat_of_le short (show before.length ≤ text.length by omega)
  have length := Text.toNat_ofNat_of_le short (show words.length ≤ text.length by omega)
  refine ⟨shown ++ silent, raw, length, ?_⟩
  rw [column, length, shape, List.append_assoc, List.drop_left, List.append_assoc, List.take_left]

/-- What stands in the code is marked in the text. -/
theorem marks_span (short : text.length < 2 ^ 32) (nonempty : (prepared file text).lines ≠ [])
    {line : Nat} {before words after : List Char}
    (found : (pieces '\n' (prepared file text).text)[line]? = some (before ++ (words ++ after))) :
    ((prepared file text).span line before.length words.length).Marks text.toList words := by
  obtain ⟨shown, rest, shape, fits, shows, _⟩ := shows_of_getElem?_pieces short nonempty found
  rw [List.append_assoc, List.append_assoc] at shape
  exact marks_of_shows short shows shape fits

/-- A report about words of the code points at them. -/
theorem pointsAt_diagnostic (short : text.length < 2 ^ 32)
    (nonempty : (prepared file text).lines ≠ []) {line : Nat} {before words after : List Char}
    (found : (pieces '\n' (prepared file text).text)[line]? = some (before ++ (words ++ after)))
    (message : String) (visible : words ≠ []) :
    ((prepared file text).diagnostic message
      ((prepared file text).span line before.length words.length)).PointsAt text.toList words := by
  obtain ⟨shown, rest, shape, fits, shows, fileLine⟩ :=
    shows_of_getElem?_pieces short nonempty found
  have ordinary : ¬ (words = ['\n'] ∨ words = []) := by
    rintro (rfl | rfl)
    · have inPiece : '\n' ∈ before ++ (['\n'] ++ after) := by simp
      exact (Text.of_mem_pieces (List.mem_of_getElem? found) inPiece).2 rfl
    · exact visible rfl
  refine ⟨_, _, shown, rfl, rfl, congrArg (Option.map String.ofList) fileLine, shows, ?_⟩
  rw [if_neg ordinary]
  exact marks_span short nonempty found

/-- A report of the end of a line or of the file points behind something on a line. -/
theorem pointsAt_ending (short : text.length < 2 ^ 32)
    (nonempty : (prepared file text).lines ≠ []) {line : Nat} {before after : List Char}
    (found : (pieces '\n' (prepared file text).text)[line]? = some (before ++ after))
    (message : String) {ending : List Char} (silent : ending = ['\n'] ∨ ending = []) :
    ((prepared file text).diagnostic message
      ((prepared file text).span line before.length ending.length)).PointsAt
        text.toList ending := by
  obtain ⟨shown, rest, shape, fits, shows, fileLine⟩ :=
    shows_of_getElem?_pieces short nonempty found
  have within : before.length ≤ shown.length := by
    rw [shape, List.append_assoc, List.length_append]
    exact Nat.le_add_right _ _
  refine ⟨_, _, shown, rfl, rfl, congrArg (Option.map String.ofList) fileLine, shows, ?_⟩
  rw [if_pos silent]
  constructor
  · rcases silent with rfl | rfl <;> rfl
  · exact (Text.toNat_ofNat_of_le short (within.trans fits)).symm ▸ within

/-- A report about a token points at it. -/
theorem pointsAt_token (short : text.length < 2 ^ 32)
    (nonempty : (prepared file text).lines ≠ []) {token : Token}
    (member : token ∈ (prepared file text).delivered) (message : String) :
    ((prepared file text).diagnostic message ((prepared file text).tokenSpan token)).PointsAt
      text.toList token.text.toList := by
  obtain ⟨before, after, found, column, stands⟩ := (places _).1 token member
  have lexeme := lexeme_of_mem_delivered _ token member
  rw [tokenSpan, Token.length, ← String.length_toList, ← column]
  by_cases silent : token.text.toList = ['\n'] ∨ token.text.toList = []
  · exact pointsAt_ending short nonempty found message silent
  · rw [not_or] at silent
    have other : token.kind ≠ .newline := by
      intro newline
      rw [newline] at lexeme
      exact silent.1 (congrArg String.toList lexeme.eq_of_newline)
    rw [if_neg other] at stands
    obtain ⟨rest, rfl⟩ := stands
    exact pointsAt_diagnostic short nonempty found message silent.2

/-- A source without a line of code declares nothing. -/
theorem parse_of_lines_nil (blank : (prepared file text).lines = []) :
    (prepared file text).parse = .ok .empty :=
  parse_of_text_nil (congrArg (Text.joinPieces '\n') blank)

theorem lines_ne_nil_of_parse_error {error : CompileError}
    (failed : (prepared file text).parse = .error error) : (prepared file text).lines ≠ [] :=
  fun blank => nomatch failed.symm.trans (parse_of_lines_nil blank)

/-- Every word of a schema is marked in the text that it was read from. -/
theorem marks_of_parse (short : text.length < 2 ^ 32) {schema : Schema}
    (parsed : (prepared file text).parse = .ok schema) {word : String × Span}
    (member : word ∈ schema.placedNames) : word.2.Marks text.toList word.1.toList := by
  have nonempty : (prepared file text).lines ≠ [] := by
    intro blank
    cases parsed.symm.trans (parse_of_lines_nil blank)
    exact nomatch member
  obtain ⟨token, delivered, kind, rfl⟩ := placed_of_parse parsed word member
  obtain ⟨before, after, found, column, stands⟩ := (places _).1 token delivered
  rw [kind, if_neg (by decide)] at stands
  obtain ⟨rest, rfl⟩ := stands
  rw [tokenSpan, Token.length, ← String.length_toList, ← column]
  exact marks_span short nonempty found

/-! ### What reports are about -/

/-- A slash that opens no comment is pointed at. -/
theorem offends_of_ofText (short : text.length < 2 ^ 32) {diagnostic : Diagnostic}
    (refused : ofText file text = .error diagnostic) :
    ∃ item, Offends file text diagnostic item ∧ diagnostic.PointsAt text.toList item := by
  obtain ⟨⟨line, number⟩, inNumbered, found⟩ :=
    List.exists_of_findSome?_eq_some (ofText_eq_error_iff.mp refused)
  obtain ⟨column, slash, rfl⟩ := Option.map_eq_some_iff.mp found
  refine ⟨['/'], .slash refused rfl, ?_⟩
  obtain ⟨place, rfl⟩ := Nat.exists_eq_add_of_le (List.le_snd_of_mem_zipIdx inNumbered)
  have inFile := List.mk_add_mem_zipIdx_iff_getElem?.mp inNumbered
  obtain ⟨within, isSlash, _⟩ := List.findIdx?_eq_some_iff_getElem.mp slash
  obtain ⟨comment, shape, _⟩ := Text.exists_beforeComment_append line
  have cut : line = (Text.beforeComment line).take column ++
      (['/'] ++ ((Text.beforeComment line).drop (column + 1) ++ comment)) := by
    have step := List.drop_eq_getElem_cons within
    rw [beq_iff_eq.mp isSlash] at step
    rw [← List.append_assoc, ← List.append_assoc, List.append_assoc _ ['/'], List.singleton_append,
      ← step, List.take_append_drop, ← shape]
  have nonempty : line ≠ [] := by
    rw [cut]
    simp
  obtain ⟨_, fits, shows⟩ := Text.shows_of_getElem?_fileLines short inFile nonempty
  have marks := marks_of_shows short shows cut fits
  rw [List.length_take_of_le within.le] at marks
  rw [Nat.add_comm 1 place]
  exact ⟨_, _, line, rfl, rfl, rfl, shows, marks⟩

/-- What cannot be read is pointed at. -/
theorem offends_of_parse (short : text.length < 2 ^ 32) {source : Source} {error : CompileError}
    (ready : ofText file text = .ok source) (failed : source.parse = .error error) :
    ∃ diagnostic item, error.placed? = some diagnostic ∧ Offends file text diagnostic item ∧
      diagnostic.PointsAt text.toList item := by
  obtain ⟨_, rfl⟩ := ofText_eq_ok_iff.mp ready
  have nonempty := lines_ne_nil_of_parse_error failed
  rcases parse_outcome (prepared file text) with
    ⟨_, _, ⟨_, _, ok⟩ | ⟨diagnostic, fault, lexical⟩⟩ |
    ⟨original, repeated, repeats, room, semantic⟩ |
    ⟨before, token, after, progress, delivered, reads, out, syntactic⟩
  · exact nomatch ok.symm.trans failed
  · cases lexical.symm.trans failed
    obtain ⟨character, line, before, after, found, rfl⟩ := (places _).2 _ fault
    refine ⟨_, [character], rfl, .character ready failed rfl, ?_⟩
    exact pointsAt_diagnostic short nonempty (show _ = some (before ++ ([character] ++ after)) from
      found) _ (List.cons_ne_nil _ _)
  · cases semantic.symm.trans failed
    refine ⟨_, _, rfl, .declaration ready failed ⟨repeats, fun _ => room⟩, ?_⟩
    rw [repeats.repeatedIn.named.1]
    exact pointsAt_token short nonempty (List.mem_of_getElem? repeats.repeatedIn.name) _
  · cases syntactic.symm.trans failed
    have wrong := firstWrong_of_refused delivered reads out
    have here := (take_delivered delivered).1
    refine ⟨_, _, rfl, .token ready failed wrong here, ?_⟩
    exact pointsAt_token short nonempty (List.mem_of_getElem? here) _

end Source

theorem readText_eq_ok {file text : String} {source : Source} {schema : Schema}
    (read : readText file text = .ok (source, schema)) :
    Source.ofText file text = .ok source ∧ source.parse = .ok schema := by
  unfold readText at read
  split at read
  · exact nomatch read
  · next ready =>
    split at read
    · exact nomatch read
    · next parsed =>
      cases read
      exact ⟨ready, parsed⟩

/-- A text that cannot be read has a slash that opens no comment, or its source cannot be read. -/
theorem readText_eq_error {file text : String} {error : CompileError}
    (failed : readText file text = .error error) :
    (∃ diagnostic, Source.ofText file text = .error diagnostic ∧ error = .lexical diagnostic) ∨
      ∃ source, Source.ofText file text = .ok source ∧ source.parse = .error error := by
  unfold readText at failed
  split at failed
  · next diagnostic refused => exact Or.inl ⟨diagnostic, refused, (Except.error.inj failed).symm⟩
  · next source ready =>
    split at failed
    · next wrong =>
      cases failed
      exact Or.inr ⟨source, ready, wrong⟩
    · exact nomatch failed

/-- A word that breaks a rule is pointed at. -/
theorem offends_of_finding {file text : String} (short : text.length < 2 ^ 32) {source : Source}
    {schema : Schema} (read : readText file text = .ok (source, schema)) {finding : Finding}
    (found : finding ∈ schema.findings) :
    ∃ item, Offends file text (finding.diagnostic source) item ∧
      (finding.diagnostic source).PointsAt text.toList item := by
  obtain ⟨word, fault⟩ := Schema.exists_atFault found
  refine ⟨word.toList, .violation read found fault, ?_⟩
  obtain ⟨ready, parsed⟩ := readText_eq_ok read
  obtain ⟨_, rfl⟩ := Source.ofText_eq_ok_iff.mp ready
  obtain ⟨token, delivered, _, same⟩ := Source.placed_of_parse parsed _ fault.placed
  have nonempty : (Source.prepared file text).lines ≠ [] := by
    intro blank
    cases parsed.symm.trans (Source.parse_of_lines_nil blank)
    exact nomatch found
  obtain ⟨rfl, span⟩ := Prod.ext_iff.mp same
  rw [Finding.diagnostic, show finding.span = _ from span]
  exact Source.pointsAt_token short nonempty delivered _

/-- Positions are exact in the text as its author wrote it: the words of a schema stand where
their spans say, and every report of compiling or of checking shows its line and points at what
it is about. -/
theorem positions_exact {file text : String} (short : text.length < 2 ^ 32) :
    (∀ source schema, readText file text = .ok (source, schema) →
      ∀ word ∈ schema.placedNames, word.2.Marks text.toList word.1.toList) ∧
    (∀ error, compileText file text = .error error → ∃ diagnostic item,
      error.placed? = some diagnostic ∧ Offends file text diagnostic item ∧
        diagnostic.PointsAt text.toList item) ∧
    ∀ violations, checkText file text = .ok violations → ∀ violation ∈ violations, ∃ item,
      Offends file text violation.diagnostic item ∧
        violation.diagnostic.PointsAt text.toList item := by
  refine ⟨?_, ?_, ?_⟩
  · intro source schema read word member
    obtain ⟨ready, parsed⟩ := readText_eq_ok read
    obtain ⟨_, rfl⟩ := Source.ofText_eq_ok_iff.mp ready
    exact Source.marks_of_parse short parsed member
  · intro error failed
    unfold compileText at failed
    split at failed
    · next wrong =>
      cases failed
      rcases readText_eq_error wrong with ⟨diagnostic, refused, rfl⟩ | ⟨source, ready, unread⟩
      · obtain ⟨item, offends, points⟩ := Source.offends_of_ofText short refused
        exact ⟨diagnostic, item, rfl, offends, points⟩
      · exact Source.offends_of_parse short ready unread
    · next source schema read =>
      unfold Schema.verify at failed
      split at failed
      · exact nomatch failed
      · next first rest findings =>
        cases failed
        obtain ⟨item, offends, points⟩ :=
          offends_of_finding short read (findings ▸ List.mem_cons_self)
        exact ⟨_, item, rfl, offends, points⟩
  · intro violations checked violation member
    unfold checkText at checked
    split at checked
    · exact nomatch checked
    · next source schema read =>
      cases checked
      obtain ⟨finding, found, rfl⟩ := List.mem_map.mp member
      exact offends_of_finding short read found

/-- A member with a comma behind it, on a line that comes after comments and a blank line. -/
def listedText : String :=
  "// größe\r\n\nmessage Size \x7b // in mm\r\n\tint32 width,\n\x7d"

/-- What is said about the comma. -/
def listedReport : Diagnostic :=
  ⟨"expected \"\\n\" after \"width\", but got \",\"", "size.idl", 4, some 12, some 1,
    some "\tint32 width,"⟩

set_option maxRecDepth 2000 in
theorem listedReport_points :
    compileText "size.idl" listedText = .error (.syntactic listedReport) ∧
      ∃ item, Offends "size.idl" listedText listedReport item ∧
        listedReport.PointsAt listedText.toList item := by
  have failed : compileText "size.idl" listedText = .error (.syntactic listedReport) := by cbv
  have short : listedText.length < 2 ^ 32 := by decide
  obtain ⟨diagnostic, item, placed, offends, points⟩ := (positions_exact short).2.1 _ failed
  cases placed
  exact ⟨failed, item, offends, points⟩

end Idl
