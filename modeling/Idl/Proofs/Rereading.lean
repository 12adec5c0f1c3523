/-
This file reads two sources side by side whose tokens are the same and stand at other
places: one source is the other one moved. Both are read to the end or neither is, and
the declarations of one are those of the other, moved. If reading goes wrong, it goes
wrong at the same token and for the same reason. The ends of the two files need not
stand in the same column.
-/

import Idl.Proofs.Precedence
import Idl.Proofs.Relocation
import Mathlib.Data.List.Forall2

namespace Idl

open Grammar Declaration

/-! ### Phases -/

variable {move : Relocation}

def Heading.relocate (move : Relocation) (heading : Heading) : Heading :=
  { heading with span := move.span heading.span }

def MethodHeading.relocate (move : Relocation) (heading : MethodHeading) : MethodHeading :=
  ⟨heading.response.relocate move, heading.name, move.span heading.span⟩

namespace Phase

/-- The phase with everything that has been read moved. -/
def relocate (move : Relocation) : Phase → Phase
  | .fresh => .fresh
  | .between => .between
  | .keyword kind => .keyword kind
  | .named heading => .named (heading.relocate move)
  | .opened heading => .opened (heading.relocate move)
  | .memberLine heading members =>
    .memberLine (heading.relocate move) (members.map (Member.relocate move))
  | .memberTyped heading members type =>
    .memberTyped (heading.relocate move) (members.map (Member.relocate move))
      (type.relocate move)
  | .memberNamed heading members =>
    .memberNamed (heading.relocate move) (members.map (Member.relocate move))
  | .methodLine heading methods =>
    .methodLine (heading.relocate move) (methods.map (Method.relocate move))
  | .methodTyped heading methods response =>
    .methodTyped (heading.relocate move) (methods.map (Method.relocate move))
      (response.relocate move)
  | .methodNamed heading methods method =>
    .methodNamed (heading.relocate move) (methods.map (Method.relocate move))
      (method.relocate move)
  | .listOpened heading methods method =>
    .listOpened (heading.relocate move) (methods.map (Method.relocate move))
      (method.relocate move)
  | .parameter heading methods method parameters =>
    .parameter (heading.relocate move) (methods.map (Method.relocate move))
      (method.relocate move) (parameters.map (TypeReference.relocate move))
  | .comma heading methods method parameters =>
    .comma (heading.relocate move) (methods.map (Method.relocate move)) (method.relocate move)
      (parameters.map (TypeReference.relocate move))
  | .listClosed heading methods =>
    .listClosed (heading.relocate move) (methods.map (Method.relocate move))
  | .closed declaration => .closed (declaration.relocate move)
  | .finished => .finished

theorem body_relocate (heading : Heading) :
    body (heading.relocate move) = (body heading).relocate move := by
  rw [body, body, show (heading.relocate move).kind = heading.kind from rfl]
  cases heading.kind <;> rfl

theorem method_relocate (heading : MethodHeading) (parameters : List TypeReference) :
    Phase.method (heading.relocate move) (parameters.map (TypeReference.relocate move)) =
      (Phase.method heading parameters).relocate move := by
  simp only [Phase.method, Method.unattached, Method.relocate, MethodHeading.relocate,
    List.map_reverse]

/-- A token leads on from a phase that has been moved just as it leads on from the phase. -/
theorem next?_relocate {place otherPlace : Token → Span} (phase : Phase) {token other : Token}
    (kind : other.kind = token.kind) (text : other.text = token.text)
    (placed : token.kind = .identifier → otherPlace other = move.span (place token)) :
    (phase.relocate move).next? otherPlace other =
      (phase.next? place token).map (Phase.relocate move) := by
  cases phase with
  | opened heading =>
    simp only [relocate, next?, kind, body_relocate]
    cases token.kind <;> rfl
  | keyword opens | memberTyped heading members type | methodTyped heading methods response
  | comma heading methods method parameters =>
    simp only [relocate, next?, kind, text]
    cases same : token.kind with
    | identifier => rw [placed same]; rfl
    | _ => rfl
  | memberLine heading members =>
    simp only [relocate, next?, kind, text, List.isEmpty_map]
    cases same : token.kind with
    | identifier => rw [placed same]; rfl
    | rightBrace =>
      rw [← List.map_reverse]
      cases members.isEmpty <;> rfl
    | _ => rfl
  | methodLine heading methods =>
    simp only [relocate, next?, kind, text, List.isEmpty_map]
    cases same : token.kind with
    | identifier => rw [placed same]; rfl
    | rightBrace =>
      have whole := Service.ofMethods_relocate move heading.name heading.span methods.reverse
      rw [← List.map_reverse]
      cases methods.isEmpty with
      | true => rfl
      | false => exact congrArg (fun service => some (closed (.service service))) whole
    | _ => rfl
  | listOpened heading methods method =>
    simp only [relocate, next?, kind, text]
    cases same : token.kind with
    | identifier => rw [placed same]; rfl
    | _ => rfl
  | parameter heading methods method parameters =>
    simp only [relocate, next?, kind, method_relocate]
    cases token.kind <;> rfl
  | _ =>
    simp only [relocate, next?, kind]
    cases token.kind <;> rfl

theorem expected_relocate (phase : Phase) : (phase.relocate move).expected = phase.expected := by
  cases phase with
  | keyword kind => cases kind <;> rfl
  | _ => rfl

theorem emptyBody?_relocate (phase : Phase) :
    (phase.relocate move).emptyBody? = phase.emptyBody?.map (Heading.relocate move) := by
  cases phase with
  | memberLine heading members => cases members <;> rfl
  | methodLine heading methods => cases methods <;> rfl
  | _ => rfl

end Phase

/-! ### Tokens at other places -/

/-- The tokens are the same, save that the end of the file may stand in another column. -/
structure Token.Like (first second : Token) : Prop where
  kind : second.kind = first.kind
  text : second.text = first.text
  line : second.line = first.line
  column : first.kind ≠ .endOfFile → second.column = first.column

namespace Token.Like

variable {first second : Token}

theorem refl (token : Token) : token.Like token := ⟨rfl, rfl, rfl, fun _ => rfl⟩

theorem describe (like : first.Like second) : second.describe = first.describe := by
  rw [Token.describe, Token.describe, like.kind, like.text]

theorem eq (like : first.Like second) (goesOn : first.kind ≠ .endOfFile) : second = first := by
  obtain ⟨kind, text, line, column⟩ := first
  obtain ⟨otherKind, otherText, otherLine, otherColumn⟩ := second
  obtain ⟨rfl, rfl, rfl, sameColumn⟩ := like
  cases sameColumn goesOn
  rfl

/-- Tokens that are alike to some tokens can be cut where these are cut. -/
theorem exists_of_forall₂ {before after others : List Token} {token : Token}
    (like : List.Forall₂ Token.Like (before ++ token :: after) others) :
    ∃ otherBefore otherToken otherAfter, others = otherBefore ++ otherToken :: otherAfter ∧
      List.Forall₂ Token.Like before otherBefore ∧ token.Like otherToken := by
  have front := List.forall₂_take before.length like
  have back := List.forall₂_drop before.length like
  rw [List.take_left] at front
  rw [List.drop_left, List.forall₂_cons_left_iff] at back
  obtain ⟨otherToken, rest, head, _, shape⟩ := back
  exact ⟨_, otherToken, rest, shape ▸ (List.take_append_drop before.length others).symm, front,
    head⟩

end Token.Like

/-- What is said about a token that is refused does not depend on places. -/
theorem Phase.message_fault_relocate (phase : Phase) {previous other : Option Token}
    (before : other.map Token.describe = previous.map Token.describe) {found token : Token}
    (like : found.Like token) :
    ((phase.relocate move).fault other token).message = (phase.fault previous found).message := by
  have expected : (phase.relocate move).expected = phase.expected := phase.expected_relocate
  have unexpected : (SyntaxFault.unexpected (phase.relocate move).expected other token).message =
      (SyntaxFault.unexpected phase.expected previous found).message := by
    rw [expected]
    cases previous <;> cases other <;> simp_all [SyntaxFault.message, like.describe]
  unfold Phase.fault
  rw [phase.emptyBody?_relocate, like.kind]
  cases phase.emptyBody? with
  | none => exact unexpected
  | some heading =>
    cases found.kind with
    | rightBrace => rfl
    | _ => exact unexpected

/-- The second source says the same at other places. -/
structure Source.MovedTo (move : Relocation) (source other : Source) : Prop where
  file : other.file = source.file
  span : ∀ line column length, other.span line column length =
    move.span (source.span line column length)

namespace Source.MovedTo

variable {source other : Source}

theorem tokenSpan (moved : source.MovedTo move other) (token : Token) :
    other.tokenSpan token = move.span (source.tokenSpan token) :=
  moved.span token.line token.column token.length

end Source.MovedTo

/-! ### Readers -/

/-- The second reader has read the same at other places. -/
structure Reader.MovedTo (move : Relocation) (reader other : Reader) : Prop where
  schema : other.schema = reader.schema.relocate move
  phase : other.phase = reader.phase.relocate move
  previous : other.previous.map Token.describe = reader.previous.map Token.describe

namespace Reader.MovedTo

variable {source otherSource : Source} {reader other : Reader} {tokens others : List Token}
  {token otherToken : Token}

theorem start (move : Relocation) : Reader.start.MovedTo move Reader.start := ⟨rfl, rfl, rfl⟩

theorem settle_of_ok (moved : reader.MovedTo move other) {schema : Schema}
    (settled : reader.settle = .ok schema) : other.settle = .ok (schema.relocate move) := by
  obtain ⟨before, phase, previous⟩ := reader
  obtain ⟨otherBefore, otherPhase, otherPrevious⟩ := other
  obtain ⟨rfl, rfl, _⟩ := moved
  cases phase with
  | closed declaration => exact Schema.declare_relocate_of_ok settled
  | _ =>
    cases settled
    rfl

theorem settle_of_error (moved : reader.MovedTo move other) {repetition : Repetition}
    (settled : reader.settle = .error repetition) :
    other.settle = .error (repetition.relocate move) := by
  obtain ⟨before, phase, previous⟩ := reader
  obtain ⟨otherBefore, otherPhase, otherPrevious⟩ := other
  obtain ⟨rfl, rfl, _⟩ := moved
  cases phase with
  | closed declaration => exact Schema.declare_relocate_of_error settled
  | _ => exact nomatch settled

theorem next? (moved : reader.MovedTo move other) (sources : source.MovedTo move otherSource)
    (like : token.Like otherToken) :
    other.phase.next? otherSource.tokenSpan otherToken =
      (reader.phase.next? source.tokenSpan token).map (Phase.relocate move) := by
  rw [moved.phase]
  refine reader.phase.next?_relocate like.kind like.text fun identifier => ?_
  rw [like.eq (identifier ▸ by decide), sources.tokenSpan]

/-- A token that one reader takes is taken by the other one as well. -/
theorem feed (moved : reader.MovedTo move other) (sources : source.MovedTo move otherSource)
    (like : token.Like otherToken) {after : Reader} (fed : reader.feed source token = .ok after) :
    ∃ otherAfter, other.feed otherSource otherToken = .ok otherAfter ∧
      after.MovedTo move otherAfter := by
  unfold Reader.feed at fed
  split at fed
  · exact nomatch fed
  · next schema settled =>
    split at fed
    · next phase accepted =>
      cases fed
      refine ⟨_, feed_of_settle (moved.settle_of_ok settled) ((moved.next? sources like).trans
        (congrArg (Option.map _) accepted)), rfl, rfl, ?_⟩
      exact congrArg some like.describe
    · exact nomatch fed

/-- Tokens that one reader takes one after the other are taken by the other one as well. -/
theorem foldlM_feed (moved : reader.MovedTo move other)
    (sources : source.MovedTo move otherSource) (like : List.Forall₂ Token.Like tokens others)
    {after : Reader} (fed : tokens.foldlM (Reader.feed source) reader = .ok after) :
    ∃ otherAfter, others.foldlM (Reader.feed otherSource) other = .ok otherAfter ∧
      after.MovedTo move otherAfter := by
  induction like generalizing reader other with
  | nil =>
    cases fed
    exact ⟨other, rfl, moved⟩
  | @cons token otherToken rest otherRest head _ inductionHypothesis =>
    rw [List.foldlM_cons] at fed ⊢
    cases first : reader.feed source token with
    | error error =>
      rw [first] at fed
      exact nomatch fed
    | ok middle =>
      obtain ⟨otherMiddle, otherFirst, movedMiddle⟩ := moved.feed sources head first
      rw [first] at fed
      rw [otherFirst]
      exact inductionHypothesis movedMiddle fed

theorem feedAll (sources : source.MovedTo move otherSource)
    (like : List.Forall₂ Token.Like tokens others) {after : Reader}
    (fed : Reader.feedAll source tokens = .ok after) :
    ∃ otherAfter, Reader.feedAll otherSource others = .ok otherAfter ∧
      after.MovedTo move otherAfter :=
  (start move).foldlM_feed sources like fed

end Reader.MovedTo

/-! ### Sources -/

/-- The same thing goes wrong in two sources, at other places. A token at fault is the first wrong
token of the first source. -/
inductive Misread (move : Relocation) (source other : Source) :
    CompileError → CompileError → Prop where
  | invalid (character : Char) (line column : Nat) :
      Misread move source other
        (.lexical (source.diagnostic (Cursor.invalidMessage character)
          (source.span line column 1)))
        (.lexical (other.diagnostic (Cursor.invalidMessage character)
          (other.span line column 1)))
  | repeated {original repeated : Occurrence} (repeats : Repeats source original repeated) :
      Misread move source other
        (Reader.repeated source (repetition original.declaration repeated.declaration))
        (Reader.repeated other
          ((repetition original.declaration repeated.declaration).relocate move))
  | refused {index : Nat} {token otherToken : Token} (message : String)
      (wrong : source.FirstWrong index) (found : source.delivered[index]? = some token)
      (like : token.Like otherToken) :
      Misread move source other (.syntactic (source.diagnostic message (source.tokenSpan token)))
        (.syntactic (other.diagnostic message (other.tokenSpan otherToken)))

/-- No character ends the scanning of two sources, or the same one does at other places. -/
inductive FaultsAlike (source other : Source) : Option Diagnostic → Option Diagnostic → Prop where
  | none : FaultsAlike source other none none
  | invalid (character : Char) (line column : Nat) :
      FaultsAlike source other
        (some (source.diagnostic (Cursor.invalidMessage character)
          (source.span line column 1)))
        (some (other.diagnostic (Cursor.invalidMessage character)
          (other.span line column 1)))

/-- The scanners of two sources hand out the same tokens, and the same character ends them if one
does. -/
structure Source.ScansLike (source other : Source) : Prop where
  tokens : List.Forall₂ Token.Like source.delivered other.delivered
  faults : FaultsAlike source other source.fault? other.fault?

/-- A source that is read up to a token and goes wrong at it goes wrong. -/
theorem Source.parse_of_feed_error {source : Source} {before after : List Token} {token : Token}
    {reader : Reader} {error : CompileError}
    (delivered : source.delivered = before ++ token :: after)
    (fed : Reader.feedAll source before = .ok reader)
    (failed : reader.feed source token = .error error) : source.parse = .error error := by
  refine parse_of_feedAll_error ?_
  rw [delivered, ← List.singleton_append, ← List.append_assoc]
  refine Reader.feedAll_append_of_error ?_ after
  rw [Reader.feedAll_append_singleton, fed]
  exact failed

namespace Source.MovedTo

variable {source other : Source} {before otherBefore after : List Token} {token : Token}
  {progress : Progress} {reader : Reader}

/-- The tokens that one source is read by take the other one just as far. -/
theorem exists_feedAll (moved : source.MovedTo move other)
    (follows : Reader.Follows source before progress reader)
    (like : List.Forall₂ Token.Like before otherBefore) :
    ∃ otherReader, Reader.feedAll other otherBefore = .ok otherReader ∧
      reader.MovedTo move otherReader := by
  obtain ⟨again, fed, same⟩ := Reader.exists_follows follows.reads
    (Schema.distinct_of_declareAll follows.schema)
  have schemas := Except.ok.inj (same.schema.symm.trans follows.schema)
  have phases := same.phase.trans follows.phase.symm
  have tokens := same.previous.trans follows.previous.symm
  obtain ⟨otherReader, otherFed, readers⟩ := Reader.MovedTo.feedAll moved like fed
  exact ⟨otherReader, otherFed, schemas ▸ readers.schema, phases ▸ readers.phase,
    tokens ▸ readers.previous⟩

/-- A source whose tokens are all read ends as the one that is moved does. -/
theorem parse_of_follows (moved : source.MovedTo move other) (scans : source.ScansLike other)
    (follows : Reader.Follows source source.delivered progress reader)
    (ended : source.fault? = none ∧ source.parse = .ok reader.schema ∨
      ∃ diagnostic, source.fault? = some diagnostic ∧
        source.parse = .error (.lexical diagnostic)) :
    (∃ schema, source.parse = .ok schema ∧ other.parse = .ok (schema.relocate move)) ∨
      ∃ error otherError, source.parse = .error error ∧ other.parse = .error otherError ∧
        Misread move source other error otherError := by
  obtain ⟨otherReader, otherFed, readers⟩ := moved.exists_feedAll follows scans.tokens
  have otherParse := parse_of_feedAll_ok otherFed
  have faults := scans.faults
  rcases ended with ⟨faultless, parsed⟩ | ⟨diagnostic, fault, failed⟩
  · rw [faultless] at faults
    generalize other.fault? = otherFault at faults otherParse
    cases faults
    refine Or.inl ⟨_, parsed, ?_⟩
    rw [otherParse, Reader.conclude, readers.schema]
  · rw [fault] at faults
    generalize other.fault? = otherFault at faults otherParse
    cases faults with
    | invalid character line column =>
      refine Or.inr ⟨_, _, failed, ?_, .invalid character line column⟩
      rw [otherParse, Reader.conclude]

/-- What goes wrong at a token goes wrong at the same token of a source that is moved. -/
theorem parse_of_wrong (moved : source.MovedTo move other) (scans : source.ScansLike other)
    (delivered : source.delivered = before ++ token :: after)
    (follows : Reader.Follows source before progress reader)
    (wrong : (∃ repetition, Schema.declareAll progress.declared = .error repetition ∧
        source.parse = .error (Reader.repeated source repetition)) ∨
      ∃ schema, Schema.declareAll progress.declared = .ok schema ∧
        progress.phase.next? source.tokenSpan token = none ∧
        source.parse = .error (Reader.refused source progress.phase before.getLast? token)) :
    ∃ error otherError, source.parse = .error error ∧ other.parse = .error otherError ∧
      Misread move source other error otherError := by
  obtain ⟨otherBefore, otherToken, otherAfter, otherDelivered, likeBefore, like⟩ :=
    Token.Like.exists_of_forall₂ (delivered ▸ scans.tokens)
  obtain ⟨otherReader, otherFed, readers⟩ := moved.exists_feedAll follows likeBefore
  rcases wrong with ⟨repetition, declared, failed⟩ | ⟨schema, declared, out, failed⟩
  · have settled := readers.settle_of_error (follows.settle_eq.trans declared)
    have otherFailed := parse_of_feed_error otherDelivered otherFed
      (Reader.feed_of_repetition settled)
    obtain ⟨original, repeated, repeats, _, rfl⟩ := exists_repeats delivered follows declared
    exact ⟨_, _, failed, otherFailed, .repeated repeats⟩
  · have settled := readers.settle_of_ok (follows.settle_eq.trans declared)
    have otherOut : otherReader.phase.next? other.tokenSpan otherToken = none := by
      rw [readers.next? moved like, follows.phase, out, Option.map_none]
    have otherFailed := parse_of_feed_error otherDelivered otherFed
      (Reader.feed_of_refused settled otherOut)
    refine ⟨_, _, failed, otherFailed, ?_⟩
    have message : (otherReader.phase.fault otherReader.previous otherToken).message =
        (progress.phase.fault before.getLast? token).message := by
      rw [readers.phase, ← follows.phase, ← follows.previous]
      exact reader.phase.message_fault_relocate readers.previous like
    rw [Reader.refused, Reader.refused, message]
    exact .refused _ (firstWrong_of_refused delivered follows.reads out)
      (take_delivered delivered).1 like

/-- A source that is moved is read to the same end. -/
theorem parse (moved : source.MovedTo move other) (scans : source.ScansLike other) :
    (∃ schema, source.parse = .ok schema ∧ other.parse = .ok (schema.relocate move)) ∨
      ∃ error otherError, source.parse = .error error ∧ other.parse = .error otherError ∧
        Misread move source other error otherError := by
  rcases parse_cases source with ⟨progress, reader, follows, ended⟩ |
    ⟨before, token, after, progress, reader, delivered, follows, wrong⟩
  · exact moved.parse_of_follows scans follows ended
  · exact Or.inr (moved.parse_of_wrong scans delivered follows wrong)

end Source.MovedTo

end Idl
