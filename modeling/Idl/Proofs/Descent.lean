/-
This file reads declarations by descent. There is a part for each rule of the grammar, a
part looks at one token at a time, and what repeats is a loop. No part is written with
the phases in mind: a part knows what may follow from its own place in the text, and it
asks for the next token when it has taken the one that it looks at. It turns out to read
what the reader of phases reads, to the same reports, and from the same requests.
-/

import Idl.Proofs.Reading

namespace Idl

/-- The word that opens a declaration of this kind, as a kind of token. -/
def DeclarationKind.keyword : DeclarationKind → TokenKind
  | .message => .message
  | .service => .service

namespace Descent

/-! ### Looking at one token -/

/-- Where reading by descent stands: the token that it looks at, the one that it took last, and
the position behind both. -/
structure Lookahead (Position : Type) where
  token : Token
  previous : Token
  rest : Position

/-- A part of reading by descent. -/
abbrev Part (Position Value : Type) :=
  StateT (Lookahead Position) (Except CompileError) Value

variable {Position Value Entry Carry : Type}

/-- The token that is looked at. -/
def look : Part Position Token := fun state => .ok (state.token, state)

/-- Take the token that is looked at, and ask for the next. -/
def advance (supply : TokenSupply Diagnostic Position) : Part Position Unit := fun state =>
  match supply.next state.rest with
  | .error diagnostic => .error (.lexical diagnostic)
  | .ok (token, rest) => .ok ((), ⟨token, state.token, rest⟩)

/-- Refuse the token that is looked at. -/
def refuse (source : Source) (fault : Token → Token → SyntaxFault) : Part Position Value :=
  fun state => .error (.syntactic
    (source.diagnostic (fault state.previous state.token).message (source.tokenSpan state.token)))

/-- Refuse the token that is looked at where something else has to be. -/
def unexpected (source : Source) (what : String) : Part Position Value :=
  refuse source fun previous found => .unexpected what (some previous) found

/-! ### Taking tokens uses them up -/

section Uses

/-- At most so many tokens can still be taken before the end of the file. -/
def size (supply : TokenSupply Diagnostic Position) (state : Lookahead Position) : Nat :=
  if state.token.kind = .endOfFile then 0 else supply.remaining state.rest + 1

/-- Where the part succeeds here, it uses up at least so many. -/
def Uses (supply : TokenSupply Diagnostic Position) (part : Part Position Value) (count : Nat)
    (state : Lookahead Position) : Prop :=
  ∀ (value : Value) (later : Lookahead Position), part state = .ok (value, later) →
    size supply later + count ≤ size supply state

variable {supply : TokenSupply Diagnostic Position} {state : Lookahead Position} {many more : Nat}

theorem bind_run {first : Part Position Value} {second : Value → Part Position Entry} :
    (first >>= second) state = (first state).bind fun read => second read.1 read.2 :=
  rfl

theorem look_bind {second : Token → Part Position Value} :
    (look >>= second) state = second state.token state :=
  rfl

theorem bind_eq_ok_iff {first : Part Position Value} {second : Value → Part Position Entry}
    {later : Lookahead Position} {entry : Entry} :
    (first >>= second) state = .ok (entry, later) ↔
      ∃ value middle, first state = .ok (value, middle) ∧
        second value middle = .ok (entry, later) := by
  rw [bind_run]
  cases first state with
  | error error => exact ⟨nofun, nofun⟩
  | ok read =>
    constructor
    · exact fun same => ⟨read.1, read.2, rfl, same⟩
    · rintro ⟨value, middle, same, last⟩
      cases same
      exact last

theorem Uses.pure (value : Value) : Uses supply (pure value) 0 state := by
  intro other later done
  cases done
  exact Nat.le_refl _

theorem Uses.refuse {source : Source} {fault : Token → Token → SyntaxFault} :
    Uses supply (refuse source fault : Part Position Value) many state :=
  fun _ _ failed => nomatch failed

theorem Uses.look {second : Token → Part Position Value}
    (tail : Uses supply (second state.token) many state) :
    Uses supply (look >>= second) many state :=
  tail

theorem exists_of_advance {value : Unit} {later : Lookahead Position}
    (done : advance supply state = .ok (value, later)) :
    ∃ token rest, supply.next state.rest = .ok (token, rest) ∧
      later = ⟨token, state.token, rest⟩ := by
  rw [advance] at done
  cases handed : supply.next state.rest with
  | error fault =>
    rw [handed] at done
    exact nomatch done
  | ok pair =>
    rw [handed] at done
    cases done
    exact ⟨pair.1, pair.2, rfl, rfl⟩

theorem Uses.advance (goesOn : state.token.kind ≠ .endOfFile) :
    Uses supply (advance supply) 1 state := by
  intro value later done
  obtain ⟨token, rest, handed, rfl⟩ := exists_of_advance done
  rw [size, size, if_neg goesOn]
  by_cases final : token.kind = .endOfFile
  · rw [if_pos final]
    exact Nat.le_add_left 1 _
  · rw [if_neg final]
    exact Nat.succ_le_succ (supply.remaining_lt handed final)

theorem Uses.bind {first : Part Position Value} {second : Value → Part Position Entry}
    (head : Uses supply first many state)
    (tail : ∀ value later, Uses supply (second value) more later) :
    Uses supply (first >>= second) (many + more) state := by
  intro entry later done
  obtain ⟨value, middle, taken, last⟩ := bind_eq_ok_iff.mp done
  have one := head value middle taken
  have other := tail value middle entry later last
  omega

theorem Uses.mono {part : Part Position Value} (uses : Uses supply part many state)
    (fewer : more ≤ many) : Uses supply part more state := by
  intro value later done
  have used := uses value later done
  omega

theorem Uses.bind_left {first : Part Position Value} {second : Value → Part Position Entry}
    (head : Uses supply first many state)
    (tail : ∀ value later, Uses supply (second value) 0 later) :
    Uses supply (first >>= second) many state :=
  head.bind tail

theorem Uses.bind_right {first : Part Position Value} {second : Value → Part Position Entry}
    (head : Uses supply first many state)
    (tail : ∀ value later, Uses supply (second value) more later) :
    Uses supply (first >>= second) more state :=
  (head.bind tail).mono (Nat.le_add_left _ _)

end Uses

/-! ### Loops -/

/-- Where a step of a loop goes on from here, it has used up a token. -/
def Advances (supply : TokenSupply Diagnostic Position) (step : Part Position (Carry ⊕ Value))
    (state : Lookahead Position) : Prop :=
  ∀ (next : Carry) (later : Lookahead Position), step state = .ok (.inl next, later) →
    size supply later < size supply state

/-- Take a step over and over with what the last one has handed on, until one of them ends with a
value. -/
def loop (supply : TokenSupply Diagnostic Position) (step : Carry → Part Position (Carry ⊕ Value))
    (advancing : ∀ carry state, Advances supply (step carry) state) (carry : Carry) :
    Part Position Value := fun state =>
  match _taken : step carry state with
  | .error error => .error error
  | .ok (.inr value, later) => .ok (value, later)
  | .ok (.inl next, later) => loop supply step advancing next later
termination_by state => size supply state
decreasing_by exact advancing _ _ _ _ _taken

section Loop

variable {supply : TokenSupply Diagnostic Position}
  {step : Carry → Part Position (Carry ⊕ Value)}
  {advancing : ∀ carry state, Advances supply (step carry) state} {carry : Carry}
  {state : Lookahead Position}

theorem Advances.ends (value : Value) :
    Advances supply (pure (.inr value) : Part Position (Carry ⊕ Value)) state :=
  fun _ _ taken => nomatch taken

theorem Advances.look {second : Token → Part Position (Carry ⊕ Value)}
    (tail : Advances supply (second state.token) state) :
    Advances supply (look >>= second) state :=
  tail

theorem Uses.advances {part : Part Position (Carry ⊕ Value)} (uses : Uses supply part 1 state) :
    Advances supply part state :=
  fun _ later taken => uses _ later taken

theorem loop_of_error {error : CompileError} (failed : step carry state = .error error) :
    loop supply step advancing carry state = .error error := by
  rw [loop]
  split
  · next same => cases failed.symm.trans same; rfl
  all_goals next same => cases failed.symm.trans same

theorem loop_of_inr {value : Value} {later : Lookahead Position}
    (ended : step carry state = .ok (.inr value, later)) :
    loop supply step advancing carry state = .ok (value, later) := by
  rw [loop]
  split
  · next same => cases ended.symm.trans same
  · next same => cases ended.symm.trans same; rfl
  · next same => cases ended.symm.trans same

theorem loop_of_inl {next : Carry} {later : Lookahead Position}
    (goesOn : step carry state = .ok (.inl next, later)) :
    loop supply step advancing carry state = loop supply step advancing next later := by
  rw [loop]
  split
  · next same => cases goesOn.symm.trans same
  · next same => cases goesOn.symm.trans same
  · next same => cases goesOn.symm.trans same; rfl

/-- What holds where a step fails or ends the loop, and is kept by a step that goes on, holds of
every loop. -/
theorem loop_induction
    (advancing : ∀ carry state, Advances supply (step carry) state)
    {motive : Carry → Lookahead Position → Prop}
    (fails : ∀ {carry state error}, step carry state = .error error → motive carry state)
    (ends : ∀ {carry state value later}, step carry state = .ok (.inr value, later) →
      motive carry state)
    (goesOn : ∀ {carry state next later}, step carry state = .ok (.inl next, later) →
      motive next later → motive carry state)
    (carry : Carry) (state : Lookahead Position) : motive carry state := by
  induction bound : size supply state using Nat.strongRecOn generalizing carry state with
  | ind count inductionHypothesis =>
    cases taken : step carry state with
    | error error => exact fails taken
    | ok pair =>
      obtain ⟨next | value, later⟩ := pair
      · have fewer := advancing carry state next later taken
        exact goesOn taken (inductionHypothesis _ (bound ▸ fewer) next later rfl)
      · exact ends taken

/-- What a loop hands back, the last of its steps has handed back. -/
theorem exists_step_of_loop {value : Value} {later : Lookahead Position}
    (done : loop supply step advancing carry state = .ok (value, later)) :
    ∃ carry state, step carry state = .ok (.inr value, later) := by
  induction carry, state using loop_induction advancing with
  | fails failed => exact nomatch (loop_of_error failed).symm.trans done
  | @ends carry state other middle ended =>
    cases (loop_of_inr ended).symm.trans done
    exact ⟨carry, state, ended⟩
  | goesOn taken inductionHypothesis =>
    exact inductionHypothesis ((loop_of_inl taken).symm.trans done)

theorem Uses.loop (uses : ∀ carry state, Uses supply (step carry) 0 state) :
    Uses supply (loop supply step advancing carry) 0 state := by
  intro value later done
  induction carry, state using loop_induction advancing with
  | fails failed => exact nomatch (loop_of_error failed).symm.trans done
  | ends ended =>
    cases (loop_of_inr ended).symm.trans done
    exact uses _ _ _ _ ended
  | goesOn taken inductionHypothesis =>
    have one := uses _ _ _ _ taken
    have others := inductionHypothesis ((loop_of_inl taken).symm.trans done)
    omega

end Loop

/-! ### Parts of declarations -/

section Parts

variable (source : Source) (supply : TokenSupply Diagnostic Position)

/-- Take a token of this kind. -/
def expect (kind : TokenKind) (what : String) : Part Position Token := do
  let token ← look
  if token.kind = kind then
    advance supply
    return token
  else unexpected source what

/-- Refuse a body that is closed before it has an entry. -/
def notEmpty (heading : Heading) : Part Position Unit := do
  if (← look).kind = .rightBrace then refuse source fun _ _ => .emptyBody heading

/-- The name of a declaration of this kind, in words. -/
def nameWords : DeclarationKind → String
  | .message => "a message name"
  | .service => "a service name"

/-- A declaration up to its first entry. -/
def opening (kind : DeclarationKind) : Part Position Heading := do
  let _ ← expect source supply kind.keyword (Text.quote kind.word)
  let name ← expect source supply .identifier (nameWords kind)
  let _ ← expect source supply .leftBrace "\"\x7b\""
  let heading : Heading := ⟨kind, name.text, source.tokenSpan name⟩
  notEmpty source heading
  let _ ← expect source supply .newline "\"\\n\""
  notEmpty source heading
  return heading

/-- One line of a body. The brace behind the last of them is taken as well. -/
def line (entry : Part Position Entry) (earlier : List Entry) :
    Part Position (List Entry ⊕ List Entry) := do
  let read ← entry
  let _ ← expect source supply .newline "\"\\n\""
  if (← look).kind = .rightBrace then
    advance supply
    return .inr (read :: earlier)
  else return .inl (read :: earlier)

/-- One parameter, and the comma behind it. -/
def parameter (earlier : List TypeReference) :
    Part Position (List TypeReference ⊕ List TypeReference) := do
  let type ← expect source supply .identifier "a parameter type"
  let parameters := ⟨type.text, source.tokenSpan type⟩ :: earlier
  match (← look).kind with
  | .comma =>
    advance supply
    return .inl parameters
  | .rightParenthesis => return .inr parameters
  | _ => unexpected source "\",\" or \")\""

variable {source supply} {state : Lookahead Position}

theorem Uses.expect {kind : TokenKind} {what : String} (goesOn : kind ≠ .endOfFile) :
    Uses supply (expect source supply kind what) 1 state := by
  refine Uses.look ?_
  split
  · next same =>
    exact Uses.bind_left (Uses.advance (same ▸ goesOn)) fun _ _ => Uses.pure _
  · exact Uses.refuse

theorem Uses.notEmpty {heading : Heading} : Uses supply (notEmpty source heading) 0 state := by
  refine Uses.look ?_
  split
  · exact Uses.refuse
  · exact Uses.pure ()

theorem Uses.opening {kind : DeclarationKind} :
    Uses supply (opening source supply kind) 0 state := by
  refine Uses.bind_right (Uses.expect (by cases kind <;> decide)) fun _ _ => ?_
  refine Uses.bind_right (Uses.expect (by decide)) fun name _ => ?_
  refine Uses.bind_right (Uses.expect (by decide)) fun _ _ => ?_
  refine Uses.bind_right Uses.notEmpty fun _ _ => ?_
  refine Uses.bind_right (Uses.expect (by decide)) fun _ _ => ?_
  exact Uses.bind_right Uses.notEmpty fun _ _ => Uses.pure _

theorem Uses.line {entry : Part Position Entry} (uses : ∀ state, Uses supply entry 0 state)
    {earlier : List Entry} : Uses supply (line source supply entry earlier) 1 state := by
  refine Uses.bind_right (uses state) fun read _ => ?_
  refine Uses.bind_left (Uses.expect (by decide)) fun _ later => Uses.look ?_
  split
  · next same =>
    have goesOn : later.token.kind ≠ .endOfFile := by simp [same]
    exact Uses.bind_right (Uses.advance goesOn) fun _ _ => Uses.pure _
  · exact Uses.pure _

theorem Uses.parameter {earlier : List TypeReference} :
    Uses supply (parameter source supply earlier) 1 state := by
  refine Uses.bind_left (Uses.expect (by decide)) fun type later => Uses.look ?_
  cases found : later.token.kind with
  | comma =>
    have goesOn : later.token.kind ≠ .endOfFile := by simp [found]
    exact Uses.bind_right (Uses.advance goesOn) fun _ _ => Uses.pure _
  | rightParenthesis => exact Uses.pure _
  | _ => exact Uses.refuse

variable (source supply)

/-- The parameters of a method, the latest first. The token before them is the parenthesis that
opens the list. -/
def parameters : Part Position (List TypeReference) := do
  match (← look).kind with
  | .rightParenthesis => return []
  | .identifier =>
    loop supply (parameter source supply)
      (fun _ _ => Uses.parameter.advances) []
  | _ => unexpected source "a type or \")\""

/-- A member. -/
def member : Part Position Member := do
  let type ← expect source supply .identifier "a member type or \"\x7d\""
  let name ← expect source supply .identifier "a member name"
  return ⟨⟨type.text, source.tokenSpan type⟩, name.text, source.tokenSpan name⟩

/-- A method. -/
def method : Part Position Method := do
  let response ← expect source supply .identifier "a return type or \"\x7d\""
  let name ← expect source supply .identifier "a method name"
  let _ ← expect source supply .leftParenthesis "\"(\""
  let parameters ← parameters source supply
  let _ ← expect source supply .rightParenthesis "\")\""
  return .unattached name.text (source.tokenSpan name) ⟨response.text, source.tokenSpan response⟩
    parameters.reverse

variable {source supply}

theorem Uses.parameters : Uses supply (parameters source supply) 0 state := by
  refine Uses.look ?_
  cases found : state.token.kind with
  | rightParenthesis => exact Uses.pure _
  | identifier => exact Uses.loop fun _ _ => Uses.parameter.mono (Nat.zero_le 1)
  | _ => exact Uses.refuse

theorem Uses.member : Uses supply (member source supply) 0 state := by
  refine Uses.bind_right (Uses.expect (by decide)) fun type _ => ?_
  exact Uses.bind_right (Uses.expect (by decide)) fun name _ => Uses.pure _

theorem Uses.method : Uses supply (method source supply) 0 state := by
  refine Uses.bind_right (Uses.expect (by decide)) fun response _ => ?_
  refine Uses.bind_right (Uses.expect (by decide)) fun name _ => ?_
  refine Uses.bind_right (Uses.expect (by decide)) fun _ _ => ?_
  refine Uses.bind_right Uses.parameters fun parameters _ => ?_
  exact Uses.bind_right (Uses.expect (by decide)) fun _ _ => Uses.pure _

variable (source supply)

/-- The entries of a body up to the brace that closes it, the latest first. -/
def body (entry : Part Position Entry) (uses : ∀ state, Uses supply entry 0 state) :
    Part Position (List Entry) :=
  loop supply (line source supply entry) (fun _ _ => (Uses.line uses).advances) []

/-- A declaration. -/
def declaration (kind : DeclarationKind) : Part Position Declaration := do
  let heading ← opening source supply kind
  match kind with
  | .message =>
    let members ← body source supply (member source supply) fun _ => Uses.member
    return .message ⟨heading.name, members.reverse, heading.span⟩
  | .service =>
    let methods ← body source supply (method source supply) fun _ => Uses.method
    return .service (.ofMethods heading.name heading.span methods.reverse)

variable {source supply}

theorem Uses.body {entry : Part Position Entry} {uses : ∀ state, Uses supply entry 0 state} :
    Uses supply (body source supply entry uses) 0 state :=
  Uses.loop fun _ _ => (Uses.line uses).mono (Nat.zero_le 1)

theorem Uses.declaration {kind : DeclarationKind} :
    Uses supply (declaration source supply kind) 0 state := by
  refine Uses.bind_right Uses.opening fun heading _ => ?_
  cases kind with
  | message => exact Uses.bind_right Uses.body fun members _ => Uses.pure _
  | service => exact Uses.bind_right Uses.body fun methods _ => Uses.pure _

end Parts

/-! ### A whole file -/

section File

variable (source : Source) (supply : TokenSupply Diagnostic Position)

/-- Add a declaration to the schema. -/
def register (schema : Schema) (declaration : Declaration) : Part Position Schema := fun state =>
  match schema.declare declaration with
  | .error repetition =>
    .error (.semantic (source.diagnostic repetition.message repetition.span))
  | .ok schema => .ok (schema, state)

/-- A declaration, added to the schema. -/
def statement (schema : Schema) : Part Position Schema := do
  match (← look).kind with
  | .message => register source schema (← declaration source supply .message)
  | .service => register source schema (← declaration source supply .service)
  | _ => unexpected source "\"message\" or \"service\""

/-- One more declaration behind a line feed, or the end of the file. -/
def further (schema : Schema) : Part Position (Schema ⊕ Schema) := do
  match (← look).kind with
  | .newline =>
    advance supply
    let schema ← statement source supply schema
    return .inl schema
  | .endOfFile => return .inr schema
  | _ => unexpected source "\"\\n\""

variable {source supply} {state : Lookahead Position}

theorem Uses.statement {schema : Schema} :
    Uses supply (statement source supply schema) 0 state := by
  have registers : ∀ declaration state,
      Uses supply (register source schema declaration) 0 state := by
    intro declaration state value later done
    rw [register] at done
    cases declared : schema.declare declaration with
    | error repetition =>
      rw [declared] at done
      exact nomatch done
    | ok next =>
      rw [declared] at done
      cases done
      exact Nat.le_refl _
  refine Uses.look ?_
  cases found : state.token.kind with
  | message => exact Uses.bind_right Uses.declaration fun declaration _ => registers declaration _
  | service => exact Uses.bind_right Uses.declaration fun declaration _ => registers declaration _
  | _ => exact Uses.refuse

theorem advances_further {schema : Schema} :
    Advances supply (further source supply schema) state := by
  refine Advances.look ?_
  cases found : state.token.kind with
  | newline =>
    have goesOn : state.token.kind ≠ .endOfFile := by simp [found]
    refine (Uses.bind_left (Uses.advance goesOn) fun _ _ => ?_).advances
    exact Uses.bind_right Uses.statement fun _ _ => Uses.pure _
  | endOfFile => exact Advances.ends schema
  | _ => exact Uses.refuse.advances

variable (source supply)

/-- All declarations from here on, added to the schema. -/
def extra (schema : Schema) : Part Position Schema :=
  loop supply (further source supply) (fun _ _ => advances_further) schema

/-- All declarations of a file. -/
def code : Part Position Schema := do
  match (← look).kind with
  | .endOfFile => return .empty
  | .message => extra source supply (← statement source supply .empty)
  | .service => extra source supply (← statement source supply .empty)
  | .newline => extra source supply .empty
  | _ => refuse source fun _ found => .unexpected "\"message\" or \"service\"" none found

/-- The schema that is read by descent, up to the end of the file. -/
def parse (position : Position) : Except CompileError Schema :=
  match supply.next position with
  | .error diagnostic => .error (.lexical diagnostic)
  | .ok (token, rest) =>
    match code source supply ⟨token, token, rest⟩ with
    | .error error => .error error
    | .ok (schema, state) =>
      if state.token.kind = .endOfFile then .ok schema
      else
        .error (.syntactic (source.diagnostic
          (SyntaxFault.unexpected "end of file" none state.token).message
          (source.tokenSpan state.token)))

end File

end Descent

end Idl
