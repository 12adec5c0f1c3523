/-
This file shows that reading by descent and the reader of phases are one. Each part of
the descent leads the reader from one phase to another: the reader that takes the tokens
of the part, from the one that is looked at, goes on where the part leaves off, and it
fails where the part fails, with the same report. A part may count on what it knows about
the token that it looks at, so what is known stands beside the phase. The parts of a
declaration are composed from those of single tokens; a whole file is an induction on its
declarations, since the schema that a declaration is added to changes between them.
-/

import Idl.Proofs.Descent

namespace Idl

namespace Descent

variable {Position Value Entry Carry : Type} {source : Source}
  {supply : TokenSupply Diagnostic Position}

/-! ### The reader at a token that is looked at -/

/-- What the reader makes of the token that is looked at, and of all tokens behind it. -/
def resume (source : Source) (supply : TokenSupply Diagnostic Position) (reader : Reader)
    (state : Lookahead Position) : Except CompileError Schema :=
  match reader.feed source state.token with
  | .error error => .error error
  | .ok reader =>
    if state.token.kind = .endOfFile then .ok reader.schema
    else reader.run source supply state.rest

section Resume

variable {reader : Reader} {state : Lookahead Position} {token previous : Token}
  {position rest : Position}

theorem run_of_ok (handed : supply.next position = .ok (token, rest)) :
    reader.run source supply position = resume source supply reader ⟨token, previous, rest⟩ := by
  rw [Reader.run, resume]
  split
  · next same => cases handed.symm.trans same
  · next same =>
    cases handed.symm.trans same
    cases reader.feed source token with
    | error error => rfl
    | ok next =>
      by_cases final : token.kind = .endOfFile
      · simp only [final, ↓reduceDIte, ↓reduceIte]
      · simp only [final, ↓reduceDIte, ↓reduceIte]

theorem run_of_error {diagnostic : Diagnostic}
    (handed : supply.next position = .error diagnostic) :
    reader.run source supply position = .error (.lexical diagnostic) := by
  rw [Reader.run]
  split
  · next same => cases handed.symm.trans same; rfl
  · next same => cases handed.symm.trans same

theorem resume_of_error {error : CompileError}
    (failed : reader.feed source state.token = .error error) :
    resume source supply reader state = .error error := by
  rw [resume, failed]

theorem resume_of_final {next : Reader} (fed : reader.feed source state.token = .ok next)
    (final : state.token.kind = .endOfFile) :
    resume source supply reader state = .ok next.schema := by
  rw [resume, fed]
  exact if_pos final

theorem resume_congr {other : Reader}
    (same : reader.feed source state.token = other.feed source state.token) :
    resume source supply reader state = resume source supply other state := by
  rw [resume, resume, same]

/-- The reader that has taken the token that was looked at stands before the next one. -/
theorem resume_of_ok {next : Reader} (fed : reader.feed source state.token = .ok next)
    (goesOn : state.token.kind ≠ .endOfFile) :
    resume source supply reader state =
      (advance supply state).bind fun read => resume source supply next read.2 := by
  rw [resume, fed, advance]
  refine (if_neg goesOn).trans ?_
  cases handed : supply.next state.rest with
  | error diagnostic => exact run_of_error handed
  | ok pair => exact run_of_ok handed

end Resume

/-! ### Phases and what they refuse -/

section Phases

variable {phase : Phase} {token : Token}

theorem settle_of_open {schema : Schema} {previous : Option Token}
    (settled : phase.closed? = none) : Reader.settle ⟨schema, phase, previous⟩ = .ok schema := by
  cases phase with
  | closed declaration => exact nomatch settled
  | _ => rfl

theorem fault_of_full (full : phase.emptyBody? = none) (previous : Option Token) (token : Token) :
    phase.fault previous token = .unexpected phase.expected previous token := by
  rw [Phase.fault, full]

theorem fault_of_ne (other : token.kind ≠ .rightBrace) (previous : Option Token) :
    phase.fault previous token = .unexpected phase.expected previous token := by
  rw [Phase.fault]
  split
  · next same => exact absurd same other
  · rfl

theorem fault_of_emptyBody {heading : Heading} (empty : phase.emptyBody? = some heading)
    (same : token.kind = .rightBrace) (previous : Option Token) :
    phase.fault previous token = .emptyBody heading := by
  rw [Phase.fault, empty, same]

/-- The kind of token that a phase takes, if it takes no other. -/
def only? : Phase → Option TokenKind
  | .keyword _ => some .identifier
  | .named _ => some .leftBrace
  | .opened _ => some .newline
  | .memberTyped _ _ _ => some .identifier
  | .memberNamed _ _ => some .newline
  | .methodTyped _ _ _ => some .identifier
  | .methodNamed _ _ _ => some .leftParenthesis
  | .comma _ _ _ _ => some .identifier
  | .listClosed _ _ => some .newline
  | _ => none

theorem next?_of_only {place : Token → Span} {kind : TokenKind} (only : only? phase = some kind)
    (other : token.kind ≠ kind) : phase.next? place token = none := by
  cases phase <;> cases only <;> rw [Phase.next?] <;> split <;> first | contradiction | rfl

theorem closed?_of_only {kind : TokenKind} (only : only? phase = some kind) :
    phase.closed? = none ∧ kind ≠ .endOfFile := by
  cases phase <;> cases only <;> exact ⟨rfl, by decide⟩

/-- Outside declarations, the word that opens one is taken. -/
theorem next?_of_keyword {place : Token → Span} {kind : DeclarationKind}
    (same : token.kind = kind.keyword) :
    Phase.next? place .fresh token = some (.keyword kind) ∧
      Phase.next? place .between token = some (.keyword kind) := by
  cases kind <;> exact ⟨by rw [Phase.next?, same]; rfl, by rw [Phase.next?, same]; rfl⟩

end Phases

/-! ### Parts between phases -/

/-- A phase of the reader, and what is known about the token that is looked at. -/
structure Stance where
  phase : Phase
  fits : Token → Prop

/-- The part leads the reader from one stance to another: the reader goes on where the part has
succeeded, and fails where it has failed. -/
def Leads (source : Source) (supply : TokenSupply Diagnostic Position) (before : Stance)
    (part : Part Position Value) (after : Value → Stance) : Prop :=
  ∀ (schema : Schema) (state : Lookahead Position), before.fits state.token →
    resume source supply ⟨schema, before.phase, some state.previous⟩ state =
      (part state).bind (fun read =>
        resume source supply ⟨schema, (after read.1).phase, some read.2.previous⟩ read.2) ∧
    ∀ value later, part state = .ok (value, later) → (after value).fits later.token

namespace Leads

variable {before : Stance} {phase : Phase} {fits : Token → Prop} {after : Value → Stance}

theorem pure {value : Value} (same : (after value).phase = phase)
    (known : ∀ token, fits token → (after value).fits token) :
    Leads source supply ⟨phase, fits⟩ (pure value) after := by
  subst same
  refine fun schema state fitting => ⟨rfl, fun other later done => ?_⟩
  cases done
  exact known _ fitting

theorem bind {first : Part Position Value} {second : Value → Part Position Entry}
    {middle : Value → Stance} {after : Entry → Stance}
    (head : Leads source supply before first middle)
    (tail : ∀ value, Leads source supply (middle value) (second value) after) :
    Leads source supply before (first >>= second) after := by
  intro schema state fitting
  obtain ⟨same, kept⟩ := head schema state fitting
  rw [same, bind_run]
  constructor
  · cases taken : first state with
    | error error => rfl
    | ok read => exact (tail read.1 schema read.2 (kept _ _ taken)).1
  · intro entry later done
    obtain ⟨value, between, taken, last⟩ := bind_eq_ok_iff.mp done
    exact (tail value schema between (kept _ _ taken)).2 entry later last

/-- What is looked at is known from then on. -/
theorem look {second : Token → Part Position Value}
    (tail : ∀ token, before.fits token →
      Leads source supply ⟨before.phase, (· = token)⟩ (second token) after) :
    Leads source supply before (look >>= second) after :=
  fun schema state fitting => tail state.token fitting schema state rfl

/-- More may be known than a part counts on. -/
theorem weaken {part : Part Position Value} {narrow : Token → Prop}
    (leads : Leads source supply ⟨phase, fits⟩ part after)
    (known : ∀ token, narrow token → fits token) :
    Leads source supply ⟨phase, narrow⟩ part after :=
  fun schema state fitting => leads schema state (known _ fitting)

/-- What is known of a value that has been read may be used as well. -/
theorem given {part : Part Position Value} {fact : Prop}
    (leads : fact → Leads source supply ⟨phase, fits⟩ part after) :
    Leads source supply ⟨phase, fun token => fits token ∧ fact⟩ part after :=
  fun schema state fitting => leads fitting.2 schema state fitting.1

theorem loop {step : Carry → Part Position (Carry ⊕ Value)} (stance : Carry → Stance)
    {advancing : ∀ carry state, Advances supply (step carry) state}
    (leads : ∀ carry, Leads source supply (stance carry) (step carry) (Sum.elim stance after))
    (carry : Carry) :
    Leads source supply (stance carry) (loop supply step advancing carry) after := by
  intro schema state
  -- What is known of the token is part of the claim: a step may count on what the last one left.
  induction carry, state using loop_induction advancing with
  | @fails carry state error failed =>
    intro fitting
    obtain ⟨same, _⟩ := leads carry schema state fitting
    rw [loop_of_error failed, same, failed]
    exact ⟨rfl, nofun⟩
  | @ends carry state value later ended =>
    intro fitting
    obtain ⟨same, kept⟩ := leads carry schema state fitting
    rw [loop_of_inr ended, same, ended]
    refine ⟨rfl, fun other last done => ?_⟩
    cases done
    exact kept _ _ ended
  | @goesOn carry state next later taken inductionHypothesis =>
    intro fitting
    obtain ⟨same, kept⟩ := leads carry schema state fitting
    rw [loop_of_inl taken, same, taken]
    exact inductionHypothesis (kept _ _ taken)

theorem advance {token : Token} (next : Phase) (settled : phase.closed? = none)
    (goesOn : token.kind ≠ .endOfFile)
    (accepts : phase.next? source.tokenSpan token = some next) :
    Leads source supply ⟨phase, (· = token)⟩ (advance supply) fun _ => ⟨next, fun _ => True⟩ := by
  rintro schema state rfl
  refine ⟨?_, fun _ _ _ => trivial⟩
  rw [resume_of_ok (Reader.feed_of_settle (settle_of_open settled) accepts) goesOn,
    Descent.advance]
  cases supply.next state.rest with
  | error diagnostic => rfl
  | ok pair => rfl

theorem refuse {token : Token} {fault : Token → Token → SyntaxFault}
    (settled : phase.closed? = none) (out : phase.next? source.tokenSpan token = none)
    (words : ∀ previous, phase.fault (some previous) token = fault previous token) :
    Leads source supply ⟨phase, (· = token)⟩ (refuse source fault : Part Position Value)
      after := by
  rintro schema state rfl
  refine ⟨?_, nofun⟩
  rw [resume_of_error (Reader.feed_of_refused (settle_of_open settled) out), Reader.refused, words]
  rfl

theorem expect {kind : TokenKind} {what : String} (next : Token → Phase)
    (goesOn : kind ≠ .endOfFile) (settled : phase.closed? = none)
    (accepts : ∀ token, token.kind = kind → phase.next? source.tokenSpan token = some (next token))
    (refuses : ∀ token, fits token → token.kind ≠ kind →
      phase.next? source.tokenSpan token = none ∧
        ∀ previous, phase.fault previous token = .unexpected what previous token) :
    Leads source supply ⟨phase, fits⟩ (expect source supply kind what)
      fun token => ⟨next token, fun _ => True⟩ := by
  refine look fun token fitting => ?_
  by_cases same : token.kind = kind
  · rw [if_pos same]
    exact bind (advance (next token) settled (same ▸ goesOn) (accepts token same)) fun _ =>
      pure rfl fun _ _ => trivial
  · rw [if_neg same]
    obtain ⟨out, words⟩ := refuses token fitting same
    exact refuse settled out fun previous => words (some previous)

theorem expect_only {kind : TokenKind} {what : String} (next : Token → Phase)
    (only : only? phase = some kind) (full : phase.emptyBody? = none)
    (words : phase.expected = what)
    (accepts : ∀ token, token.kind = kind →
      phase.next? source.tokenSpan token = some (next token)) :
    Leads source supply ⟨phase, fun _ => True⟩ (Descent.expect source supply kind what)
      fun token => ⟨next token, fun _ => True⟩ := by
  obtain ⟨settled, goesOn⟩ := closed?_of_only only
  refine expect next goesOn settled accepts fun token _ other => ?_
  exact ⟨next?_of_only only other, fun _ => by rw [fault_of_full full, words]⟩

theorem notEmpty {heading : Heading} (empty : phase.emptyBody? = some heading)
    (settled : phase.closed? = none)
    (refuses : ∀ token, token.kind = .rightBrace → phase.next? source.tokenSpan token = none) :
    Leads source supply ⟨phase, fun _ => True⟩ (notEmpty source heading)
      fun _ => ⟨phase, fun token => token.kind ≠ .rightBrace⟩ := by
  refine look fun token _ => ?_
  by_cases same : token.kind = .rightBrace
  · rw [if_pos same]
    exact refuse settled (refuses token same) fun previous => fault_of_emptyBody empty same _
  · rw [if_neg same]
    refine pure rfl ?_
    rintro _ rfl
    exact same

theorem opening {kind : DeclarationKind} (settled : phase.closed? = none)
    (accepts : ∀ token, token.kind = kind.keyword →
      phase.next? source.tokenSpan token = some (.keyword kind)) :
    Leads source supply ⟨phase, fun token => token.kind = kind.keyword⟩
      (opening source supply kind)
      fun heading => ⟨Phase.body heading,
        fun token => token.kind ≠ .rightBrace ∧ heading.kind = kind⟩ := by
  refine bind (expect (fun _ => .keyword kind) (by cases kind <;> decide) settled accepts
    fun _ same other => absurd same other) fun _ => ?_
  refine bind (expect_only (fun name => .named ⟨kind, name.text, source.tokenSpan name⟩) rfl rfl
    (by cases kind <;> rfl) fun token same => by rw [Phase.next?, same]) fun name => ?_
  refine bind (expect_only (fun _ => .opened ⟨kind, name.text, source.tokenSpan name⟩) rfl rfl rfl
    fun token same => by rw [Phase.next?, same]) fun _ => ?_
  refine bind (notEmpty rfl rfl fun token same => by rw [Phase.next?, same]) fun _ => ?_
  refine bind (expect (fun _ => Phase.body ⟨kind, name.text, source.tokenSpan name⟩) (by decide) rfl
    (fun token same => by rw [Phase.next?, same])
    fun token fitting other => ⟨next?_of_only rfl other, fun _ => fault_of_ne fitting _⟩)
    fun _ => ?_
  refine bind (notEmpty (by cases kind <;> rfl) (by cases kind <;> rfl) fun token same => ?_)
    fun _ => pure rfl fun _ fitting => ⟨fitting, rfl⟩
  cases kind <;> rw [Phase.body, Phase.next?, same] <;> rfl

/-! ### Entries -/

theorem member (heading : Heading) (earlier : List Member) :
    Leads source supply ⟨.memberLine heading earlier, fun token => token.kind ≠ .rightBrace⟩
      (member source supply)
      fun read => ⟨.memberNamed heading (read :: earlier), fun _ => True⟩ := by
  refine bind (expect (fun type => .memberTyped heading earlier ⟨type.text, source.tokenSpan type⟩)
    (by decide) rfl (fun token same => by rw [Phase.next?, same]) fun token fitting other => ?_)
    fun type => ?_
  · refine ⟨?_, fun _ => fault_of_ne fitting _⟩
    rw [Phase.next?]
    split <;> first | contradiction | rfl
  exact bind (expect_only
    (fun name => .memberNamed heading
      (⟨⟨type.text, source.tokenSpan type⟩, name.text, source.tokenSpan name⟩ :: earlier))
    rfl rfl rfl fun token same => by rw [Phase.next?, same]) fun name =>
    pure rfl fun _ _ => trivial

/-- Where the parameters of a method stand when these have been read. -/
def afterParameters (heading : Heading) (methods : List Method) (method : MethodHeading) :
    List TypeReference → Phase
  | [] => .listOpened heading methods method
  | type :: earlier => .parameter heading methods method (type :: earlier)

/-- Where the next parameter is read when these have been. -/
def beforeParameter (heading : Heading) (methods : List Method) (method : MethodHeading) :
    List TypeReference → Stance
  | [] => ⟨.listOpened heading methods method, fun token => token.kind = .identifier⟩
  | type :: earlier => ⟨.comma heading methods method (type :: earlier), fun _ => True⟩

theorem parameter (heading : Heading) (methods : List Method) (method : MethodHeading)
    (earlier : List TypeReference) :
    Leads source supply (beforeParameter heading methods method earlier)
      (parameter source supply earlier)
      (Sum.elim (beforeParameter heading methods method) fun parameters =>
        ⟨afterParameters heading methods method parameters,
          fun token => token.kind = .rightParenthesis⟩) := by
  have typed : Leads source supply (beforeParameter heading methods method earlier)
      (Descent.expect source supply .identifier "a parameter type") fun type =>
        ⟨.parameter heading methods method (⟨type.text, source.tokenSpan type⟩ :: earlier),
          fun _ => True⟩ := by
    cases earlier with
    | nil =>
      exact expect _ (by decide) rfl (fun token same => by rw [Phase.next?, same])
        fun _ same other => absurd same other
    | cons type earlier =>
      exact expect_only _ rfl rfl rfl fun token same => by rw [Phase.next?, same]
  refine typed.bind fun type => look fun token _ => ?_
  cases found : token.kind with
  | comma =>
    exact bind (advance (.comma heading methods method
      (⟨type.text, source.tokenSpan type⟩ :: earlier)) rfl (by simp [found])
      (by rw [Phase.next?, found])) fun _ => pure rfl fun _ _ => trivial
  | rightParenthesis =>
    refine pure rfl ?_
    rintro _ rfl
    exact found
  | _ => exact refuse rfl (by rw [Phase.next?, found]) fun _ => fault_of_full rfl _ _

theorem parameters (heading : Heading) (methods : List Method) (method : MethodHeading) :
    Leads source supply ⟨.listOpened heading methods method, fun _ => True⟩
      (parameters source supply) fun parameters =>
        ⟨afterParameters heading methods method parameters,
          fun token => token.kind = .rightParenthesis⟩ := by
  refine look fun token _ => ?_
  cases found : token.kind with
  | rightParenthesis =>
    refine pure rfl ?_
    rintro _ rfl
    exact found
  | identifier =>
    refine weaken (loop (beforeParameter heading methods method)
      (parameter heading methods method) []) ?_
    rintro _ rfl
    exact found
  | _ => exact refuse rfl (by rw [Phase.next?, found]) fun _ => fault_of_full rfl _ _

theorem method (heading : Heading) (earlier : List Method) :
    Leads source supply ⟨.methodLine heading earlier, fun token => token.kind ≠ .rightBrace⟩
      (method source supply)
      fun read => ⟨.listClosed heading (read :: earlier), fun _ => True⟩ := by
  refine bind (expect (fun type => .methodTyped heading earlier ⟨type.text, source.tokenSpan type⟩)
    (by decide) rfl (fun token same => by rw [Phase.next?, same]) fun token fitting other => ?_)
    fun type => ?_
  · refine ⟨?_, fun _ => fault_of_ne fitting _⟩
    rw [Phase.next?]
    split <;> first | contradiction | rfl
  refine bind (expect_only (fun name => .methodNamed heading earlier
    ⟨⟨type.text, source.tokenSpan type⟩, name.text, source.tokenSpan name⟩) rfl rfl rfl
    fun token same => by rw [Phase.next?, same]) fun name => ?_
  refine bind (expect_only (fun _ => .listOpened heading earlier
    ⟨⟨type.text, source.tokenSpan type⟩, name.text, source.tokenSpan name⟩) rfl rfl rfl
    fun token same => by rw [Phase.next?, same]) fun _ => ?_
  refine bind (parameters heading earlier _) fun parameters => ?_
  refine bind (expect (fun _ => .listClosed heading (Phase.method
    ⟨⟨type.text, source.tokenSpan type⟩, name.text, source.tokenSpan name⟩ parameters :: earlier))
    (by decide) (by cases parameters <;> rfl)
    (fun token same => by cases parameters <;> rw [afterParameters, Phase.next?, same])
    fun _ same other => absurd same other) fun _ => pure rfl fun _ _ => trivial

/-- A body from its first entry on: `atLine` is the phase before a line, `ended` that behind the
entry of a line, and `close` the declaration of these entries. -/
theorem body {entry : Part Position Entry} {uses : ∀ state, Uses supply entry 0 state}
    (atLine ended : List Entry → Phase) (close : List Entry → Declaration)
    (entries : ∀ earlier, Leads source supply
      ⟨atLine earlier, fun token => token.kind ≠ .rightBrace⟩ entry
      fun read => ⟨ended (read :: earlier), fun _ => True⟩)
    (newlines : ∀ entries, Leads source supply ⟨ended entries, fun _ => True⟩
      (Descent.expect source supply .newline "\"\\n\"")
      fun _ => ⟨atLine entries, fun _ => True⟩)
    (settled : ∀ entries, (atLine entries).closed? = none)
    (closes : ∀ read earlier token, token.kind = .rightBrace →
      (atLine (read :: earlier)).next? source.tokenSpan token =
        some (.closed (close (read :: earlier)))) :
    Leads source supply ⟨atLine [], fun token => token.kind ≠ .rightBrace⟩
      (body source supply entry uses) fun entries => ⟨.closed (close entries), fun _ => True⟩ := by
  refine loop (fun entries => ⟨atLine entries, fun token => token.kind ≠ .rightBrace⟩)
    (fun earlier => ?_) []
  refine bind (entries earlier) fun read => ?_
  refine bind (newlines (read :: earlier)) fun _ => look fun token _ => ?_
  by_cases same : token.kind = .rightBrace
  · rw [if_pos same]
    exact bind (advance (.closed (close (read :: earlier))) (settled _) (by simp [same])
      (closes read earlier token same)) fun _ => pure rfl fun _ _ => trivial
  · rw [if_neg same]
    refine pure rfl ?_
    rintro _ rfl
    exact same

theorem members {heading : Heading} (same : heading.kind = .message) :
    Leads source supply ⟨Phase.body heading, fun token => token.kind ≠ .rightBrace⟩
      (Descent.body source supply (Descent.member source supply) fun _ => Uses.member)
      fun members =>
        ⟨.closed (.message ⟨heading.name, members.reverse, heading.span⟩), fun _ => True⟩ := by
  rw [Phase.body, same]
  exact body (.memberLine heading) (.memberNamed heading)
    (fun members => .message ⟨heading.name, members.reverse, heading.span⟩) (member heading)
    (fun _ => expect_only _ rfl rfl rfl fun token same => by rw [Phase.next?, same])
    (fun _ => rfl) fun read earlier token same => by rw [Phase.next?, same]; rfl

theorem methods {heading : Heading} (same : heading.kind = .service) :
    Leads source supply ⟨Phase.body heading, fun token => token.kind ≠ .rightBrace⟩
      (Descent.body source supply (Descent.method source supply) fun _ => Uses.method)
      fun methods =>
        ⟨.closed (.service (.ofMethods heading.name heading.span methods.reverse)),
          fun _ => True⟩ := by
  rw [Phase.body, same]
  exact body (.methodLine heading) (.listClosed heading)
    (fun methods => .service (.ofMethods heading.name heading.span methods.reverse))
    (method heading)
    (fun _ => expect_only _ rfl rfl rfl fun token same => by rw [Phase.next?, same])
    (fun _ => rfl) fun read earlier token same => by rw [Phase.next?, same]; rfl

theorem declaration {kind : DeclarationKind} (settled : phase.closed? = none)
    (accepts : ∀ token, token.kind = kind.keyword →
      phase.next? source.tokenSpan token = some (.keyword kind)) :
    Leads source supply ⟨phase, fun token => token.kind = kind.keyword⟩
      (declaration source supply kind)
      fun declaration => ⟨.closed declaration, fun _ => True⟩ := by
  refine bind (opening settled accepts) fun heading => given fun same => ?_
  cases kind with
  | message => exact bind (members same) fun _ => pure rfl fun _ _ => trivial
  | service => exact bind (methods same) fun _ => pure rfl fun _ _ => trivial

end Leads

/-! ### A whole file -/

section File

variable {state : Lookahead Position} {schema before : Schema} {phase : Phase}
  {kind : DeclarationKind}

theorem statement_of_keyword (same : state.token.kind = kind.keyword) :
    statement source supply schema state =
      (declaration source supply kind >>= register source schema) state := by
  rw [statement, look_bind, same]
  cases kind <;> rfl

theorem extra_of_newline (same : state.token.kind = .newline) :
    extra source supply schema state =
      (advance supply >>= fun _ => statement source supply schema >>= extra source supply)
        state := by
  have step : further source supply schema state =
      (advance supply >>= fun _ => statement source supply schema >>= fun next =>
        pure (.inl next)) state := by
    rw [further, look_bind, same]
  rw [← bind_assoc, bind_run] at step ⊢
  cases taken : (advance supply >>= fun _ => statement source supply schema) state with
  | error error =>
    rw [taken] at step
    exact loop_of_error step
  | ok read =>
    rw [taken] at step
    exact loop_of_inl step

theorem extra_of_final (same : state.token.kind = .endOfFile) :
    extra source supply schema state = .ok (schema, state) := by
  refine loop_of_inr ?_
  rw [further, look_bind, same]
  rfl

/-- A declaration that has been closed is added to the schema when the token behind it is looked
at: from there on the reader and the descent read the same. -/
def Settles (source : Source) (supply : TokenSupply Diagnostic Position)
    (state : Lookahead Position) : Prop :=
  ∀ {before schema : Schema} {declaration : Declaration},
    before.declare declaration = .ok schema →
      resume source supply ⟨before, .closed declaration, some state.previous⟩ state =
        (extra source supply schema state).map Prod.fst

theorem resume_closed (settles : Settles source supply state) (before : Schema)
    (declaration : Declaration) :
    resume source supply ⟨before, .closed declaration, some state.previous⟩ state =
      ((register source before declaration >>= extra source supply) state).map Prod.fst := by
  rw [bind_run, register]
  cases declared : before.declare declaration with
  | error repetition => exact resume_of_error (Reader.feed_of_repetition declared)
  | ok schema => exact settles declared

theorem resume_keyword (outside : phase.closed? = none)
    (accepts : ∀ token, token.kind = kind.keyword →
      phase.next? source.tokenSpan token = some (.keyword kind))
    (same : state.token.kind = kind.keyword)
    (settles : ∀ later, size supply later ≤ size supply state → Settles source supply later) :
    resume source supply ⟨before, phase, some state.previous⟩ state =
      ((statement source supply before >>= extra source supply) state).map Prod.fst := by
  have whole : (statement source supply before >>= extra source supply) state =
      (declaration source supply kind >>= fun declaration =>
        register source before declaration >>= extra source supply) state := by
    rw [← bind_assoc, bind_run, bind_run, statement_of_keyword same]
  rw [(Leads.declaration outside accepts before state same).1, whole, bind_run]
  cases read : declaration source supply kind state with
  | error error => rfl
  | ok pair =>
    have used := Uses.declaration pair.1 pair.2 read
    exact resume_closed (settles pair.2 used) before pair.1

theorem resume_between
    (settles : ∀ later, size supply later ≤ size supply state → Settles source supply later) :
    resume source supply ⟨before, .between, some state.previous⟩ state =
      ((statement source supply before >>= extra source supply) state).map Prod.fst := by
  have opens : ∀ kind : DeclarationKind, state.token.kind = kind.keyword →
      resume source supply ⟨before, .between, some state.previous⟩ state =
        ((statement source supply before >>= extra source supply) state).map Prod.fst :=
    fun kind same => resume_keyword rfl (fun token same => (next?_of_keyword same).2) same settles
  cases found : state.token.kind with
  | message => exact opens .message found
  | service => exact opens .service found
  | _ =>
    have refused : resume source supply ⟨before, .between, some state.previous⟩ state =
        (unexpected source "\"message\" or \"service\"" state).map Prod.fst := by
      refine (resume_of_error (Reader.feed_of_refused rfl ?_)).trans ?_
      · rw [Phase.next?, found]
      · rw [Reader.refused, fault_of_full rfl]
        rfl
    rw [refused, bind_run, statement, look_bind, found]
    rfl

theorem resume_newline {reader : Reader} (same : state.token.kind = .newline)
    (fed : reader.feed source state.token = .ok ⟨schema, .between, some state.token⟩)
    (settles : ∀ later, size supply later < size supply state → Settles source supply later) :
    resume source supply reader state = (extra source supply schema state).map Prod.fst := by
  have goesOn : state.token.kind ≠ .endOfFile := by simp [same]
  rw [resume_of_ok fed goesOn, extra_of_newline same, bind_run]
  cases taken : advance supply state with
  | error error => rfl
  | ok pair =>
    obtain ⟨value, later⟩ := pair
    have used := Uses.advance goesOn value later taken
    obtain ⟨token, rest, _, rfl⟩ := exists_of_advance taken
    exact resume_between fun last fewer => settles last (Nat.lt_of_le_of_lt fewer used)

theorem settles (state : Lookahead Position) : Settles source supply state := by
  -- Behind a line feed there are fewer tokens left, and so there are behind the declaration.
  induction bound : size supply state using Nat.strongRecOn generalizing state with
  | ind count inductionHypothesis =>
    intro before schema declaration declared
    have settled : Reader.settle ⟨before, .closed declaration, some state.previous⟩ = .ok schema :=
      declared
    cases found : state.token.kind with
    | endOfFile =>
      have fed : Reader.feed source ⟨before, .closed declaration, some state.previous⟩
          state.token = .ok ⟨schema, .finished, some state.token⟩ :=
        Reader.feed_of_settle settled (by rw [Phase.next?, found])
      rw [resume_of_final fed found, extra_of_final found]
      rfl
    | newline =>
      refine resume_newline found
        (Reader.feed_of_settle settled (by rw [Phase.next?, found])) fun later fewer => ?_
      exact inductionHypothesis _ (bound ▸ fewer) later rfl
    | _ =>
      have failed : further source supply schema state = unexpected source "\"\\n\"" state := by
        rw [further, look_bind, found]
      rw [resume_of_error (Reader.feed_of_refused settled (by rw [Phase.next?, found])), extra,
        loop_of_error (failed.trans rfl), Reader.refused, fault_of_full rfl]
      rfl

/-- From the first token on, the descent reads what the reader reads. -/
theorem resume_start (token : Token) (rest : Position) :
    resume source supply .start ⟨token, token, rest⟩ =
      (code source supply ⟨token, token, rest⟩).map Prod.fst := by
  have opens : ∀ kind : DeclarationKind, token.kind = kind.keyword →
      resume source supply .start ⟨token, token, rest⟩ =
        ((statement source supply .empty >>= extra source supply) ⟨token, token, rest⟩).map
          Prod.fst := by
    intro kind same
    rw [← resume_keyword rfl (fun token same => (next?_of_keyword same).1) same
      fun later _ => settles later]
    refine resume_congr ?_
    rw [Reader.feed_of_settle rfl (next?_of_keyword same).1,
      Reader.feed_of_settle rfl (next?_of_keyword same).1]
    rfl
  rw [code, look_bind]
  cases found : token.kind with
  | endOfFile =>
    have fed : Reader.start.feed source token = .ok ⟨.empty, .finished, some token⟩ :=
      Reader.feed_of_settle rfl (by rw [Reader.start, Phase.next?, found])
    exact (resume_of_final fed found).trans rfl
  | message => exact opens .message found
  | service => exact opens .service found
  | newline =>
    refine resume_newline found (Reader.feed_of_settle rfl ?_) fun later _ => settles later
    rw [Reader.start, Phase.next?, found]
  | _ =>
    refine (resume_of_error (Reader.feed_of_refused rfl ?_)).trans ?_
    · rw [Reader.start, Phase.next?, found]
    · rw [Reader.refused, fault_of_full rfl]
      rfl

theorem further_ends {ended : Schema} {later : Lookahead Position}
    (done : further source supply schema state = .ok (.inr ended, later)) :
    later.token.kind = .endOfFile := by
  rw [further, look_bind] at done
  cases found : state.token.kind with
  | endOfFile =>
    rw [found] at done
    cases done
    exact found
  | newline =>
    rw [found] at done
    obtain ⟨_, _, _, rest⟩ := bind_eq_ok_iff.mp done
    obtain ⟨_, _, _, last⟩ := bind_eq_ok_iff.mp rest
    exact nomatch last
  | _ =>
    rw [found] at done
    exact nomatch done

theorem extra_ends {ended : Schema} {later : Lookahead Position}
    (done : extra source supply schema state = .ok (ended, later)) :
    later.token.kind = .endOfFile := by
  obtain ⟨_, _, last⟩ := exists_step_of_loop done
  exact further_ends last

/-- Where the declarations of a file have been read, the end of the file is looked at. -/
theorem code_ends {later : Lookahead Position}
    (done : code source supply state = .ok (schema, later)) : later.token.kind = .endOfFile := by
  rw [code, look_bind] at done
  cases found : state.token.kind with
  | endOfFile =>
    rw [found] at done
    cases done
    exact found
  | message =>
    rw [found] at done
    obtain ⟨_, _, _, rest⟩ := bind_eq_ok_iff.mp done
    exact extra_ends rest
  | service =>
    rw [found] at done
    obtain ⟨_, _, _, rest⟩ := bind_eq_ok_iff.mp done
    exact extra_ends rest
  | newline =>
    rw [found] at done
    exact extra_ends done
  | _ =>
    rw [found] at done
    exact nomatch done

/-- What stands behind the declarations of a file is not refused any more. -/
theorem parse_of_ok {position rest : Position} {token : Token}
    (handed : supply.next position = .ok (token, rest)) :
    parse source supply position = (code source supply ⟨token, token, rest⟩).map Prod.fst := by
  rw [parse, handed]
  dsimp only
  cases read : code source supply ⟨token, token, rest⟩ with
  | error error => rfl
  | ok pair => exact if_pos (code_ends read)

/-- Reading by descent is reading with phases, whatever hands the tokens out. -/
theorem parse_eq_run (position : Position) :
    parse source supply position = Reader.start.run source supply position := by
  cases handed : supply.next position with
  | error diagnostic =>
    rw [parse, handed, run_of_error handed]
  | ok pair =>
    obtain ⟨token, rest⟩ := pair
    rw [parse_of_ok handed, run_of_ok handed, resume_start]

end File

end Descent

end Idl
