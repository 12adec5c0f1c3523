/-
This file counts what is asked of a supply. A supply that fails when it is asked again
behind the end of the file delivers what it did before, and so does one that answers only
as many requests as there are characters and one more. Scanning and reading are made of
what is delivered, so neither can tell them from the supply of the source: no token is
asked for behind the end of the file, and the requests are as few as that.
-/

import Mathlib
import Idl.Proofs.Concatenation
import Idl.Proofs.DescentPhases

namespace Idl

/-! ### Supplies that fail -/

namespace TokenSupply

variable {Fault Position : Type}

/-- The supply that fails with an alarm when it is asked for a token behind the end of the file. It
stands nowhere from then on. -/
def sealed (supply : TokenSupply Fault Position) (alarm : Fault) :
    TokenSupply Fault (Option Position) where
  next
    | none => .error alarm
    | some position =>
      match supply.next position with
      | .error fault => .error fault
      | .ok (token, rest) => .ok (token, if token.kind = .endOfFile then none else some rest)
  remaining
    | none => 0
    | some position => supply.remaining position
  remaining_lt := by
    intro position rest token handed goesOn
    cases position with
    | none => exact nomatch handed
    | some position =>
      dsimp only at handed
      split at handed
      · exact nomatch handed
      · next same =>
        cases handed
        rw [if_neg goesOn]
        exact supply.remaining_lt same goesOn

/-- The supply that answers so many requests and fails with an alarm from then on. -/
def limited (supply : TokenSupply Fault Position) (alarm : Fault) :
    TokenSupply Fault (Position × Nat) where
  next
    | (_, 0) => .error alarm
    | (position, count + 1) =>
      match supply.next position with
      | .error fault => .error fault
      | .ok (token, rest) => .ok (token, rest, count)
  remaining place := supply.remaining place.1
  remaining_lt := by
    intro position rest token handed goesOn
    obtain ⟨position, count⟩ := position
    cases count with
    | zero => exact nomatch handed
    | succ count =>
      dsimp only at handed
      split at handed
      · exact nomatch handed
      · next same =>
        cases handed
        exact supply.remaining_lt same goesOn

variable (supply : TokenSupply Fault Position) (alarm : Fault)

/-- Nothing is delivered behind the end of the file. -/
theorem deliver_sealed (position : Position) :
    (supply.sealed alarm).deliver (some position) = supply.deliver position := by
  induction position using supply.induction with
  | @fails position fault failed =>
    have handed : (supply.sealed alarm).next (some position) = .error fault := by
      simp only [sealed, failed]
    rw [deliver_of_error failed, deliver_of_error handed]
  | @ends position rest token last final =>
    have handed : (supply.sealed alarm).next (some position) = .ok (token, none) := by
      simp only [sealed, last, if_pos final]
    rw [deliver_of_final last final, deliver_of_final handed final]
  | @goesOn position rest token more goesOn inductionHypothesis =>
    have handed : (supply.sealed alarm).next (some position) = .ok (token, some rest) := by
      simp only [sealed, more, if_neg goesOn]
    rw [deliver_of_ok more goesOn, deliver_of_ok handed goesOn, inductionHypothesis]

/-- One request more than there is left is enough for all that is delivered. -/
theorem deliver_limited (position : Position) {count : Nat}
    (enough : supply.remaining position < count) :
    (supply.limited alarm).deliver (position, count) = supply.deliver position := by
  obtain ⟨more, rfl⟩ := Nat.exists_eq_succ_of_ne_zero (Nat.ne_zero_of_lt enough)
  induction position using supply.induction generalizing more with
  | @fails position fault failed =>
    have handed : (supply.limited alarm).next (position, more + 1) = .error fault := by
      simp only [limited, failed]
    rw [deliver_of_error failed, deliver_of_error handed]
  | @ends position rest token last final =>
    have handed : (supply.limited alarm).next (position, more + 1) = .ok (token, rest, more) := by
      simp only [limited, last]
    rw [deliver_of_final last final, deliver_of_final handed final]
  | @goesOn position rest token next goesOn inductionHypothesis =>
    have handed : (supply.limited alarm).next (position, more + 1) = .ok (token, rest, more) := by
      simp only [limited, next]
    have fewer := supply.remaining_lt next goesOn
    obtain ⟨less, rfl⟩ := Nat.exists_eq_succ_of_ne_zero (show more ≠ 0 by omega)
    rw [deliver_of_ok next goesOn, deliver_of_ok handed goesOn,
      inductionHypothesis less (by omega)]

end TokenSupply

/-! ### Names that are taken -/

/-- The declaration whose line is quoted with a repetition is there to be found. -/
theorem Schema.takenLine?_of_declare {schema : Schema} {declaration : Declaration}
    {repetition : Repetition} (repeats : schema.declare declaration = .error repetition) :
    schema.takenLine? declaration = some repetition.firstLine := by
  cases declaration with
  | message declared =>
    by_cases taken : schema.messages.contains declared.name = true
    · rw [declare, dif_pos taken] at repeats
      cases repeats
      rw [takenLine?, SymbolTable.get?_eq_find taken]
      rfl
    · rw [declare, dif_neg taken] at repeats
      cases repeats
  | service declared =>
    by_cases taken : schema.services.contains declared.name = true
    · rw [declare, dif_pos taken] at repeats
      cases repeats
      rw [takenLine?, SymbolTable.get?_eq_find taken]
      rfl
    · rw [declare, dif_neg taken] at repeats
      cases repeats

/-! ### Scanning and reading -/

namespace Source

/-- Scanning and reading the source cannot tell this supply from its own. -/
structure ServedBy {Position : Type} (source : Source) (supply : TokenSupply Diagnostic Position)
    (position : Position) : Prop where
  scanned : supply.tokens position = source.tokens
  descended : Descent.parse source supply position = source.parse
  read : Reader.start.run source supply position = source.parse

theorem servedBy_of_deliver {Position : Type} {source : Source}
    {supply : TokenSupply Diagnostic Position} {position : Position}
    (same : supply.deliver position = source.supply.deliver source.start) :
    source.ServedBy supply position := by
  have read : Reader.start.run source supply position = source.parse := by
    rw [parse, Reader.run_eq, Reader.run_eq, same]
  refine ⟨?_, (Descent.parse_eq_run position).trans read, read⟩
  rw [tokens, TokenSupply.tokens, TokenSupply.tokens, same]

/-- Scanning and reading keep to what a supply promises: they ask for no token behind the end of
the file, and for no more tokens than the text has characters and one. Each turn of a loop that
goes on has used up a token: of declarations, of members, of methods, of parameters. Where the
declarations have been read, the end of the file is looked at, so that nothing is refused behind
them; and where a name is taken, the declaration that has it is found. -/
theorem reading_keeps_protocol (source : Source) :
    (∀ alarm, source.ServedBy (source.supply.sealed alarm) (some source.start)) ∧
    (∀ alarm, source.ServedBy (source.supply.limited alarm)
      (source.start, source.text.length + 1)) ∧
    (∀ state,
      (∀ schema, Descent.Advances source.supply
        (Descent.further source source.supply schema) state) ∧
      (∀ members, Descent.Advances source.supply
        (Descent.line source source.supply (Descent.member source source.supply) members)
        state) ∧
      (∀ methods, Descent.Advances source.supply
        (Descent.line source source.supply (Descent.method source source.supply) methods)
        state) ∧
      ∀ parameters, Descent.Advances source.supply
        (Descent.parameter source source.supply parameters) state) ∧
    (∀ state schema later, Descent.code source source.supply state = .ok (schema, later) →
      later.token.kind = .endOfFile) ∧
    (∀ token rest, source.supply.next source.start = .ok (token, rest) →
      source.parse = (Descent.code source source.supply ⟨token, token, rest⟩).map Prod.fst) ∧
    ∀ schema declaration repetition, Schema.declare schema declaration = .error repetition →
      schema.takenLine? declaration = some repetition.firstLine := by
  refine ⟨fun alarm => ?_, fun alarm => ?_, fun state => ?_, fun state schema later read => ?_,
    fun token rest handed => ?_, fun schema declaration repetition repeats => ?_⟩
  · exact servedBy_of_deliver (source.supply.deliver_sealed alarm source.start)
  · exact servedBy_of_deliver
      (source.supply.deliver_limited alarm source.start (Nat.lt_succ_self _))
  · exact ⟨fun _ => Descent.advances_further,
      fun _ => (Descent.Uses.line fun _ => Descent.Uses.member).advances,
      fun _ => (Descent.Uses.line fun _ => Descent.Uses.method).advances,
      fun _ => Descent.Uses.parameter.advances⟩
  · exact Descent.code_ends read
  · exact (Descent.parse_eq_run source.start).symm.trans (Descent.parse_of_ok handed)
  · exact Schema.takenLine?_of_declare repeats

/-- A message that is declared twice. -/
def repeatedNote : Source :=
  ⟨"notes.idl", "message Note \x7b\n\tText text\n\x7d\nmessage Note \x7b\n\tText text\n\x7d".toList,
    [], #[1, 2, 3, 5, 6, 7], #[]⟩

/-- What is said when more is asked than may be. -/
def tooMuchAsked : Diagnostic := .atLine "too much asked" "notes.idl" 0

/-- What is said about the second of the messages. -/
def noteRepeated : Diagnostic :=
  ⟨"repeated message \"Note\", first declared at line 1", "notes.idl", 5, some 8, some 4, none⟩

theorem repeatedNote_served :
    Descent.parse repeatedNote (repeatedNote.supply.sealed tooMuchAsked)
        (some repeatedNote.start) = .error (.semantic noteRepeated) ∧
      Descent.parse repeatedNote (repeatedNote.supply.limited tooMuchAsked)
        (repeatedNote.start, 56) = .error (.semantic noteRepeated) := by
  have parsed : repeatedNote.parse = .error (.semantic noteRepeated) := by cbv
  have count : repeatedNote.text.length + 1 = 56 := by cbv
  obtain ⟨sealed, limited, _⟩ := reading_keeps_protocol repeatedNote
  exact ⟨(sealed tooMuchAsked).descended.trans parsed,
    count ▸ (limited tooMuchAsked).descended.trans parsed⟩

end Source

end Idl
