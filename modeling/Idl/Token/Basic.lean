/-
This file defines tokens and where they come from. A supply hands tokens out one at
a time, and every token but the end of the file uses up some of what remains, so a
reader that asks until the end of the file has asked only finitely often. Nothing is
said about what a supply does once the end has been handed out: whoever reads from
one must stop there.
-/

import Idl.Text.Quoted

namespace Idl

/-! ### Tokens -/

/-- The kinds of token. The two words that open a declaration are kinds of their own. -/
inductive TokenKind where
  | message
  | service
  | identifier
  | leftBrace
  | rightBrace
  | leftParenthesis
  | rightParenthesis
  | comma
  | newline
  | endOfFile
deriving DecidableEq, Repr

/-- A token of the code. Its line and its column count from zero, within the lines of the code. -/
structure Token where
  kind : TokenKind
  text : String
  line : Nat
  column : Nat
deriving DecidableEq, Repr

namespace Token

/-- The number of characters of the token; the end of the file has none. -/
def length (token : Token) : Nat := token.text.length

/-- How a report speaks of the token. -/
def describe (token : Token) : String :=
  if token.kind == .endOfFile then "end of file" else Text.quote token.text

end Token

/-! ### Supplies -/

/-- What hands out tokens: a step from one position to the next, and a count of what remains. -/
structure TokenSupply (Fault Position : Type) where
  next : Position → Except Fault (Token × Position)
  remaining : Position → Nat
  remaining_lt : ∀ {position rest : Position} {token : Token},
    next position = .ok (token, rest) → token.kind ≠ .endOfFile →
      remaining rest < remaining position

namespace TokenSupply

variable {Fault Position : Type}

/-- The tokens handed out from a position on, and the fault that ended them if the end of the
file was not reached. -/
def deliver (supply : TokenSupply Fault Position) (position : Position) :
    List Token × Option Fault :=
  match _handed : supply.next position with
  | .error fault => ([], some fault)
  | .ok (token, rest) =>
    if _final : token.kind = .endOfFile then ([token], none)
    else
      let later := supply.deliver rest
      (token :: later.1, later.2)
termination_by supply.remaining position
decreasing_by exact supply.remaining_lt _handed _final

/-- All tokens from a position on, the end of the file last. -/
def tokens (supply : TokenSupply Fault Position) (position : Position) :
    Except Fault (List Token) :=
  match supply.deliver position with
  | (tokens, none) => .ok tokens
  | (_, some fault) => .error fault

end TokenSupply

end Idl
