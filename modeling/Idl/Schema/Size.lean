/-
This file measures messages. A message has a fixed size if all its members have one:
a scalar its width, and a member that is a message the size of that message. The
measuring goes down from message to message, at most as deep as there are messages,
which is deep enough unless a message contains itself. Where it would have to go deeper,
or where a sum is too large for a word of the machine, measuring fails; that is another
matter than finding that a message has no fixed size.
-/

import Idl.Schema.Basic

namespace Idl.Schema

/-- Two sizes together. Adding them fails if a word of the machine cannot hold the sum. -/
def addSizes (first second : Nat) : OptionT Option Nat :=
  .mk (if first + second < UInt64.size then some (some (first + second)) else none)

/-- The size of a message in bytes, if it has a fixed one, found without going deeper than a
bound. Measuring stops at the first member that has no fixed size. -/
def measureWithin (schema : Schema) : Nat → Message → OptionT Option Nat
  | 0, _ => .mk none
  | depth + 1, message =>
    message.members.foldlM (fun total member =>
      (match member.type.kind with
        | .scalar => .mk (some member.type.width?)
        | .stream => failure
        | .messageReference =>
          .mk (some (schema.message? member.type.name)) >>= schema.measureWithin depth) >>=
      addSizes total) 0

/-- The size of a message in bytes, if it has a fixed one. -/
def fixedSize? (schema : Schema) (message : Message) : Option Nat :=
  (schema.measureWithin (schema.messages.size + 1) message).run.join

end Idl.Schema
