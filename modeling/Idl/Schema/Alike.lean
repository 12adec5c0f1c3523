/-
This file says when two schemas declare the same things. Where something was
written is not part of what it is, so positions are erased before anything is
compared, and comments and blank lines cannot change a schema. The order of members,
methods and parameters counts; the order of declarations does not, because a key is
found by its name.
-/

import Idl.Schema.Basic

namespace Idl

/-! ### Erasing positions -/

/-- The type without its position. -/
def TypeReference.unplaced (type : TypeReference) : TypeReference :=
  { type with span := .nowhere }

/-- The member without positions. -/
def Member.unplaced (member : Member) : Member :=
  { member with type := member.type.unplaced, span := .nowhere }

/-- The message without positions. -/
def Message.unplaced (message : Message) : Message :=
  { message with members := message.members.map Member.unplaced, span := .nowhere }

/-- The method without positions. -/
def Method.unplaced (method : Method) : Method :=
  { method with
    requests := method.requests.map TypeReference.unplaced
    response := method.response.unplaced
    span := .nowhere }

/-- The service without positions. -/
def Service.unplaced (service : Service) : Service :=
  { service with methods := service.methods.map Method.unplaced, span := .nowhere }

/-! ### Comparing what is left -/

/-- Two messages are the same up to positions. -/
def Message.alike (first second : Message) : Bool := first.unplaced == second.unplaced

/-- Two services are the same up to positions. -/
def Service.alike (first second : Service) : Bool := first.unplaced == second.unplaced

/-- Two schemas declare the same things, in whatever order and wherever they stand. -/
def Schema.alike (first second : Schema) : Bool :=
  first.messages.alikeBy Message.alike second.messages &&
    first.services.alikeBy Service.alike second.services

end Idl
