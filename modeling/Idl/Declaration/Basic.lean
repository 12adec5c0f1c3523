/-
This file adds declarations to a schema as a file makes them. A name may be declared
once as a message and once as a service; a declaration that repeats one is refused
together with the line of the declaration that has the name, which is always there to
be found.
-/

import Idl.Schema.Edit
import Idl.Text.Quoted

namespace Idl

/-- The two kinds of declaration. -/
inductive DeclarationKind where
  | message
  | service
deriving DecidableEq, Repr

namespace DeclarationKind

/-- The word that opens a declaration of this kind. -/
def word : DeclarationKind → String
  | .message => "message"
  | .service => "service"

/-- What a declaration of this kind is made of. -/
def entry : DeclarationKind → String
  | .message => "member"
  | .service => "method"

end DeclarationKind

/-- A declaration as it is read from a file. -/
inductive Declaration where
  | message (declared : Message)
  | service (declared : Service)
deriving DecidableEq, Repr

namespace Declaration

/-- Which kind of declaration it is. -/
def kind : Declaration → DeclarationKind
  | .message _ => .message
  | .service _ => .service

/-- The declared name. -/
def name : Declaration → String
  | .message declared => declared.name
  | .service declared => declared.name

/-- Where the name stands. -/
def span : Declaration → Span
  | .message declared => declared.span
  | .service declared => declared.span

end Declaration

/-- A declaration whose name is taken, and the line of the declaration that has it. -/
structure Repetition where
  kind : DeclarationKind
  name : String
  span : Span
  firstLine : UInt32
deriving DecidableEq, Repr

/-- What is said about a repeated declaration. -/
def Repetition.message (repetition : Repetition) : String :=
  "repeated " ++ repetition.kind.word ++ " " ++ Text.quote repetition.name ++
    ", first declared at line " ++ toString repetition.firstLine.toNat

/-- The schema with one more declaration, or the repetition that the declaration is. -/
def Schema.declare (schema : Schema) (declaration : Declaration) : Except Repetition Schema :=
  match declaration with
  | .message message =>
    if taken : schema.messages.contains message.name = true then
      .error ⟨.message, message.name, message.span,
        (schema.messages.find message.name taken).span.line⟩
    else
      .ok { schema with
        messages := schema.messages.insert message.name message (Bool.eq_false_iff.mpr taken) }
  | .service service =>
    if taken : schema.services.contains service.name = true then
      .error ⟨.service, service.name, service.span,
        (schema.services.find service.name taken).span.line⟩
    else
      .ok { schema with
        services := schema.services.insert service.name service (Bool.eq_false_iff.mpr taken) }

end Idl
