/-
This file defines what a schema is: messages, which are lists of typed members, and
services, which are lists of methods with the types that they take and return. A
type is known by its name, and its kind follows from the name; every declared thing
also knows where its name was written. A method knows the key of the service that
owns it, and a method that belongs to no service has an empty owner.
-/

import Idl.Builtin
import Idl.Span
import Idl.SymbolTable

namespace Idl

/-! ### Types -/

/-- A type as it is written in a file. -/
structure TypeReference where
  name : String
  span : Span
deriving DecidableEq, Repr

namespace TypeReference

/-- What the name stands for. -/
def kind (type : TypeReference) : TypeKind := Builtin.classify type.name

/-- The type is a stream. -/
def isStream (type : TypeReference) : Bool := Builtin.isStream type.name

/-- The type is `void`. -/
def isVoid (type : TypeReference) : Bool := Builtin.isVoid type.name

/-- The width of the type in bytes, if it is a scalar of a fixed width. -/
def width? (type : TypeReference) : Option Nat := Builtin.width? type.name

end TypeReference

/-! ### Messages -/

/-- A named value inside a message. -/
structure Member where
  type : TypeReference
  name : String
  span : Span
deriving DecidableEq, Repr

/-- A record that is passed to methods and returned by them. -/
structure Message where
  name : String
  members : List Member
  span : Span
deriving DecidableEq, Repr

/-- The first member of that name. -/
def Message.member? (message : Message) (name : String) : Option Member :=
  message.members.find? fun member => member.name == name

/-! ### Services -/

/-- An operation: the types that it takes and the type that it returns. -/
structure Method where
  name : String
  requests : List TypeReference
  response : TypeReference
  span : Span
  owner : String
deriving DecidableEq, Repr

namespace Method

/-- A method that belongs to no service yet. -/
def unattached (name : String) (span : Span) (response : TypeReference)
    (requests : List TypeReference) : Method :=
  ⟨name, requests, response, span, ""⟩

/-- The first stream that the method takes. -/
def streamParameter? (method : Method) : Option TypeReference :=
  method.requests.find? fun type => type.kind == .stream

/-- The method as it is declared: what it returns, its name, and what it takes. -/
def signature (method : Method) : String :=
  method.response.name ++ " " ++ method.name ++ "(" ++
    ", ".intercalate (method.requests.map TypeReference.name) ++ ")"

end Method

/-- A group of methods that are offered together. -/
structure Service where
  name : String
  methods : List Method
  span : Span
deriving DecidableEq, Repr

namespace Service

/-- The service of a complete list of methods, all of which it owns. -/
def ofMethods (name : String) (span : Span) (methods : List Method) : Service :=
  ⟨name, methods.map fun method => { method with owner := name }, span⟩

/-- The first method of that name. -/
def method? (service : Service) (name : String) : Option Method :=
  service.methods.find? fun method => method.name == name

end Service

/-! ### Schemas -/

/-- The messages and the services of one file. A message and a service may share a name. -/
structure Schema where
  messages : SymbolTable Message
  services : SymbolTable Service
deriving DecidableEq, Repr

namespace Schema

/-- The schema that declares nothing. -/
def empty : Schema := ⟨.empty, .empty⟩

instance : Inhabited Schema := ⟨empty⟩

/-- The schema declares nothing. -/
def isEmpty (schema : Schema) : Bool :=
  schema.messages.entries.isEmpty && schema.services.entries.isEmpty

/-- The message under a key. -/
def message? (schema : Schema) (key : String) : Option Message := schema.messages.get? key

/-- The service under a key. -/
def service? (schema : Schema) (key : String) : Option Service := schema.services.get? key

/-- The service that owns a method. -/
def serviceOf? (schema : Schema) (method : Method) : Option Service :=
  schema.service? method.owner

/-- The methods of all services, in order of declaration. -/
def methods (schema : Schema) : List Method := schema.services.values.flatMap Service.methods

/-- The types that the methods take. -/
def requestTypes (schema : Schema) : List TypeReference :=
  schema.methods.flatMap Method.requests

/-- The types that the methods return. -/
def responseTypes (schema : Schema) : List TypeReference := schema.methods.map Method.response

end Schema

end Idl
