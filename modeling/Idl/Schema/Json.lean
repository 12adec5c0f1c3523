/-
This file writes a schema as JSON. Messages and services are records keyed by the
names under which they are declared, in order of declaration; a type shows its kind
beside its name, and a method names its owner. Positions are left out, so schemas
that differ only in where things stand have the same text.
-/

import Idl.Json
import Idl.Schema.Basic

namespace Idl

/-- The word for a kind of type. -/
def TypeKind.text : TypeKind → String
  | .scalar => "Scalar"
  | .stream => "Stream"
  | .messageReference => "MessageRef"

/-- A type as a record of its kind and its name. -/
def TypeReference.json (type : TypeReference) : Json :=
  .object [("kind", .text type.kind.text), ("name", .text type.name)]

/-- A member as a record. -/
def Member.json (member : Member) : Json :=
  .object [("type", member.type.json), ("name", .text member.name)]

/-- A message as a record. -/
def Message.json (message : Message) : Json :=
  .object [("name", .text message.name), ("members", .array (message.members.map Member.json))]

/-- A method as a record. -/
def Method.json (method : Method) : Json :=
  .object [
    ("name", .text method.name),
    ("request_types", .array (method.requests.map TypeReference.json)),
    ("response_type", method.response.json),
    ("service", .text method.owner)]

/-- A service as a record. -/
def Service.json (service : Service) : Json :=
  .object [("name", .text service.name), ("methods", .array (service.methods.map Method.json))]

/-- A table as a record with a field for each key. -/
def SymbolTable.json {Value : Type} (write : Value → Json) (table : SymbolTable Value) : Json :=
  .object (table.entries.map fun entry => (entry.1, write entry.2))

namespace Schema

/-- A schema as a record of its messages and its services. -/
def json (schema : Schema) : Json :=
  .object [
    ("messages", schema.messages.json Message.json),
    ("services", schema.services.json Service.json)]

/-- The text of a schema that other programs read. -/
def dump (schema : Schema) : String := schema.json.pretty

end Schema

end Idl
