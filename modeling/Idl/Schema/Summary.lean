/-
This file describes a schema to a reader: each message with its size and its members,
each method with the service that owns it, and how many methods reply with a message.
-/

import Idl.Schema.Size

namespace Idl

/-- A member on a line of its own. -/
def Member.summary (member : Member) : String :=
  "    " ++ member.type.name ++ " " ++ member.name

namespace Schema

/-- A message and its size, and its members below it. -/
def messageSummary (schema : Schema) (message : Message) : List String :=
  let size := match schema.fixedSize? message with
    | none => "(variable size)"
    | some size => "(" ++ toString size ++ " bytes)"
  ("message " ++ message.name ++ " " ++ size) :: message.members.map Member.summary

/-- A method after the name of its service, and the stream that it takes. -/
def methodSummary (schema : Schema) (method : Method) : String :=
  let owner := match schema.serviceOf? method with
    | none => "?"
    | some service => service.name
  let streaming := match method.streamParameter? with
    | none => ""
    | some stream => " [streams " ++ stream.name ++ "]"
  owner ++ "." ++ method.signature ++ streaming

/-- How many methods reply with a message. -/
def replySummary (schema : Schema) : String :=
  let replies := schema.responseTypes.countP fun type => type.kind == .messageReference
  toString replies ++ " of " ++ toString schema.methods.length ++
    " methods reply with a message"

/-- The lines that describe a schema. -/
def summaryLines (schema : Schema) : List String :=
  schema.messages.values.flatMap schema.messageSummary ++
    (schema.methods.map schema.methodSummary ++ [schema.replySummary])

/-- The description of a schema. -/
def summary (schema : Schema) : String :=
  String.join (schema.summaryLines.map fun line => line ++ "\n")

end Schema

end Idl
