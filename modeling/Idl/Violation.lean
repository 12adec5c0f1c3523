/-
This file finds what is wrong with what a schema says. Within a message no member name
is repeated, and a member is neither a stream nor `void`; within a service no method
name is repeated; `void` is never one of several parameters, and a method takes one
stream at most; and every type that is not built in refers to a message. All findings
are listed in the order in which a reader of the file meets them, messages before
services. A schema is only ever asked which keys its messages have, so a message may
refer to one that is declared later, or to itself.
-/

import Idl.Schema.Basic
import Idl.Source

namespace Idl

/-! ### Rules and their violations -/

/-- The rules that a schema keeps. -/
inductive Rule where
  | duplicateMember
  | duplicateMethod
  | undefinedType
  | misplacedVoid
  | multipleStreams
  | streamMember
deriving DecidableEq, Repr

/-- The short name of a rule. -/
def Rule.code : Rule → String
  | .duplicateMember => "duplicate_member"
  | .duplicateMethod => "duplicate_method"
  | .undefinedType => "undefined_type"
  | .misplacedVoid => "misplaced_void"
  | .multipleStreams => "multiple_streams"
  | .streamMember => "stream_member"

/-- A violation of a rule, with its report. -/
structure Violation where
  rule : Rule
  diagnostic : Diagnostic
deriving DecidableEq, Repr

/-! ### Findings -/

/-- The part of a schema that uses a type. -/
inductive Context where
  | message (name : String)
  | method (service name : String)
deriving DecidableEq, Repr

/-- The part of a schema in words. -/
def Context.text : Context → String
  | .message name => "in message " ++ Text.quote name
  | .method service name => "in method " ++ service ++ "." ++ name

/-- What is wrong with a part of a schema. -/
inductive Problem where
  | repeatedMember (member message : String)
  | repeatedMethod (method service : String)
  | undefinedType (type : String) (context : Context)
  | voidMember (member message : String)
  | voidParameter (service method : String)
  | secondStream (service method : String)
  | streamMember (type member message : String)
deriving DecidableEq, Repr

namespace Problem

/-- The rule that is broken. -/
def rule : Problem → Rule
  | .repeatedMember _ _ => .duplicateMember
  | .repeatedMethod _ _ => .duplicateMethod
  | .undefinedType _ _ => .undefinedType
  | .voidMember _ _ => .misplacedVoid
  | .voidParameter _ _ => .misplacedVoid
  | .secondStream _ _ => .multipleStreams
  | .streamMember _ _ _ => .streamMember

/-- The problem in words. -/
def message : Problem → String
  | .repeatedMember member message =>
    "repeated member " ++ Text.quote member ++ " in message " ++ Text.quote message
  | .repeatedMethod method service =>
    "repeated method " ++ Text.quote method ++ " in service " ++ Text.quote service
  | .undefinedType type context => "undefined type " ++ Text.quote type ++ " " ++ context.text
  | .voidMember member message =>
    "\"void\" cannot be the type of member " ++ Text.quote member ++ " in message " ++
      Text.quote message
  | .voidParameter service method =>
    "\"void\" must be the only parameter " ++ (Context.method service method).text
  | .secondStream service method =>
    "at most one stream parameter is allowed " ++ (Context.method service method).text
  | .streamMember type member message =>
    Text.quote type ++ " cannot be the type of member " ++ Text.quote member ++ " in message " ++
      Text.quote message

end Problem

/-- A problem and the place of the word at fault. -/
structure Finding where
  problem : Problem
  span : Span
deriving DecidableEq, Repr

namespace Finding

/-- The report of a finding in the file that the schema was read from. -/
def diagnostic (source : Source) (finding : Finding) : Diagnostic :=
  source.diagnostic finding.problem.message finding.span

/-- The finding as the violation of a rule. -/
def violation (source : Source) (finding : Finding) : Violation :=
  ⟨finding.problem.rule, finding.diagnostic source⟩

end Finding

namespace Schema

/-! ### Types -/

/-- A type that refers to a message which is not declared. -/
def undefinedType (schema : Schema) (context : Context) (type : TypeReference) : List Finding :=
  if type.kind == .messageReference && !schema.messages.contains type.name then
    [⟨.undefinedType type.name context, type.span⟩]
  else []

/-! ### Messages -/

/-- What is wrong with the type of a member. -/
def memberTypeFindings (schema : Schema) (message : String) (member : Member) : List Finding :=
  match member.type.kind with
  | .stream => [⟨.streamMember member.type.name member.name message, member.type.span⟩]
  | .scalar =>
    if member.type.isVoid then [⟨.voidMember member.name message, member.type.span⟩] else []
  | .messageReference => schema.undefinedType (.message message) member.type

/-- What is wrong with the members of a message, given the names of the members before them. -/
def memberFindings (schema : Schema) (message : String) (earlier : List String) :
    List Member → List Finding
  | [] => []
  | member :: rest =>
    (if earlier.contains member.name then
      [⟨.repeatedMember member.name message, member.span⟩] else []) ++
    (schema.memberTypeFindings message member ++
      schema.memberFindings message (member.name :: earlier) rest)

/-- What is wrong with a message. -/
def messageFindings (schema : Schema) (message : Message) : List Finding :=
  schema.memberFindings message.name [] message.members

/-! ### Services -/

/-- What is wrong with the parameters of a method. It counts whether there is only one of them,
and whether a stream came before. -/
def parameterFindings (schema : Schema) (service method : String) (sole : Bool)
    (streaming : Bool) : List TypeReference → List Finding
  | [] => []
  | type :: rest =>
    match type.kind with
    | .scalar =>
      (if type.isVoid && !sole then [⟨.voidParameter service method, type.span⟩] else []) ++
        schema.parameterFindings service method sole streaming rest
    | .stream =>
      (if streaming then [⟨.secondStream service method, type.span⟩] else []) ++
        schema.parameterFindings service method sole true rest
    | .messageReference =>
      schema.undefinedType (.method service method) type ++
        schema.parameterFindings service method sole streaming rest

/-- What is wrong with the types of a method: the one that it returns, then those it takes. -/
def methodTypeFindings (schema : Schema) (service : String) (method : Method) : List Finding :=
  schema.undefinedType (.method service method.name) method.response ++
    schema.parameterFindings service method.name (method.requests.length == 1) false
      method.requests

/-- What is wrong with the methods of a service, given the names of the methods before them. -/
def methodFindings (schema : Schema) (service : String) (earlier : List String) :
    List Method → List Finding
  | [] => []
  | method :: rest =>
    (if earlier.contains method.name then
      [⟨.repeatedMethod method.name service, method.span⟩] else []) ++
    (schema.methodTypeFindings service method ++
      schema.methodFindings service (method.name :: earlier) rest)

/-- What is wrong with a service. -/
def serviceFindings (schema : Schema) (service : Service) : List Finding :=
  schema.methodFindings service.name [] service.methods

/-! ### Schemas -/

/-- Everything that is wrong with a schema, messages first. -/
def findings (schema : Schema) : List Finding :=
  schema.messages.values.flatMap schema.messageFindings ++
    schema.services.values.flatMap schema.serviceFindings

/-- Every violation in a schema that was read from a source. -/
def violations (schema : Schema) (source : Source) : List Violation :=
  schema.findings.map (Finding.violation source)

end Schema

end Idl
