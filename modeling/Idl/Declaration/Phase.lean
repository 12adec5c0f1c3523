/-
This file says which tokens may follow each other. A file is a sequence of
declarations with one line feed between each two; the body of a declaration opens a
line of its own and has one entry to a line, at least one. The phase is what has been
read of the declaration under way, and each token either leads to the next phase or is
refused. Every phase can be completed, so the first token that is refused is the first
that is wrong.
-/

import Idl.Declaration.Basic
import Idl.Token.Basic

namespace Idl

/-! ### Phases -/

/-- The start of a declaration: its kind, its name and the place of the name. -/
structure Heading where
  kind : DeclarationKind
  name : String
  span : Span
deriving DecidableEq, Repr

/-- The start of a method: what it returns, its name and the place of the name. -/
structure MethodHeading where
  response : TypeReference
  name : String
  span : Span
deriving DecidableEq, Repr

/-- What has been read of the declaration under way. Lists hold the latest entry first. -/
inductive Phase where
  /-- Nothing has been read. -/
  | fresh
  /-- A line feed outside declarations. -/
  | between
  /-- The word that opens a declaration. -/
  | keyword (kind : DeclarationKind)
  /-- The name of the declaration. -/
  | named (heading : Heading)
  /-- The brace that opens the body. -/
  | opened (heading : Heading)
  /-- The line feed before a member, or before the end of the body. -/
  | memberLine (heading : Heading) (members : List Member)
  /-- The type of a member. -/
  | memberTyped (heading : Heading) (members : List Member) (type : TypeReference)
  /-- The name of a member, the first in the list. -/
  | memberNamed (heading : Heading) (members : List Member)
  /-- The line feed before a method, or before the end of the body. -/
  | methodLine (heading : Heading) (methods : List Method)
  /-- The type that a method returns. -/
  | methodTyped (heading : Heading) (methods : List Method) (response : TypeReference)
  /-- The name of a method. -/
  | methodNamed (heading : Heading) (methods : List Method) (method : MethodHeading)
  /-- The parenthesis that opens a list of parameters. -/
  | listOpened (heading : Heading) (methods : List Method) (method : MethodHeading)
  /-- A parameter, the first in the list. -/
  | parameter (heading : Heading) (methods : List Method) (method : MethodHeading)
    (parameters : List TypeReference)
  /-- A comma between parameters. -/
  | comma (heading : Heading) (methods : List Method) (method : MethodHeading)
    (parameters : List TypeReference)
  /-- The parenthesis that closes the parameters of a method, the first in the list. -/
  | listClosed (heading : Heading) (methods : List Method)
  /-- The brace that closes the body. -/
  | closed (declaration : Declaration)
  /-- The end of the file. -/
  | finished
deriving DecidableEq, Repr

namespace Phase

/-- The phase after the line feed that opens a body. -/
def body (heading : Heading) : Phase :=
  match heading.kind with
  | .message => .memberLine heading []
  | .service => .methodLine heading []

/-- The method that has been read to its end. -/
def method (heading : MethodHeading) (parameters : List TypeReference) : Method :=
  .unattached heading.name heading.span heading.response parameters.reverse

/-- The phase that a token leads to, or nothing if it is refused. -/
def next? (place : Token → Span) (phase : Phase) (token : Token) : Option Phase :=
  match phase with
  | .fresh =>
    match token.kind with
    | .endOfFile => some .finished
    | .newline => some .between
    | .message => some (.keyword .message)
    | .service => some (.keyword .service)
    | _ => none
  | .between =>
    match token.kind with
    | .message => some (.keyword .message)
    | .service => some (.keyword .service)
    | _ => none
  | .keyword kind =>
    match token.kind with
    | .identifier => some (.named ⟨kind, token.text, place token⟩)
    | _ => none
  | .named heading =>
    match token.kind with
    | .leftBrace => some (.opened heading)
    | _ => none
  | .opened heading =>
    match token.kind with
    | .newline => some (body heading)
    | _ => none
  | .memberLine heading members =>
    match token.kind with
    | .identifier => some (.memberTyped heading members ⟨token.text, place token⟩)
    | .rightBrace =>
      if members.isEmpty then none
      else some (.closed (.message ⟨heading.name, members.reverse, heading.span⟩))
    | _ => none
  | .memberTyped heading members type =>
    match token.kind with
    | .identifier => some (.memberNamed heading (⟨type, token.text, place token⟩ :: members))
    | _ => none
  | .memberNamed heading members =>
    match token.kind with
    | .newline => some (.memberLine heading members)
    | _ => none
  | .methodLine heading methods =>
    match token.kind with
    | .identifier => some (.methodTyped heading methods ⟨token.text, place token⟩)
    | .rightBrace =>
      if methods.isEmpty then none
      else some (.closed (.service (.ofMethods heading.name heading.span methods.reverse)))
    | _ => none
  | .methodTyped heading methods response =>
    match token.kind with
    | .identifier => some (.methodNamed heading methods ⟨response, token.text, place token⟩)
    | _ => none
  | .methodNamed heading methods method =>
    match token.kind with
    | .leftParenthesis => some (.listOpened heading methods method)
    | _ => none
  | .listOpened heading methods method =>
    match token.kind with
    | .identifier => some (.parameter heading methods method [⟨token.text, place token⟩])
    | .rightParenthesis => some (.listClosed heading (Phase.method method [] :: methods))
    | _ => none
  | .parameter heading methods method parameters =>
    match token.kind with
    | .comma => some (.comma heading methods method parameters)
    | .rightParenthesis =>
      some (.listClosed heading (Phase.method method parameters :: methods))
    | _ => none
  | .comma heading methods method parameters =>
    match token.kind with
    | .identifier =>
      some (.parameter heading methods method (⟨token.text, place token⟩ :: parameters))
    | _ => none
  | .listClosed heading methods =>
    match token.kind with
    | .newline => some (.methodLine heading methods)
    | _ => none
  | .closed _ =>
    match token.kind with
    | .endOfFile => some .finished
    | .newline => some .between
    | _ => none
  | .finished => none

/-! ### What is said about a token that is refused -/

/-- What may follow, in words. -/
def expected : Phase → String
  | .fresh => "\"message\" or \"service\""
  | .between => "\"message\" or \"service\""
  | .keyword .message => "a message name"
  | .keyword .service => "a service name"
  | .named _ => "\"\x7b\""
  | .opened _ => "\"\\n\""
  | .memberLine _ _ => "a member type or \"\x7d\""
  | .memberTyped _ _ _ => "a member name"
  | .memberNamed _ _ => "\"\\n\""
  | .methodLine _ _ => "a return type or \"\x7d\""
  | .methodTyped _ _ _ => "a method name"
  | .methodNamed _ _ _ => "\"(\""
  | .listOpened _ _ _ => "a type or \")\""
  | .parameter _ _ _ _ => "\",\" or \")\""
  | .comma _ _ _ _ => "a parameter type"
  | .listClosed _ _ => "\"\\n\""
  | .closed _ => "\"\\n\""
  | .finished => "end of file"

/-- The heading of the body that is still empty, if that is where the phase stands. -/
def emptyBody? : Phase → Option Heading
  | .opened heading => some heading
  | .memberLine heading [] => some heading
  | .methodLine heading [] => some heading
  | _ => none

end Phase

/-- Why a token is refused. -/
inductive SyntaxFault where
  /-- A body is closed before it has an entry. -/
  | emptyBody (heading : Heading)
  /-- Something else may follow what has been read. -/
  | unexpected (expected : String) (previous : Option Token) (found : Token)
deriving DecidableEq, Repr

namespace SyntaxFault

/-- What is said about a token that is refused. -/
def message : SyntaxFault → String
  | .emptyBody heading =>
    heading.kind.word ++ " " ++ Text.quote heading.name ++ " must declare at least one " ++
      heading.kind.entry
  | .unexpected expected none found => "expected " ++ expected ++ ", but got " ++ found.describe
  | .unexpected expected (some previous) found =>
    "expected " ++ expected ++ " after " ++ previous.describe ++ ", but got " ++ found.describe

end SyntaxFault

/-- Why a phase refuses a token, given the token before it. -/
def Phase.fault (phase : Phase) (previous : Option Token) (found : Token) : SyntaxFault :=
  match phase.emptyBody?, found.kind with
  | some heading, .rightBrace => .emptyBody heading
  | _, _ => .unexpected phase.expected previous found

end Idl
