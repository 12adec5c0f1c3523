/-
This file changes schemas. A declaration is added under its own name unless that
name is taken in its namespace, and then it is handed back. Later changes reach a
declaration by its key: appending to it or renaming it neither moves it nor frees
the key. A method that is appended to a service stays without an owner.
-/

import Idl.Schema.Basic

namespace Idl.Schema

/-! ### Adding declarations -/

/-- The schema with a message added last, or the message itself if its name is taken. -/
def insertMessage (schema : Schema) (message : Message) : Except Message Schema :=
  if fresh : schema.messages.contains message.name = false then
    .ok { schema with messages := schema.messages.insert message.name message fresh }
  else .error message

/-- The schema with a service added last, or the service itself if its name is taken. -/
def insertService (schema : Schema) (service : Service) : Except Service Schema :=
  if fresh : schema.services.contains service.name = false then
    .ok { schema with services := schema.services.insert service.name service fresh }
  else .error service

/-! ### Changing declarations -/

/-- The schema with a member appended to the message under a key. -/
def appendMember (schema : Schema) (key : String) (member : Member) : Schema :=
  { schema with
    messages := schema.messages.modify key fun message =>
      { message with members := message.members ++ [member] } }

/-- The schema with a method appended to the service under a key. -/
def appendMethod (schema : Schema) (key : String) (method : Method) : Schema :=
  { schema with
    services := schema.services.modify key fun service =>
      { service with methods := service.methods ++ [method] } }

/-- The schema with another name for the message under a key, which stays its key. -/
def renameMessage (schema : Schema) (key name : String) : Schema :=
  { schema with
    messages := schema.messages.modify key fun message => { message with name := name } }

/-- The schema with another name for the service under a key, which stays its key. -/
def renameService (schema : Schema) (key name : String) : Schema :=
  { schema with
    services := schema.services.modify key fun service => { service with name := name } }

end Idl.Schema

namespace Idl

/-! ### Methods that take nothing -/

/-- The method with an empty request list if `void` is all that it takes. -/
def Method.clearVoid (method : Method) : Method :=
  match method.requests with
  | [type] => if type.isVoid then { method with requests := [] } else method
  | _ => method

/-- The service with the request lists of its methods emptied where `void` is all they hold. -/
def Service.clearVoid (service : Service) : Service :=
  { service with methods := service.methods.map Method.clearVoid }

/-- The schema with each request list emptied where `void` is all that it holds. -/
def Schema.clearVoid (schema : Schema) : Schema :=
  { schema with services := schema.services.map Service.clearVoid }

end Idl
