import Flowchart.Json.Basic

/-!
# Messages to a language model

A conversation is a list of messages, each from one of three speakers.
-/

set_option autoImplicit false

namespace Flowchart.Chat

/-- Who says a message. -/
inductive Role where
  | system
  | user
  | assistant
deriving DecidableEq, Repr

/-- The name of a role in documents. -/
def Role.name : Role → String
  | system => "system"
  | user => "user"
  | assistant => "assistant"

/-- A message. -/
structure Message where
  role : Role
  content : String
deriving DecidableEq, Repr

/-- The document of a message. -/
def Message.toJson (m : Message) : Json := .object [
  ("role", .string m.role.name),
  ("content", .string m.content)]

end Flowchart.Chat
