import Flowchart.Chat.Failure
import Flowchart.Chat.Message

/-!
# Asking a language model

A question to a language model together with what is to be made of the answer. The question is fixed
before the answer is known, and it is asked once.
-/

set_option autoImplicit false

namespace Flowchart.Chat

/-- A question: some messages, and a temperature if the question needs its own. -/
structure Request where
  messages : List Message
  temperature : Option Json := none

/-- A question and what is to be made of the answer. -/
structure Exchange (α : Type) where
  request : Request
  receive : String → Except Failure α

namespace Exchange

/-- What an exchange comes to when the model does what it does. -/
def settle {α : Type} (x : Exchange α) (reply : Except CallFailure String) : Except Failure α :=
  match reply with
  | .ok text => x.receive text
  | .error failure => .error (.call failure)

/-- Asks a model. -/
def ask {α : Type} (x : Exchange α) (model : Request → Except CallFailure String) :
    Except Failure α :=
  x.settle (model x.request)

end Exchange

end Flowchart.Chat
