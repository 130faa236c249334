import Flowchart.Graph.Name
import Flowchart.Json.Reader

/-!
# What can go wrong with a language model

A call to a language model can fail in three ways; the failure carries its wording. A call that went
well can still bring an answer of which nothing can be made. Only the former is something that a
user of the model is told about.
-/

set_option autoImplicit false

namespace Flowchart.Chat

/-- Why a language model gave no usable answer. -/
inductive CallFailure where
  /-- The service could not be reached or refused the request. -/
  | unavailable (message : String)
  /-- The service answered with something that is no answer to the request. -/
  | malformed (message : String)
  /-- Something else went wrong. -/
  | other (message : String)
deriving DecidableEq, Repr

/-- The wording of a failed call. -/
def CallFailure.message : CallFailure → String
  | unavailable message | malformed message | other message => message

/-- Why nothing could be made of a language model's answer. -/
inductive Failure where
  /-- The call to the model failed, or its answer was of no use. -/
  | call (failure : CallFailure)
  /-- The answer is an outline with a keyword that no step or branch has. -/
  | name (error : UnknownName)
  /-- The answer gives a score that is no number. -/
  | scoreNotANumber
  /-- The answer is a document whose containers stand too deep inside each other. -/
  | tooDeep (container : Json.Container)
deriving DecidableEq, Repr

/-- The wording of a failure. -/
def Failure.message : Failure → String
  | call failure => failure.message
  | name error => error.message
  | scoreNotANumber => "cannot convert float NaN to integer"
  | tooDeep container =>
    "maximum recursion depth exceeded while decoding a JSON " ++ container.name ++
      " from a unicode string"

/-- A text that had to be a document and is none, as a failure: of the call in the given words, or
because it is too deep. -/
def Failure.ofReadError (message : String) : Json.ReadError → Failure
  | .tooDeep container => tooDeep container
  | .malformed _ | .integerTooLong => call (.malformed message)

end Flowchart.Chat
