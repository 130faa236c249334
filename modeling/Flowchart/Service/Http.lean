import Flowchart.Chat.Failure
import Flowchart.Document.Checked
import Flowchart.Service.Address

/-!
# Requests and responses

The part of HTTP that the service is about: a request with a method, a path and perhaps a JSON
document, and a response with a status and a JSON document. A response to a request that cannot be
understood lists the problems of its document. Some requests cannot be sent, and some get no
response.
-/

set_option autoImplicit false

namespace Flowchart.Service

/-- Why there is no response to a request. -/
inductive Failure where
  /-- The request has no address. -/
  | address (error : AddressError)
  /-- A document to be sent, in the request or in the response, would hold a number that is not of
  finite size. -/
  | notFinite
  /-- Nothing could be made of the answer of a language model. -/
  | answer (failure : Chat.Failure)
deriving DecidableEq, Repr

/-- The wording of a failure. -/
def Failure.message : Failure → String
  | address error => error.message
  | notFinite => "Out of range float values are not JSON compliant"
  | answer failure => failure.message

/-- What a request carries. -/
inductive Payload where
  /-- Nothing. -/
  | absent
  /-- A JSON document. -/
  | document (value : Json)
  /-- A text that stops being a JSON document at a position. -/
  | malformed (position : Nat)
  /-- A text that has no characters, or a JSON document with a value that cannot be held. -/
  | unreadable

namespace Payload

/-- The largest number of containers around a value in the document of a request, unless the caller
sets another. It is below `Json.maxDepth` by the room that the service itself takes. -/
def maxDepth : Nat := 965

/-- What some characters carry. -/
def ofChars (cs : List Char) (depth : Nat := maxDepth) : Payload :=
  match Json.read cs depth with
  | .ok value => .document value
  | .error (.malformed position) => .malformed position
  | .error .integerTooLong | .error (.tooDeep _) => .unreadable

/-- What a text carries. -/
def ofText (text : String) (depth : Nat := maxDepth) : Payload :=
  if text.isEmpty then .absent
  else ((Text.heard text).map fun cs => ofChars cs depth).getD .unreadable

/-- What carries a document. Null needs nothing to carry it. -/
def ofJson : Json → Except Failure Payload
  | .null => .ok .absent
  | value => if value.isFinite then .ok (.document value) else .error .notFinite

end Payload

/-- A request. -/
structure Request where
  method : String
  path : String
  payload : Payload

/-- The request with a method, which may be written in lower case, for an address. -/
def Request.to (address method : String) (payload : Except Failure Payload) :
    Except Failure Request := do
  let path ← (pathOf address).mapError .address
  return { method := String.ofList (method.toList.map Char.toUpper), path, payload := ← payload }

/-- A response. -/
structure Response where
  status : Nat
  body : Json

namespace Response

/-- A response that all went well. -/
def ok (body : Json) : Response := ⟨200, body⟩

/-- A response that only has something to tell. -/
def detail (status : Nat) (told : Json) : Response := ⟨status, .object [("detail", told)]⟩

/-- A response that something is wrong, in words. -/
def failure (status : Nat) (message : String) : Response := detail status (.string message)

/-- A response with a line for every problem of a document. -/
def problems (found : List Document.Problem) : Response :=
  detail 422 (Json.ofStrings (found.map fun p =>
    Document.Problem.line .request { p with path := "body" :: p.path }))

/-- The response to a text that stops being a JSON document at a position. -/
def malformed (position : Nat) : Response :=
  detail 422 (Json.ofStrings
    ["body." ++ Nat.repr position ++ ": json_invalid: JSON decode error"])

/-- The response to a document with a value that cannot be held. -/
def unreadable : Response := failure 400 "There was an error parsing the body"

/-- The response to a path that leads nowhere. -/
def notFound : Response := failure 404 "Not Found"

/-- The response to a path that does not know the method. -/
def methodNotAllowed : Response := failure 405 "Method Not Allowed"

end Response

end Flowchart.Service
