import Flowchart.Chat.Failure
import Flowchart.Chat.Message
import Flowchart.Json.Writer
import Flowchart.Text.Blank

/-!
# The service that runs a language model

What is sent to the service for a conversation, and what its response means. A conversation takes
exactly one request. The response counts as an answer when its status names no error and its body is
a JSON object that holds a message whose content is a text that is not blank.
-/

set_option autoImplicit false

namespace Flowchart.Chat

/-- A service and how it is to be used. The time limit and the sampling settings are handed on as
they are, so they are kept as JSON values. -/
structure Endpoint where
  baseUrl : String := "http://localhost:11434"
  model : String := "qwen2.5:32b"
  apiKey : Option String := none
  timeout : Json := .float 300.0
  temperature : Json := .float 0.3
  topP : Json := .float 0.9

/-- An HTTP request with a JSON body. -/
structure Post where
  url : String
  headers : List (String × String)
  body : Json
  timeout : Json

/-- What became of a request. -/
inductive Outcome where
  /-- There was no response. -/
  | failed (message : String)
  /-- There was a response. -/
  | answered (status : Nat) (body : String)
deriving DecidableEq, Repr

namespace Endpoint

/-- The address of the service without slashes at its end. -/
def root (e : Endpoint) : String :=
  String.ofList ((e.baseUrl.toList.reverse.dropWhile (· == '/')).reverse)

/-- The headers that carry the key, if there is a key. -/
def headers (e : Endpoint) : List (String × String) :=
  ((e.apiKey.filter (· != "")).map fun key => ("Authorization", "Bearer " ++ key)).toList

/-- The request for a conversation, at a temperature of its own if one is given. -/
def post (e : Endpoint) (messages : List Json) (temperature : Option Json := none) : Post where
  url := e.root ++ "/api/chat"
  headers := e.headers
  body := .object [
    ("model", .string e.model),
    ("messages", .array messages),
    ("stream", .bool false),
    ("options", .object [
      ("temperature", temperature.getD e.temperature),
      ("top_p", e.topP)])]
  timeout := e.timeout

/-- The text of the message in a document, if the document has the shape of an answer. -/
def contentIn? (document : Json) : Option String := do
  let fields ← document.fields?
  let message ← Json.Fields.get? fields "message"
  let messageFields ← message.fields?
  let content ← Json.Fields.get? messageFields "content"
  let text ← content.string?
  if Text.allBlank text then none else some text

/-- What the body of an accepted response answers, which may be as deep as the caller allows. -/
def answerIn (body : String) (depth : Nat := Json.maxDepth) : Except Failure String :=
  match Json.read body.toList depth with
  | .error e => .error (.ofReadError "Language model response is not valid JSON" e)
  | .ok document =>
    match contentIn? document with
    | some text => .ok text
    | none => .error (.call (.malformed "Language model response has no message content"))

/-- Whether a status names an error, of the client or of the service. The bound of 600 is the HTTP
client's: to it, a response is fine unless its status lies between the two bounds, so a status of
600 or more counts as accepted. -/
def isErrorStatus (status : Nat) : Bool := 400 ≤ status && status < 600

/-- What the outcome of a request answers. -/
def answer (e : Endpoint) (o : Outcome) (depth : Nat := Json.maxDepth) : Except Failure String :=
  match o with
  | .failed message => .error (.call (.unavailable
      ("Language model service unreachable at " ++ e.root ++ ": " ++ message)))
  | .answered status body =>
    if isErrorStatus status then
      .error (.call (.unavailable ("Language model service returned HTTP " ++ Nat.repr status ++
        ": " ++ String.ofList (body.toList.take 200))))
    else answerIn body depth

/-- Holds a conversation by way of `send`, which sends one request. -/
def chat {m : Type → Type} [Monad m] (e : Endpoint) (send : Post → m Outcome) (messages : List Json)
    (temperature : Option Json := none) (depth : Nat := Json.maxDepth) :
    m (Except Failure String) := do
  let outcome ← send (e.post messages temperature)
  return e.answer outcome depth

/-- The conversation that consists of one prompt. -/
def promptMessages (prompt : String) : List Json :=
  [Message.toJson ⟨.user, prompt⟩]

end Endpoint

end Flowchart.Chat
