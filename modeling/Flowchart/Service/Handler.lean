import Flowchart.Check.Battery
import Flowchart.Check.Overview
import Flowchart.Compile
import Flowchart.Document.Request
import Flowchart.Review.Ask
import Flowchart.Revision
import Flowchart.Service.Http
import Flowchart.Settings

/-!
# The service

What the service answers to each request. Most requests are answered at once; some need a language
model, and come to a question with what is to be answered once it has been settled. A failed call to
the model is told to the client. An answer of which nothing can be made is told to nobody: the
request fails as a whole.
-/

set_option autoImplicit false

namespace Flowchart.Service

/-- What handling a request comes to. -/
inductive Task where
  /-- It is done. -/
  | done (outcome : Except Failure Response)
  /-- A language model has to be asked first. -/
  | asks (exchange : Chat.Exchange Response)

/-- The response to a failed call to a language model. -/
def failedCall : Chat.CallFailure → Response
  | .unavailable message =>
    .failure 503 ("AI service unreachable: " ++ message ++
      ". Check that the model server is running.")
  | .malformed message =>
    .failure 502 ("AI service sent a malformed response: " ++ message ++ ". Try again.")
  | .other message => .failure 502 ("AI request failed: " ++ message)

/-- The response to what an exchange came to. -/
def settled : Except Chat.Failure Response → Except Failure Response
  | .ok response => .ok response
  | .error (.call failure) => .ok (failedCall failure)
  | .error failure => .error (.answer failure)

/-- What a task comes to when the model does what it does. -/
def Task.settle (t : Task) (model : Chat.Request → Except Chat.CallFailure String) :
    Except Failure Response :=
  match t with
  | .done outcome => outcome
  | .asks exchange => settled (exchange.ask model)

/-- An exchange whose outcome becomes a response. -/
def asking {α : Type} (exchange : Chat.Exchange α) (respond : α → Response) : Task :=
  .asks { request := exchange.request, receive := fun text => (exchange.receive text).map respond }

/-- The response with a revision and its report. -/
def revisionResponse (r : Revision) : Response :=
  .ok (.object (r.fields ++ [("validation", (Check.report r.graph).toJson)]))

/-- Reads an outline. -/
def readOutline (settings : Settings) (r : Document.ReadRequest) : Task :=
  let mode := Outline.resolveMode r.mode settings.mode
  .done (match Outline.read mode r.outline r.title r.description with
    | .error e => .error (.answer (.name e))
    | .ok reading => .ok (.ok (.object [
      ("graph", reading.graph.toJson),
      ("diagnostics", .array (reading.diagnostics.map Outline.Diagnostic.toJson))])))

/-- Writes the outline of a flow. -/
def writeOutline (g : Graph) : Response :=
  .ok (.object [("text", .string (Outline.write g))])

/-- Checks a flow. -/
def check (r : Document.CheckRequest) : Response :=
  .ok (.object ((Check.report r.graph r.deep).fields ++
    [("analysis", r.graph.overview.toJson)]))

/-- The response that refuses a flow that is not valid. -/
def refused (refusal : Check.Refusal) : Response :=
  .detail 422 (.object [
    ("message", .string refusal.message),
    ("issues", .array (refusal.errors.map Check.Issue.toJson))])

/-- The response with what was made from a flow. -/
def compiled (g : Graph) (o : Prompt.Options) : Response :=
  let report := Check.report g
  let made := g.compile o
  .ok (.object [
    ("status", .string (if report.isValid then "success" else "warning")),
    ("prompt", .string made.prompt),
    ("mermaid", .string made.diagram),
    ("valid_mermaid", .bool made.diagramIsSound),
    ("validation", report.toJson)])

/-- Makes the prompt and the diagram of a flow. -/
def compile (r : Document.CompileRequest) : Response :=
  if r.enforceValid then
    match Check.require r.graph with
    | .error refusal => refused refusal
    | .ok _ => compiled r.graph r.options
  else compiled r.graph r.options

/-- Has an outline written. -/
def write (settings : Settings) (r : Document.WriteRequest) : Task :=
  asking (Revision.write (Outline.resolveMode r.mode settings.mode) r.history r.wish r.current)
    revisionResponse

/-- Has a flow changed. -/
def refine (settings : Settings) (r : Document.RefineRequest) : Task :=
  asking (Revision.refine (Outline.resolveMode r.mode settings.mode) r.history r.graph r.wish)
    revisionResponse

/-- Has a flow corrected. -/
def correct (settings : Settings) (r : Document.CorrectRequest) : Task :=
  asking (Revision.correct (Outline.resolveMode r.mode settings.mode)
    settings.correctionTemperature r.graph) revisionResponse

/-- Has a prompt reviewed. -/
def review (r : Document.ReviewRequest) : Task :=
  let prompt := r.prompt.getD (r.graph.compile r.options).prompt
  asking (Review.ask r.graph prompt) fun assessment => .ok (.object [
    ("prompt", .string prompt),
    ("analysis", assessment.toJson)])

/-- Takes a flow over from the canvas. -/
def importDrawing (r : Document.ImportRequest) : Response :=
  .ok (.object [("graph", r.graph.toJson)])

/-- Draws a flow on the canvas. -/
def exportDrawing (g : Graph) : Response :=
  .ok (Canvas.draw g).toJson

/-- Refuses a document for its problems. The response quotes what the problems are about, which is
not possible when that holds a number that is not of finite size. -/
def refuseDocument (document : Json) (problems : List Document.Problem) : Except Failure Response :=
  if problems.all fun p => (p.subject? document).all Json.isFinite then .ok (.problems problems)
  else .error .notFinite

/-- Reads the document of a request and handles it, or responds with the problems of the
document. -/
def reading {α : Type} (read : Document.Reader α) (handle : α → Task) : Payload → Task
  | .absent => .done (.ok (.problems [⟨[], .missing⟩]))
  | .malformed position => .done (.ok (.malformed position))
  | .unreadable => .done (.ok .unreadable)
  | .document value =>
    match read value with
    | .accepted request => handle request
    | .rejected problems => .done (refuseDocument value problems)

/-- Handles a request that can be answered at once. -/
def atOnce {α : Type} (respond : α → Response) (request : α) : Task :=
  .done (.ok (respond request))

/-- A path, the method that it knows, and what it does. -/
structure Route where
  path : String
  method : String
  handle : Settings → Payload → Task

/-- A path with a page about the service for its users. The page itself is not described here. -/
def page (path : String) : Route := ⟨path, "GET", fun _ _ => .done (.ok (.ok .null))⟩

/-- The paths of the service. -/
def routes : List Route := [
  page "/openapi.json", page "/docs", page "/docs/oauth2-redirect", page "/redoc",
  ⟨"/health", "GET", fun _ _ => .done (.ok (.ok (.object [("status", .string "ok")])))⟩,
  ⟨"/parse", "POST", fun settings => reading Document.readRequest (readOutline settings)⟩,
  ⟨"/serialize", "POST", fun _ => reading Document.graphRequest (atOnce writeOutline)⟩,
  ⟨"/validate", "POST", fun _ => reading Document.checkRequest (atOnce check)⟩,
  ⟨"/generate", "POST", fun _ => reading Document.compileRequest (atOnce compile)⟩,
  ⟨"/ai/generate", "POST", fun settings => reading Document.writeRequest (write settings)⟩,
  ⟨"/ai/refine", "POST", fun settings => reading Document.refineRequest (refine settings)⟩,
  ⟨"/ai/optimize", "POST", fun settings => reading Document.correctRequest (correct settings)⟩,
  ⟨"/ai/analyze", "POST", fun _ => reading Document.reviewRequest review⟩,
  ⟨"/editor/import", "POST", fun _ => reading Document.importRequest (atOnce importDrawing)⟩,
  ⟨"/editor/export", "POST", fun _ => reading Document.graphRequest (atOnce exportDrawing)⟩]

/-- The route of a path. -/
def route? (path : String) : Option Route :=
  routes.find? fun route => route.path == path

/-- Handles a request. -/
def handle (settings : Settings) (r : Request) : Task :=
  match route? r.path with
  | none => .done (.ok .notFound)
  | some route =>
    if r.method = route.method then route.handle settings r.payload
    else .done (.ok .methodNotAllowed)

end Flowchart.Service
