import Flowchart.Proofs.Canvas.Steady
import Flowchart.Proofs.Outline.Regular
import Flowchart.Service.Handler

/-!
# Graphs that are passed on

The service hands out graphs as documents, and it takes graphs as documents. Whatever graph it hands
out, it takes back without a change wherever it takes graphs at all: a graph in a response has
titles, since it comes from an outline or from the canvas, and a graph with titles is read from its
own document. The rest of a request may still be at fault, but never because of the graph.
-/

set_option autoImplicit false

namespace Flowchart.Service

/-! ## Requests with a graph -/

/-- What the service makes of a request that holds a graph, at every path that takes one: it goes on
with this graph if nothing is wrong with the other fields. -/
structure Takes (settings : Settings) (g : Graph) (fields : Json.Fields) : Prop where
  written : handle settings ⟨"POST", "/serialize", .document (.object fields)⟩ =
    .done (.ok (writeOutline g))
  drawn : handle settings ⟨"POST", "/editor/export", .document (.object fields)⟩ =
    .done (.ok (exportDrawing g))
  checked : ∀ deep, Document.optional fields "deep" false Document.truth = .accepted deep →
    handle settings ⟨"POST", "/validate", .document (.object fields)⟩ =
      .done (.ok (check ⟨g, deep⟩))
  compiled : ∀ o enforced, Document.optional fields "options" {} Document.options = .accepted o →
    Document.optional fields "enforce_valid" false Document.truth = .accepted enforced →
    handle settings ⟨"POST", "/generate", .document (.object fields)⟩ =
      .done (.ok (compile ⟨g, o, enforced⟩))
  refined : ∀ wish history mode,
    Document.required fields "instruction" Document.text = .accepted wish →
    Document.historyField fields = .accepted history →
    Document.modeField fields = .accepted mode →
    handle settings ⟨"POST", "/ai/refine", .document (.object fields)⟩ =
      refine settings ⟨g, wish, history, mode⟩
  corrected : ∀ mode, Document.modeField fields = .accepted mode →
    handle settings ⟨"POST", "/ai/optimize", .document (.object fields)⟩ =
      correct settings ⟨g, mode⟩
  reviewed : ∀ prompt o, Document.optionalText fields "prompt" = .accepted prompt →
    Document.optional fields "options" {} Document.options = .accepted o →
    handle settings ⟨"POST", "/ai/analyze", .document (.object fields)⟩ = review ⟨g, prompt, o⟩

/-- A request is read by the reader of its path. -/
theorem reading_object {α : Type} {read : Document.Reader α} {handle : α → Task} {document : Json}
    {request : α} (accepted : read document = .accepted request) :
    reading read handle (.document document) = handle request := by
  simp only [reading, accepted]

/-- A graph with titles is taken from its own document at every path that takes a graph. -/
theorem takes_of_get? (settings : Settings) {g : Graph} (valid : g.HasTitles)
    {fields : Json.Fields} (holds : fields.get? "graph" = some g.toJson) :
    Takes settings g fields := by
  have graph : Document.required fields "graph" Document.graph = .accepted g := by
    rw [Document.required, holds]
    exact Document.Checked.under_eq_accepted_iff.2 (Document.graph_toJson valid)
  constructor
  · exact reading_object (by rw [Document.graphRequest, Document.object, graph])
  · exact reading_object (by rw [Document.graphRequest, Document.object, graph])
  · intro deep isDeep
    exact reading_object (by simp [Document.checkRequest, Document.object, graph, isDeep])
  · intro o enforced isOptions isEnforced
    exact reading_object
      (by simp [Document.compileRequest, Document.object, graph, isOptions, isEnforced])
  · intro wish history mode isWish isHistory isMode
    exact reading_object
      (by simp [Document.refineRequest, Document.object, graph, isWish, isHistory, isMode])
  · intro mode isMode
    exact reading_object (by simp [Document.correctRequest, Document.object, graph, isMode])
  · intro prompt o isPrompt isOptions
    exact reading_object
      (by simp [Document.reviewRequest, Document.object, graph, isPrompt, isOptions])

/-! ## Responses with a graph -/

/-- If a response holds a graph, this is the document of a graph with titles. -/
def Response.Titled (r : Response) : Prop :=
  ∀ document, r.body.part? "graph" = some document →
    ∃ g : Graph, document = g.toJson ∧ g.HasTitles

/-- Whatever a model does, the graph in the response has titles. -/
def Task.Titled (t : Task) : Prop :=
  ∀ model response, t.settle model = .ok response → response.Titled

/-- Nothing is asked of a response without a graph. -/
theorem titled_of_part?_eq_none {r : Response} (none : r.body.part? "graph" = none) : r.Titled := by
  intro document holds
  rw [none] at holds
  cases holds

/-- A response may hold the document of a graph with titles. -/
theorem titled_of_part?_eq_some {r : Response} {g : Graph} (valid : g.HasTitles)
    (holds : r.body.part? "graph" = some g.toJson) : r.Titled := by
  intro document holdsToo
  rw [holds] at holdsToo
  cases holdsToo
  exact ⟨g, rfl, valid⟩

/-- A response that only has something to tell holds no graph. -/
theorem titled_detail (status : Nat) (told : Json) : (Response.detail status told).Titled :=
  titled_of_part?_eq_none rfl

/-- A task that is done is judged by its response. -/
theorem titled_done {outcome : Except Failure Response}
    (titled : ∀ response, outcome = .ok response → response.Titled) : (Task.done outcome).Titled :=
  fun _ response settled => titled response settled

/-- So is a task that is done with a response. -/
theorem titled_response {response : Response} (titled : response.Titled) :
    (Task.done (.ok response)).Titled := by
  refine titled_done ?_
  rintro _ ⟨⟩
  exact titled

/-- A request that is answered at once is judged by the answer. -/
theorem titled_atOnce {α : Type} {respond : α → Response} {request : α}
    (titled : (respond request).Titled) : (atOnce respond request).Titled :=
  titled_response titled

/-- The responses of an exchange are those to its outcomes, and those to a call that failed. -/
theorem titled_asking {α : Type} {exchange : Chat.Exchange α} {respond : α → Response}
    (titled : ∀ text a, exchange.receive text = .ok a → (respond a).Titled) :
    (asking exchange respond).Titled := by
  have failed (failure : Chat.CallFailure) : (failedCall failure).Titled := by
    cases failure <;> exact titled_detail _ _
  intro model response isResponse
  simp only [Task.settle, asking, Chat.Exchange.ask, Chat.Exchange.settle] at isResponse
  split at isResponse
  · rename_i text _
    cases received : exchange.receive text with
    | ok a =>
      simp only [received, Except.map, settled] at isResponse
      cases isResponse
      exact titled text a received
    | error failure =>
      simp only [received, Except.map] at isResponse
      cases failure with
      | call failure =>
        cases isResponse
        exact failed failure
      | _ => cases isResponse
  · rename_i failure _
    cases isResponse
    exact failed failure

/-- The response to a document that cannot be read holds no graph. -/
theorem titled_reading {α : Type} {read : Document.Reader α} {handle : α → Task}
    (titled : ∀ request, (handle request).Titled) (p : Payload) :
    (reading read handle p).Titled := by
  unfold reading
  split
  · exact titled_response (titled_detail _ _)
  · exact titled_response (titled_detail _ _)
  · exact titled_response (titled_detail _ _)
  · split
    · exact titled _
    · refine titled_done ?_
      intro response isResponse
      unfold refuseDocument at isResponse
      split at isResponse
      · cases isResponse
        exact titled_detail _ _
      · cases isResponse

/-! ## Graphs in responses -/

/-- Outlines give the steps of their graphs titles. -/
theorem hasTitles_of_read {mode : Outline.Mode} {text : String} {title description : Option String}
    {r : Outline.Reading} (isRead : Outline.read mode text title description = .ok r) :
    r.graph.HasTitles := by
  obtain ⟨s, isScan, rfl⟩ := Outline.read_eq_ok_iff.1 isRead
  intro n mem
  exact (Outline.titles_readingOf (Outline.legible_of_scan isScan) mode title description mem).1

/-- The graph of a revision comes from an outline, whoever asked for the revision. -/
theorem titled_revision (request : Chat.Request) (mode : Outline.Mode)
    (title description : Option String) :
    (asking ⟨request, Revision.receive mode title description⟩ revisionResponse).Titled := by
  refine titled_asking ?_
  intro answer r received
  dsimp only at received
  rw [Revision.receive, Revision.ofAnswer, Revision.ofOutline] at received
  cases isRead : Outline.read mode (Fence.unwrap answer) title description with
  | ok reading =>
    rw [isRead] at received
    cases received
    exact titled_of_part?_eq_some (hasTitles_of_read isRead) rfl
  | error e =>
    rw [isRead] at received
    cases received

/-- A flow that a model writes has titles. -/
theorem titled_write (settings : Settings) (r : Document.WriteRequest) :
    (write settings r).Titled :=
  titled_revision _ _ _ _

/-- So does a flow that a model refines. -/
theorem titled_refine (settings : Settings) (r : Document.RefineRequest) :
    (refine settings r).Titled :=
  titled_revision _ _ _ _

/-- So does a flow that a model corrects. -/
theorem titled_correct (settings : Settings) (r : Document.CorrectRequest) :
    (correct settings r).Titled :=
  titled_revision _ _ _ _

/-- A flow that is read from an outline has titles. -/
theorem titled_readOutline (settings : Settings) (r : Document.ReadRequest) :
    (readOutline settings r).Titled := by
  refine titled_done ?_
  intro response isResponse
  split at isResponse
  · cases isResponse
  · rename_i reading isRead
    cases isResponse
    exact titled_of_part?_eq_some (hasTitles_of_read isRead) rfl

/-- So does a flow that comes back from the canvas. -/
theorem titled_importDrawing (r : Document.ImportRequest) : (importDrawing r).Titled := by
  refine titled_of_part?_eq_some (g := r.graph) ?_ rfl
  intro n mem
  obtain ⟨s, -, rfl⟩ := List.mem_map.1 mem
  exact Canvas.isTitle_toNode s

/-- The response with a compiled flow holds no graph. -/
theorem titled_compile (r : Document.CompileRequest) : (compile r).Titled := by
  unfold compile
  split
  · split
    · exact titled_detail _ _
    · exact titled_of_part?_eq_none rfl
  · exact titled_of_part?_eq_none rfl

/-- Nor does the response to a request for a review. -/
theorem titled_review (r : Document.ReviewRequest) : (review r).Titled := by
  refine titled_asking ?_
  intro answer a _
  exact titled_of_part?_eq_none rfl

/-- Nor does the response to a request for a check. -/
theorem titled_check (r : Document.CheckRequest) : (check r).Titled :=
  titled_of_part?_eq_none (by rfl)

/-- No path leads to a graph without titles. -/
theorem titled_route {route : Route} (mem : route ∈ routes) (settings : Settings) (p : Payload) :
    (route.handle settings p).Titled := by
  have page (path : String) : ((page path).handle settings p).Titled :=
    titled_response (titled_of_part?_eq_none rfl)
  simp only [routes, List.mem_cons, List.not_mem_nil, or_false] at mem
  rcases mem with rfl | rfl | rfl | rfl | rfl | rfl | rfl | rfl | rfl | rfl | rfl | rfl | rfl |
    rfl | rfl
  · exact page _
  · exact page _
  · exact page _
  · exact page _
  · exact titled_response (titled_of_part?_eq_none rfl)
  · exact titled_reading (titled_readOutline settings) p
  · exact titled_reading (fun _ => titled_atOnce (titled_of_part?_eq_none rfl)) p
  · exact titled_reading (fun r => titled_atOnce (titled_check r)) p
  · exact titled_reading (fun r => titled_atOnce (titled_compile r)) p
  · exact titled_reading (titled_write settings) p
  · exact titled_reading (titled_refine settings) p
  · exact titled_reading (titled_correct settings) p
  · exact titled_reading titled_review p
  · exact titled_reading (fun r => titled_atOnce (titled_importDrawing r)) p
  · exact titled_reading (fun _ => titled_atOnce (titled_of_part?_eq_none rfl)) p

/-- No request leads to a graph without titles. -/
theorem titled_handle (settings : Settings) (r : Request) : (handle settings r).Titled := by
  unfold handle
  split
  · exact titled_response (titled_detail _ _)
  · rename_i route found
    split
    · exact titled_route (List.mem_of_find?_eq_some found) settings r.payload
    · exact titled_response (titled_detail _ _)

/-! ## Passing graphs on -/

/-- A graph that the service can hand out and take back: reading its document gives it again, and so
does every path that takes a graph. -/
structure PassesOn (g : Graph) : Prop where
  back : Document.graph g.toJson = .accepted g
  taken : ∀ settings fields, Json.Fields.get? fields "graph" = some g.toJson →
    Takes settings g fields

/-- The graphs that can be passed on are those with titles. -/
theorem passesOn_iff {g : Graph} : PassesOn g ↔ g.HasTitles :=
  ⟨fun passes => Document.hasTitles_of_graph passes.back, fun valid =>
    ⟨Document.graph_toJson valid, fun settings _ holds => takes_of_get? settings valid holds⟩⟩

/-- The graphs that reading accepts are passed on, and a graph in a response, to whatever request
and with whatever model, is one of them. -/
theorem graphs_passed_on :
    (∀ g, PassesOn g ↔ ∃ document, Document.graph document = .accepted g) ∧
      ∀ settings r model response document, (handle settings r).settle model = .ok response →
        response.body.part? "graph" = some document → ∃ g, document = g.toJson ∧ PassesOn g := by
  refine ⟨fun g => passesOn_iff.trans Document.exists_graph_iff.symm, ?_⟩
  intro settings r model response document isResponse holds
  obtain ⟨g, same, valid⟩ := titled_handle settings r model response isResponse document holds
  exact ⟨g, same, passesOn_iff.2 valid⟩

/-- A flow on the canvas with a blank title, a branch that leads nowhere, and an id that is used
twice. -/
def looseRequest : Document.ImportRequest where
  drawing := {
    shapes := [
      { id := "a", kind := .decision, title := " ", condition := some "" },
      { id := "a", kind := .output, title := "Done", description := some "" }]
    links := [{ source := "a", target := "gone", handle := some "yes" }] }
  title := ""
  description := some ""

/-- The document of this flow as the canvas sends it. -/
def looseDocument : Json := .object [
  ("nodes", .array (looseRequest.drawing.shapes.map Canvas.Shape.toJson)),
  ("edges", .array (looseRequest.drawing.links.map Canvas.Link.toJson)),
  ("title", .string ""),
  ("description", .string "")]

/-- The graph in the request is accepted though it is knotted, and the one in the response is passed
on. -/
theorem graphs_passed_on_looseRequest :
    (∃ document, Document.graph document = .accepted Canvas.knottedGraph) ∧
      PassesOn Canvas.knottedGraph ∧
      (handle {} ⟨"POST", "/editor/import", .document looseDocument⟩).settle
        (fun _ => .error (.unavailable "")) = .ok (importDrawing looseRequest) ∧
      (importDrawing looseRequest).body.part? "graph" = some looseRequest.graph.toJson ∧
      ∃ g, looseRequest.graph.toJson = g.toJson ∧ PassesOn g := by
  have isRead : Document.graph Canvas.knottedGraph.toJson = .accepted Canvas.knottedGraph := by rfl
  have isResponse : (handle {} ⟨"POST", "/editor/import", .document looseDocument⟩).settle
      (fun _ => .error (.unavailable "")) = .ok (importDrawing looseRequest) := by rfl
  have holds : (importDrawing looseRequest).body.part? "graph" =
      some looseRequest.graph.toJson := by rfl
  exact ⟨⟨_, isRead⟩, (graphs_passed_on.1 _).2 ⟨_, isRead⟩, isResponse, holds,
    graphs_passed_on.2 _ _ _ _ _ isResponse holds⟩

end Flowchart.Service
