import Flowchart.Graph.Ids
import Flowchart.Outline.Declaration

/-!
# From an outline to a graph

The second half of reading an outline: from declared steps to a graph. Every step gets a fresh id.
A branch leads to the last step with the title that it names; an input or a process leads to the
step declared after it, unless that is an output, which only branches lead to.
-/

set_option autoImplicit false

namespace Flowchart.Outline

/-- A step with its id. -/
structure Entry where
  id : String
  declaration : Declaration
deriving DecidableEq, Repr

/-- The node of a step. -/
def Entry.node (e : Entry) : Node where
  id := e.id
  kind := e.declaration.kind
  title := e.declaration.title
  description := e.declaration.label.description

/-- The id that a title stands for: that of the last step with the title. -/
def idOfTitle? (entries : List Entry) (title : String) : Option String :=
  (entries.reverse.find? fun e => e.declaration.title == title).map (·.id)

/-- A report for every step whose title a step before it has; `seen` are the titles so far. -/
def repeatedTitles (seen : List String) : List Declaration → List Diagnostic
  | [] => []
  | d :: rest =>
    if seen.contains d.title then
      ⟨.repeatedTitle d.title, d.line, d.title⟩ :: repeatedTitles seen rest
    else repeatedTitles (d.title :: seen) rest

/-- The edge of a branch, or a report if it names no step. -/
def branchLink (resolve : String → Option String) (e : Entry) (branch : Branch) (target : Target) :
    Except Diagnostic Edge :=
  match resolve target.title with
  | some id => .ok { source := e.id, target := id, branch := some branch }
  | none =>
    .error ⟨.unknownTarget e.declaration.title branch target.title, target.line, target.title⟩

/-- The edges that leave a step, with reports in place of those that lead nowhere; `rest` are the
steps after it. -/
def linksOf (resolve : String → Option String) (e : Entry) (rest : List Entry) :
    List (Except Diagnostic Edge) :=
  match e.declaration.kind with
  | .decision => Branch.all.filterMap fun branch =>
      (e.declaration.target? branch).map (branchLink resolve e branch)
  | .output => []
  | _ =>
    match rest with
    | next :: _ =>
      if next.declaration.kind = .output then [] else [.ok { source := e.id, target := next.id }]
    | [] => []

/-- The edges that leave all steps, in the order of the steps. -/
def links (resolve : String → Option String) : List Entry → List (Except Diagnostic Edge)
  | [] => []
  | e :: rest => linksOf resolve e rest ++ links resolve rest

/-- The edges among some links. -/
def edgesIn (links : List (Except Diagnostic Edge)) : List Edge :=
  links.filterMap fun
    | .ok edge => some edge
    | .error _ => none

/-- The reports among some links. -/
def reportsIn (links : List (Except Diagnostic Edge)) : List Diagnostic :=
  links.filterMap fun
    | .ok _ => none
    | .error report => some report

/-- The edge from the start to the first step. -/
def startEdges (startId : String) (nodes : List Node) : List Edge :=
  (nodes.head?.map fun first => { source := startId, target := first.id }).toList

/-- The edges from the outputs to the end. -/
def outputEdges (endId : String) (nodes : List Node) : List Edge :=
  (nodes.filter fun n => n.kind == .output).map fun n => { source := n.id, target := endId }

/-- The edge to the end from a last step that leads nowhere else. -/
def lastEdges (endId : String) (nodes : List Node) : List Edge :=
  ((nodes.getLast?.filter fun n => n.kind == .input || n.kind == .process).map fun n =>
    { source := n.id, target := endId }).toList

/-- What an outline says: a graph, and what was odd about the outline. -/
structure Reading where
  graph : Graph
  diagnostics : List Diagnostic
deriving DecidableEq, Repr

/-- The diagnostics of a group. -/
def Reading.diagnosticsOf (r : Reading) (kind : DiagnosticKind) : List Diagnostic :=
  r.diagnostics.filter fun d => d.kind == kind

/-- The nodes and edges of some steps, and what was odd about them. -/
structure Layout where
  nodes : List Node
  edges : List Edge
  diagnostics : List Diagnostic

/-- The layout of some steps, with ids from a source. -/
def layOut (source : IdSource) (declarations : List Declaration) : Layout :=
  let ids := (source.take declarations.length).1
  let entries := List.zipWith Entry.mk ids declarations
  let found := links (idOfTitle? entries) entries
  { nodes := entries.map Entry.node
    edges := edgesIn found
    diagnostics := repeatedTitles [] declarations ++ reportsIn found }

/-- Sets a start before and an end after the steps of a layout. -/
def Layout.anchored (l : Layout) (startId endId : String) : Layout where
  nodes := { id := startId, kind := .start, title := "Start" } :: l.nodes ++
    [{ id := endId, kind := .finish, title := "End" }]
  edges := startEdges startId l.nodes ++ l.edges ++ outputEdges endId l.nodes ++
    lastEdges endId l.nodes
  diagnostics := l.diagnostics

/-- The layout of some steps in a mode. A flow without steps gets no anchors. -/
def layOutIn (mode : Mode) (declarations : List Declaration) : Layout :=
  let source : IdSource := {}
  if mode.anchors && !declarations.isEmpty then
    let (startId, afterStart) := source.next
    let afterSteps := (afterStart.take declarations.length).2
    (layOut afterStart declarations).anchored startId afterSteps.next.1
  else layOut source declarations

/-- Reads an outline as a graph with a title and a description. A missing or empty title is replaced
by the default one. -/
def read (mode : Mode) (text : String) (title description : Option String := none) :
    Except UnknownName Reading :=
  (scan mode text).map fun s =>
    let layout := layOutIn mode s.declarations
    { graph := {
        title := (title.filter (· != "")).getD untitled
        description
        nodes := layout.nodes
        edges := layout.edges }
      diagnostics := s.diagnostics ++ layout.diagnostics }

end Flowchart.Outline
