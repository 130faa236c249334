import Flowchart.Graph.Lookup
import Flowchart.Json.Basic
import Flowchart.Text.Blank

/-!
# The canvas of an editor

The records in which a visual editor keeps a flow, and the way to and from them. On the canvas there
are no anchors, every edge joins two shown nodes, and a branch is the name of the handle that an
edge leaves from. A canvas has positions; a graph has none, so they are dropped.
-/

set_option autoImplicit false

namespace Flowchart.Canvas

/-- A node on the canvas. -/
structure Shape where
  id : String
  kind : NodeKind
  title : String
  description : Option String := none
  condition : Option String := none
deriving DecidableEq, Repr

/-- An edge on the canvas, with the name of the handle that it leaves from. -/
structure Link where
  source : String
  target : String
  handle : Option String := none
deriving DecidableEq, Repr

/-- A flow on the canvas. -/
structure Drawing where
  shapes : List Shape
  links : List Link
deriving DecidableEq, Repr

/-- A step as a node on the canvas. A decision always shows what it asks. -/
def Shape.ofNode (n : Node) : Shape where
  id := n.id
  kind := n.kind
  title := n.title
  description := n.description
  condition := if n.kind = .decision then some n.question else none

/-- An edge as a link on the canvas. -/
def Link.ofEdge (e : Edge) : Link where
  source := e.source
  target := e.target
  handle := e.branch.map Branch.name

/-- Draws a graph: its steps, and the edges between ids of steps. -/
def draw (g : Graph) : Drawing :=
  let shown := g.steps.map (·.id)
  { shapes := g.steps.map Shape.ofNode
    links := (g.edges.filter fun e => shown.contains e.source && shown.contains e.target).map
      Link.ofEdge }

/-- The title of a node whose title on the canvas is blank. -/
def unnamed : String := "Unnamed"

/-- The node that a node on the canvas stands for. -/
def Shape.toNode (s : Shape) : Node where
  id := s.id
  kind := s.kind
  title := let title := Text.trimmed s.title; if title = "" then unnamed else title
  description := s.description.filter (· != "")
  condition := if s.kind = .decision then s.condition else none

/-- The edge that a link stands for. A handle that is no branch is ignored. -/
def Link.toEdge (l : Link) : Edge where
  source := l.source
  target := l.target
  branch := l.handle.bind Branch.ofName?

/-- The graph that a drawing stands for, with a title and a description. -/
def Drawing.toGraph (d : Drawing) (title : String := untitled)
    (description : Option String := none) : Graph where
  title := title
  description := description
  nodes := d.shapes.map Shape.toNode
  edges := d.links.map Link.toEdge

/-- Draws a graph and reads the drawing back. -/
def redraw (g : Graph) : Graph :=
  (draw g).toGraph g.title g.description

/-- The document of a node on the canvas. It has no position yet. -/
def Shape.toJson (s : Shape) : Json := .object [
  ("id", .string s.id),
  ("kind", .string s.kind.name),
  ("title", .string s.title),
  ("description", Json.ofOption s.description),
  ("condition", Json.ofOption s.condition),
  ("position", .null)]

/-- The document of a link. -/
def Link.toJson (l : Link) : Json := .object [
  ("source", .string l.source),
  ("target", .string l.target),
  ("source_handle", Json.ofOption l.handle)]

/-- The document of a drawing. -/
def Drawing.toJson (d : Drawing) : Json := .object [
  ("nodes", .array (d.shapes.map Shape.toJson)),
  ("edges", .array (d.links.map Link.toJson))]

end Flowchart.Canvas
