import Flowchart.Document.Field
import Flowchart.Graph.Basic
import Flowchart.Text.Blank

/-!
# Documents of graphs

Writing a graph as a document and reading it back. Reading trims titles and refuses blank ones; ids
and edges may be anything. `Graph.HasTitles` says which graphs reading can come to.
-/

set_option autoImplicit false

namespace Flowchart

/-- The document of a node. -/
def Node.toJson (n : Node) : Json := .object [
  ("id", .string n.id),
  ("kind", .string n.kind.name),
  ("title", .string n.title),
  ("description", Json.ofOption n.description),
  ("condition", Json.ofOption n.condition)]

/-- The document of an edge. -/
def Edge.toJson (e : Edge) : Json := .object [
  ("source", .string e.source),
  ("target", .string e.target),
  ("branch", Json.ofOption (e.branch.map Branch.name))]

/-- The document of a graph. -/
def Graph.toJson (g : Graph) : Json := .object [
  ("title", .string g.title),
  ("description", Json.ofOption g.description),
  ("nodes", .array (g.nodes.map Node.toJson)),
  ("edges", .array (g.edges.map Edge.toJson))]

/-- A title as documents may hold it: trimmed, and not empty. -/
def isTitle (title : String) : Prop :=
  Text.trimmed title = title ∧ title ≠ ""

/-- Every node has a title as documents may hold it. -/
def Graph.HasTitles (g : Graph) : Prop :=
  ∀ n ∈ g.nodes, isTitle n.title

namespace Document

/-- Reads a kind. -/
def kind : Reader NodeKind :=
  named .notListed NodeKind.all NodeKind.name

/-- Reads a branch. -/
def branch : Reader Branch :=
  named .notListed Branch.all Branch.name

/-- Reads a title and trims it. A blank title is refused. -/
def title (value : Json) : Checked String :=
  (text value).andThen fun s =>
    let title := Text.trimmed s
    if title = "" then .refuse .blankTitle else .accepted title

/-- Reads a node. -/
def node : Reader Node :=
  object "LogicNode" fun fields =>
    Node.mk <$> required fields "id" text
      <*> required fields "kind" kind
      <*> required fields "title" title
      <*> optionalText fields "description"
      <*> optionalText fields "condition"

/-- Reads an edge. -/
def edge : Reader Edge :=
  object "LogicEdge" fun fields =>
    Edge.mk <$> required fields "source" text
      <*> required fields "target" text
      <*> optional fields "branch" none (nullable branch)

/-- Reads a graph. -/
def graph : Reader Graph :=
  object "LogicGraph" fun fields =>
    Graph.mk <$> optional fields "title" untitled text
      <*> optionalText fields "description"
      <*> optional fields "nodes" [] (list node)
      <*> optional fields "edges" [] (list edge)

end Document

end Flowchart
