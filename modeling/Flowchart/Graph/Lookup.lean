import Flowchart.Graph.Basic

/-!
# Looking things up in a graph

Nodes by id and by kind, edges by their ends, and the nodes where a walk through the graph starts.
Where several nodes share an id, `firstNode?` and `lastNode?` say which of them is meant; where
several edges leave a decision by the same branch, the first one counts.
-/

set_option autoImplicit false

namespace Flowchart.Graph

/-- The first node with an id. -/
def firstNode? (g : Graph) (id : String) : Option Node :=
  g.nodes.find? fun n => n.id == id

/-- The last node with an id. -/
def lastNode? (g : Graph) (id : String) : Option Node :=
  g.nodes.reverse.find? fun n => n.id == id

/-- The ids of the graph in the order of their first node, each with its last node. -/
def directory (g : Graph) : List (String × Node) :=
  g.ids.eraseDups.filterMap fun id => (g.lastNode? id).map fun n => (id, n)

/-- The nodes of a kind, in declaration order. -/
def nodesOfKind (g : Graph) (kind : NodeKind) : List Node :=
  g.nodes.filter fun n => n.kind == kind

/-- The nodes that are steps, in declaration order. -/
def steps (g : Graph) : List Node :=
  g.nodes.filter Node.isStep

/-- The edges that leave an id, in declaration order. -/
def outgoing (g : Graph) (id : String) : List Edge :=
  g.edges.filter fun e => e.source == id

/-- The edges that enter an id, in declaration order. -/
def incoming (g : Graph) (id : String) : List Edge :=
  g.edges.filter fun e => e.target == id

/-- The first edge that leaves an id by a branch. -/
def branchEdge? (g : Graph) (id : String) (branch : Branch) : Option Edge :=
  g.edges.find? fun e => e.source == id && e.branch == some branch

/-- The edges that stand for a branch, in declaration order. -/
def branchEdges (g : Graph) : List Edge :=
  g.edges.filter fun e => e.branch.isSome

/-- Where the edges that leave an id lead, in declaration order. -/
def targets (g : Graph) (id : String) : List String :=
  (g.outgoing id).map (·.target)

/-- The ids that edges leave, in the order of their first edge, each with where its edges lead. -/
def adjacency (g : Graph) : List (String × List String) :=
  (g.edges.map (·.source)).eraseDups.map fun id => (id, g.targets id)

/-- The nodes where walks start: the inputs, or the first node of a graph without inputs. -/
def startNodes (g : Graph) : List Node :=
  let inputs := g.nodesOfKind .input
  if inputs.isEmpty then g.nodes.take 1 else inputs

/-- The node where reading starts. -/
def entry? (g : Graph) : Option Node :=
  g.startNodes.head?

/-- The ids of the anchors. -/
def anchorIds (g : Graph) : List String :=
  (g.nodes.filter fun n => n.kind.isAnchor).map (·.id)

/-- The edges between steps: those that touch the id of an anchor are left out. -/
def stepEdges (g : Graph) : List Edge :=
  let anchors := g.anchorIds
  g.edges.filter fun e => !anchors.contains e.source && !anchors.contains e.target

end Flowchart.Graph
