import Flowchart.Graph.Lookup
import Flowchart.Text.Lines

/-!
# From a graph to an outline

The outline of a graph lists its steps in declaration order, each decision with the branches that
lead to a step. Anchors and branches that lead nowhere are left out. Beside it stands the signature
of a graph, which says the same without ids: two graphs with equal signatures are the same flow.
-/

set_option autoImplicit false

namespace Flowchart.Outline

/-- The line about a step. -/
def stepLine (n : Node) : String :=
  let head := n.kind.keyword ++ ": " ++ n.title
  match n.distinctDescription? with
  | some description => head ++ " | " ++ description
  | none => head

/-- The title of the step that a branch of a node leads to. -/
def branchTarget? (g : Graph) (n : Node) (branch : Branch) : Option String := do
  let edge ← g.branchEdge? n.id branch
  let target ← g.firstNode? edge.target
  if target.kind.isAnchor then none else some target.title

/-- The line about a branch. -/
def branchLine (branch : Branch) (target : String) : String :=
  "  " ++ branch.keyword ++ " -> " ++ target

/-- The lines about the branches of a node. Only decisions have them. -/
def branchLines (g : Graph) (n : Node) : List String :=
  if n.kind = .decision then
    Branch.all.filterMap fun branch =>
      ((branchTarget? g n branch).filter (· != "")).map (branchLine branch)
  else []

/-- The lines of the outline of a graph. -/
def outlineLines (g : Graph) : List String :=
  g.steps.flatMap fun n => stepLine n :: branchLines g n

/-- The outline of a graph. -/
def write (g : Graph) : String :=
  Text.unlines (outlineLines g)

/-- What the signature of a graph says about one step. -/
structure StepSignature where
  kind : NodeKind
  title : String
  description : Option String
  yes : Option String
  no : Option String
deriving DecidableEq, Repr

/-- The signature of a step. -/
def stepSignature (g : Graph) (n : Node) : StepSignature where
  kind := n.kind
  title := n.title
  description := n.distinctDescription?
  yes := if n.kind = .decision then branchTarget? g n .yes else none
  no := if n.kind = .decision then branchTarget? g n .no else none

/-- The signature of a graph: its steps in declaration order, and where their branches lead. -/
def signature (g : Graph) : List StepSignature :=
  g.steps.map (stepSignature g)

end Flowchart.Outline
