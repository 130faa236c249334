import Flowchart.Json.Basic
import Flowchart.Walk.Cycle
import Flowchart.Walk.Reach

/-!
# An overview of a flow

The inputs, decisions and outputs of a flow, whether it loops, how complex it is, and which of its
steps cannot be reached. Complexity counts a step as one, a decision as two more and an edge between
steps as one half; a half that is left over counts as one.
-/

set_option autoImplicit false

namespace Flowchart

/-- The complexity of a flow. -/
def Graph.complexity (g : Graph) : Nat :=
  let decisions := g.steps.countP fun n => n.kind == .decision
  g.steps.length + 2 * decisions + (g.stepEdges.length + 1) / 2

/-- An overview of a flow. Nodes are given by their ids. -/
structure Overview where
  inputs : List String
  decisions : List String
  outputs : List String
  hasLoops : Bool
  complexity : Nat
  unreachable : List String
deriving DecidableEq, Repr

/-- The overview of a flow. -/
def Graph.overview (g : Graph) : Overview where
  inputs := (g.nodesOfKind .input).map (·.id)
  decisions := (g.nodesOfKind .decision).map (·.id)
  outputs := (g.nodesOfKind .output).map (·.id)
  hasLoops := g.hasCycle
  complexity := g.complexity
  unreachable := g.unreachable

namespace Overview

/-- The fields of the document of an overview. -/
def fields (o : Overview) : List (String × Json) := [
  ("inputs", Json.ofStrings o.inputs),
  ("decisions", Json.ofStrings o.decisions),
  ("outputs", Json.ofStrings o.outputs),
  ("has_loops", .bool o.hasLoops),
  ("complexity_score", .int o.complexity),
  ("unreachable_node_ids", Json.ofStrings o.unreachable)]

/-- The document of an overview. -/
def toJson (o : Overview) : Json := .object o.fields

end Overview

end Flowchart
