import Flowchart.Check.Report
import Flowchart.Walk.Cycle
import Flowchart.Walk.Reach

/-!
# The checks

Five checks are always made, none of which depends on the outcome of another: there is an output,
every decision has both branches and they lead to nodes, no step is isolated, no step but an output
is a dead end, and there is an input. A deep check also looks for steps that cannot be reached and
for a loop. Anchors are never judged, and their edges do not connect a step to anything.
-/

set_option autoImplicit false

namespace Flowchart.Check

/-- What a step is called in a finding: its title, or its id if the title is empty. -/
def nameOf (n : Node) : String :=
  if n.title = "" then n.id else n.title

/-- There is an output. -/
def outputExists (g : Graph) : List Issue :=
  if g.steps.any fun n => n.kind == .output then [] else [{ finding := .noOutput }]

/-- The branches that a decision lacks. -/
def lacking (g : Graph) (decision : Node) : List Branch :=
  Branch.all.filter fun branch => (g.branchEdge? decision.id branch).isNone

/-- The issue of a branch that leads to no node. -/
def danglingIssue? (g : Graph) (decision : Node) (branch : Branch) : Option Issue := do
  let edge ← g.branchEdge? decision.id branch
  if g.ids.contains edge.target then none
  else some ⟨.danglingBranch decision.question branch edge.target, some decision.id⟩

/-- The issues of one decision: the branches that it lacks, then those that lead nowhere. -/
def decisionIssues (g : Graph) (decision : Node) : List Issue :=
  let missing := lacking g decision
  (if missing.isEmpty then []
    else [{ finding := .missingBranches decision.question missing, node := some decision.id }]) ++
    Branch.all.filterMap (danglingIssue? g decision)

/-- Every decision has both branches, and they lead to nodes. -/
def decisionsBranch (g : Graph) : List Issue :=
  (g.steps.filter fun n => n.kind == .decision).flatMap (decisionIssues g)

/-- The ids that edges between steps touch. -/
def connectedIds (g : Graph) : List String :=
  g.stepEdges.flatMap fun e => [e.source, e.target]

/-- No step is isolated. -/
def noneIsolated (g : Graph) : List Issue :=
  let connected := connectedIds g
  (g.steps.filter fun n => !connected.contains n.id).map fun n =>
    { finding := .isolated (nameOf n), node := some n.id }

/-- No step but an output is a dead end. -/
def noneDeadEnd (g : Graph) : List Issue :=
  let leaving := g.stepEdges.map (·.source)
  (g.steps.filter fun n => n.kind != .output && !leaving.contains n.id).map fun n =>
    { finding := .deadEnd (nameOf n), node := some n.id }

/-- There is an input. -/
def inputExists (g : Graph) : List Issue :=
  if g.steps.any fun n => n.kind == .input then [] else [{ finding := .noInput }]

/-- Every step can be reached. -/
def allReachable (g : Graph) : List Issue :=
  g.unreachable.filterMap fun id => (g.lastNode? id).map fun n =>
    { finding := .unreachable (nameOf n), node := some id }

/-- The flow has no loop. -/
def noLoop (g : Graph) : List Issue :=
  match g.findCycle with
  | [] => []
  | id :: rest =>
    let names := (id :: rest).map fun id => ((g.lastNode? id).map (·.title)).getD id
    [{ finding := .loop names, node := some id }]

/-- The checks that are always made. -/
def basic (g : Graph) : List Issue :=
  outputExists g ++ decisionsBranch g ++ noneIsolated g ++ noneDeadEnd g ++ inputExists g

/-- Checks a flow, more deeply if asked to. -/
def report (g : Graph) (deep : Bool := false) : Report :=
  { issues := basic g ++ if deep then allReachable g ++ noLoop g else [] }

/-- The report on a flow if it is valid, and its refusal otherwise. -/
def require (g : Graph) : Except Refusal Report :=
  (report g).orRefusal

end Flowchart.Check
