import Flowchart.Graph.Basic
import Flowchart.Json.Basic

/-!
# What can be wrong with a flow

A finding is a cause: what is wrong and what is needed to say so. Its severity, its code and its
wording follow from it. An issue is a finding together with the node that it is about, if it is
about one node.
-/

set_option autoImplicit false

namespace Flowchart.Check

/-- An error makes a flow unfit for use; a warning only makes it suspicious. -/
inductive Severity where
  | error
  | warning
deriving DecidableEq, Repr

/-- The name of a severity in documents. -/
def Severity.name : Severity → String
  | error => "error"
  | warning => "warning"

/-- Something wrong with a flow. -/
inductive Finding where
  /-- No step is an output. -/
  | noOutput
  /-- A decision lacks some of its branches. -/
  | missingBranches (question : String) (branches : List Branch)
  /-- A branch of a decision leads to an id that no node has. -/
  | danglingBranch (question : String) (branch : Branch) (target : String)
  /-- No edge between steps touches a step. -/
  | isolated (name : String)
  /-- No edge between steps leaves a step that is not an output. -/
  | deadEnd (name : String)
  /-- No step is an input. -/
  | noInput
  /-- No path from the start leads to a step. -/
  | unreachable (name : String)
  /-- The flow goes round in a loop, given by the names along it. -/
  | loop (names : List String)
deriving DecidableEq, Repr

namespace Finding

/-- How bad a finding is. -/
def severity : Finding → Severity
  | noOutput | missingBranches .. | danglingBranch .. => .error
  | isolated _ | deadEnd _ | noInput | unreachable _ | loop _ => .warning

/-- The code of a finding for programs. -/
def code : Finding → String
  | noOutput => "MISSING_OUTPUT"
  | missingBranches .. => "MISSING_BRANCH"
  | danglingBranch .. => "DANGLING_BRANCH"
  | isolated _ => "ISOLATED_NODE"
  | deadEnd _ => "DEAD_END"
  | noInput => "MISSING_INPUT"
  | unreachable _ => "UNREACHABLE_NODE"
  | loop _ => "CYCLE_DETECTED"

/-- The wording of a finding for people. -/
def message : Finding → String
  | noOutput => "Flow must contain at least one output node"
  | missingBranches question branches =>
    "Decision '" ++ question ++ "' is missing its " ++
      "/".intercalate (branches.map Branch.keyword) ++ " branch"
  | danglingBranch question branch target =>
    "Decision '" ++ question ++ "' " ++ branch.keyword ++ " branch leads to non-existent node '" ++
      target ++ "'"
  | isolated name => "Node '" ++ name ++ "' is isolated (no connections)"
  | deadEnd name => "Node '" ++ name ++ "' has no outgoing connections"
  | noInput => "Flow has no input nodes"
  | unreachable name => "Node '" ++ name ++ "' cannot be reached from the entry"
  | loop names => "Flow contains a loop: " ++ " -> ".intercalate names

end Finding

/-- A finding, and the id of the node that it is about. -/
structure Issue where
  finding : Finding
  node : Option String := none
deriving DecidableEq, Repr

namespace Issue

/-- How bad an issue is. -/
def severity (i : Issue) : Severity := i.finding.severity

/-- Whether an issue is an error. -/
def isError (i : Issue) : Bool := i.severity == .error

/-- The code of an issue. -/
def code (i : Issue) : String := i.finding.code

/-- The wording of an issue. -/
def message (i : Issue) : String := i.finding.message

/-- The document of an issue. -/
def toJson (i : Issue) : Json := .object [
  ("severity", .string i.severity.name),
  ("code", .string i.code),
  ("message", .string i.message),
  ("node_id", Json.ofOption i.node)]

end Issue

end Flowchart.Check
