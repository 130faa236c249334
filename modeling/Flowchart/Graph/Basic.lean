/-!
# Flow graphs

A process as typed steps and directed edges between them. The order of the nodes is the order in
which they were declared, and it matters: it settles where a walk starts and where the steps that no
walk reaches are listed. A graph need not be well formed. Ids may repeat, an edge may name an id
that no node has, and a decision may lack a branch; the checks of `Flowchart.Check` report that.
-/

set_option autoImplicit false

namespace Flowchart

/-- What a node is for. The two anchors mark the ends of a flow and are not steps of it. -/
inductive NodeKind where
  | input
  | process
  | decision
  | output
  | start
  | finish
deriving DecidableEq, Repr

namespace NodeKind

/-- All kinds, the steps first. -/
def all : List NodeKind := [input, process, decision, output, start, finish]

/-- The name of a kind in documents. -/
def name : NodeKind → String
  | input => "input"
  | process => "process"
  | decision => "decision"
  | output => "output"
  | start => "start"
  | finish => "end"

/-- The kind of a name, which must be spelled exactly. -/
def ofName? (name : String) : Option NodeKind :=
  all.find? fun kind => kind.name == name

/-- The word that starts a line about a node of this kind. -/
def keyword : NodeKind → String
  | input => "INPUT"
  | process => "PROCESS"
  | decision => "DECISION"
  | output => "OUTPUT"
  | start => "START"
  | finish => "END"

/-- The name of a kind as the first word of a sentence. -/
def label : NodeKind → String
  | input => "Input"
  | process => "Process"
  | decision => "Decision"
  | output => "Output"
  | start => "Start"
  | finish => "End"

/-- The kinds that mark the ends of a flow. -/
def isAnchor : NodeKind → Bool
  | start | finish => true
  | _ => false

end NodeKind

/-- The two ways out of a decision. -/
inductive Branch where
  | yes
  | no
deriving DecidableEq, Repr

namespace Branch

/-- Both branches, the yes branch first. -/
def all : List Branch := [yes, no]

/-- The name of a branch in documents. -/
def name : Branch → String
  | yes => "yes"
  | no => "no"

/-- The branch of a name, which must be spelled exactly. -/
def ofName? (name : String) : Option Branch :=
  all.find? fun branch => branch.name == name

/-- The word that starts a line about this branch. -/
def keyword : Branch → String
  | yes => "YES"
  | no => "NO"

end Branch

/-- A node of a graph. Only decisions have a use for a condition. -/
structure Node where
  id : String
  kind : NodeKind
  title : String
  description : Option String := none
  condition : Option String := none
deriving DecidableEq, Repr

namespace Node

/-- Whether the node is a step and not an anchor. -/
def isStep (n : Node) : Bool := !n.kind.isAnchor

/-- The description, unless it is missing or empty. -/
def givenDescription? (n : Node) : Option String :=
  n.description.filter (· != "")

/-- The condition, unless it is missing or empty. -/
def givenCondition? (n : Node) : Option String :=
  n.condition.filter (· != "")

/-- The description, or the title where there is none. -/
def describedAs (n : Node) : String := n.givenDescription?.getD n.title

/-- What a decision asks: its condition, or the title where there is none. -/
def question (n : Node) : String := n.givenCondition?.getD n.title

/-- The description, if it says anything that the title does not. -/
def distinctDescription? (n : Node) : Option String :=
  n.givenDescription?.filter (· != n.title)

end Node

/-- An edge from one id to another, with the branch that it stands for if it leaves a decision. -/
structure Edge where
  source : String
  target : String
  branch : Option Branch := none
deriving DecidableEq, Repr

/-- The title of a graph that was given none. -/
def untitled : String := "Untitled Logic"

/-- A flow graph. -/
structure Graph where
  title : String := untitled
  description : Option String := none
  nodes : List Node := []
  edges : List Edge := []
deriving DecidableEq, Repr

/-- The ids of the nodes, in declaration order. -/
def Graph.ids (g : Graph) : List String := g.nodes.map (·.id)

end Flowchart
