import Flowchart.Graph.Name
import Flowchart.Outline.Diagnostic
import Flowchart.Outline.Statement
import Flowchart.Text.Lines

/-!
# The declarations of an outline

The first half of reading an outline: from lines to declared steps. A branch line belongs to the
step declared last, provided that this is a decision. Lines that are no statement are reported, or
become process steps of their own if the mode says so.
-/

set_option autoImplicit false

namespace Flowchart.Outline

/-- How an outline is to be read. -/
structure Mode where
  /-- Whether the graph gets a start and an end node. -/
  anchors : Bool := false
  /-- Whether a line that is no statement becomes a process step. -/
  proseAsProcess : Bool := false
deriving DecidableEq, Repr

/-- Where a branch leads, and the line that says so. -/
structure Target where
  title : String
  line : Nat
deriving DecidableEq, Repr

/-- A step as an outline declares it, with the branches that were given to it. -/
structure Declaration where
  kind : NodeKind
  label : Label
  line : Nat
  yes : Option Target := none
  no : Option Target := none
deriving DecidableEq, Repr

namespace Declaration

/-- The title of the step. -/
def title (d : Declaration) : String := d.label.title

/-- Where a branch of the step leads. -/
def target? (d : Declaration) : Branch → Option Target
  | .yes => d.yes
  | .no => d.no

/-- The step with a branch leading somewhere. -/
def withTarget (d : Declaration) (branch : Branch) (target : Target) : Declaration :=
  match branch with
  | .yes => { d with yes := some target }
  | .no => { d with no := some target }

end Declaration

/-- What has been read so far: the steps, the latest first, and the diagnostics in order. -/
structure Scan where
  latestFirst : List Declaration := []
  diagnostics : List Diagnostic := []
deriving DecidableEq, Repr

namespace Scan

/-- The steps in the order of their lines. -/
def declarations (s : Scan) : List Declaration := s.latestFirst.reverse

/-- Adds a step. -/
def declare (s : Scan) (d : Declaration) : Scan :=
  { s with latestFirst := d :: s.latestFirst }

/-- Adds a diagnostic. -/
def report (s : Scan) (d : Diagnostic) : Scan :=
  { s with diagnostics := s.diagnostics ++ [d] }

/-- The decision that a branch line would belong to, and the steps before it. -/
def openDecision? (s : Scan) : Option (Declaration × List Declaration) :=
  match s.latestFirst with
  | d :: before => if d.kind = .decision then some (d, before) else none
  | [] => none

/-- Takes a line that is no statement. -/
def prose (mode : Mode) (s : Scan) (line : List Char) (number : Nat) : Scan :=
  let label := Label.ofText line
  if mode.proseAsProcess && label.title != "" then
    s.declare { kind := .process, label, line := number }
  else s.report ⟨.ignoredLine, number, String.ofList line⟩

/-- Gives a branch to the decision that was declared last. -/
def attach (s : Scan) (decision : Declaration) (before : List Declaration) (branch : Branch)
    (target : String) (line : List Char) (number : Nat) : Scan :=
  let s' := if (decision.target? branch).isSome then
      s.report ⟨.repeatedBranch decision.title branch target, number, String.ofList line⟩
    else s
  { s' with latestFirst := decision.withTarget branch ⟨target, number⟩ :: before }

/-- Takes one line, which is numbered from one. -/
def line (mode : Mode) (s : Scan) (raw : List Char) (number : Nat) : Except UnknownName Scan :=
  let line := Text.trim raw
  match Statement.read line with
  | .blank => .ok s
  | .step keyword label =>
    (NodeKind.named keyword).map fun kind => s.declare { kind, label, line := number }
  | .branch keyword target =>
    match s.openDecision? with
    | some (decision, before) =>
      (Branch.named keyword).map fun branch => s.attach decision before branch target line number
    | none => .ok (s.prose mode line number)
  | .prose => .ok (s.prose mode line number)

/-- Takes some lines, the first of which has the given number. -/
def lines (mode : Mode) : Scan → Nat → List (List Char) → Except UnknownName Scan
  | s, _, [] => .ok s
  | s, number, raw :: rest =>
    match s.line mode raw number with
    | .ok s' => lines mode s' (number + 1) rest
    | .error e => .error e

end Scan

/-- Reads the declarations of an outline. -/
def scan (mode : Mode) (text : String) : Except UnknownName Scan :=
  Scan.lines mode {} 1 (Text.lines text.toList)

end Flowchart.Outline
