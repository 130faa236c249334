import Flowchart.Diagram
import Flowchart.Prompt.Options

/-!
# Implementation prompts

The text that asks a coding assistant to implement a flow. It is a list of sections, and the same
flow and options always give the same text. The flow need not be valid.
-/

set_option autoImplicit false

namespace Flowchart.Prompt

/-- The lines about the role of the assistant and what it is to do. -/
def roleLines (o : Options) : List String :=
  ["You are a senior software engineer.",
    "Generate clean, maintainable code based strictly on the following logic.",
    o.purpose.goal] ++
    (o.strictness.map Strictness.rule).toList

/-- The description of a graph, unless it is missing or empty. -/
def givenDescription? (g : Graph) : Option String :=
  g.description.filter (· != "")

/-- Whether a graph has a title of its own. -/
def hasOwnTitle (g : Graph) : Bool :=
  g.title != "" && g.title != untitled

/-- The section with the title and the description of the flow, left out if there is neither. -/
def overviewLines (g : Graph) : List String :=
  if (givenDescription? g).isSome || hasOwnTitle g then
    ["", "## OVERVIEW", "Title: " ++ g.title] ++
      ((givenDescription? g).map ("Description: " ++ ·)).toList
  else []

/-- The condition of a decision, if it says anything that the title does not. -/
def distinctCondition? (n : Node) : Option String :=
  if n.kind = .decision then n.givenCondition?.filter (· != n.title) else none

/-- The first line about a step. -/
def stepHead (number : Nat) (n : Node) : String :=
  Nat.repr number ++ ". **" ++ n.kind.label ++ ":** " ++ n.title

/-- The lines about a step. -/
def stepLines (number : Nat) (n : Node) : List String :=
  stepHead number n :: (n.distinctDescription?.map ("   - " ++ ·)).toList ++
    ((distinctCondition? n).map ("   - Condition: " ++ ·)).toList

/-- The lines about some steps, the first of which has the given number. -/
def numberedSteps : Nat → List Node → List String
  | _, [] => []
  | number, n :: rest => stepLines number n ++ numberedSteps (number + 1) rest

/-- The section with the steps of the flow. -/
def flowLines (g : Graph) : List String :=
  ["", "## LOGIC FLOW"] ++ numberedSteps 1 g.inReadingOrder

/-- What an id is called: the title of its last node, or the id itself if there is none. -/
def nameOf (g : Graph) (id : String) : String :=
  ((g.lastNode? id).map (·.title)).getD id

/-- The line about a branch. -/
def branchLine? (g : Graph) (e : Edge) : Option String :=
  e.branch.map fun branch =>
    "- **" ++ branch.keyword ++ ":** \"" ++ nameOf g e.source ++ "\" → \"" ++
      nameOf g e.target ++ "\""

/-- The section with the branches, left out if there are none. -/
def branchLines (g : Graph) : List String :=
  match g.edges.filterMap (branchLine? g) with
  | [] => []
  | first :: rest => ["", "## DECISION BRANCHES", first] ++ rest

/-- The section with the requirements on the answer, if a degree of detail was chosen. -/
def detailLines (o : Options) : List String :=
  match o.detail with
  | some detail => ["", "## OUTPUT REQUIREMENTS"] ++ detail.requirements
  | none => []

/-- The section with the instructions of the purpose, if it was chosen. -/
def instructionLines (o : Options) : List String :=
  if o.withInstructions then
    ["", "## TARGET-SPECIFIC INSTRUCTIONS"] ++ o.purpose.instructions
  else []

/-- The section with the diagram of the flow, if it was chosen. -/
def diagramLines (g : Graph) (o : Options) : List String :=
  if o.withDiagram then
    ["", "## DIAGRAM", "\x60\x60\x60mermaid", Diagram.render g Diagram.topDown, "\x60\x60\x60"]
  else []

/-- The section that ends every prompt. -/
def constraintLines : List String := [
  "",
  "## CONSTRAINTS",
  "- Do not invent additional logic",
  "- Follow the flow exactly as described",
  "- Use clear, descriptive naming",
  "- Implement error handling where appropriate"]

/-- The parts of a prompt, in order. A part that was copied into the prompt may itself hold several
lines. -/
def parts (g : Graph) (o : Options) : List String :=
  roleLines o ++ overviewLines g ++ flowLines g ++ branchLines g ++ detailLines o ++
    instructionLines o ++ diagramLines g o ++ constraintLines

/-- The prompt for a flow. -/
def render (g : Graph) (o : Options := {}) : String :=
  Text.unlines (parts g o)

end Flowchart.Prompt
