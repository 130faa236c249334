import Flowchart.Chat.Instructions
import Flowchart.Graph.Lookup

/-!
# Instructions for reviewing a prompt

The text that asks a language model to review an implementation prompt. It can list the steps and
the connections of the flow that the prompt was made from.
-/

set_option autoImplicit false

namespace Flowchart.Review

/-- What the reviewer is told before anything else. -/
def reviewerRole : String :=
  "You are an experienced software architect reviewing implementation prompts. " ++
    "Answer with valid JSON only, no markdown."

/-- The shape of the answer that is asked for. -/
def answerShape : String := Text.unlines [
  "\x7b",
  "  \"analyzable\": true,",
  "  \"reason\": \"only when analyzable is false\",",
  "  \"completenessScore\": 65,",
  "  \"clarityScore\": 70,",
  "  \"strengths\": [\"[KIND] 'Title' - what is good (only what the prompt says)\"],",
  "  \"weaknesses\": [\"[KIND] 'Title' - what is missing\"],",
  "  \"suggestions\": [",
  "    \x7b\"type\": \"edge_case\", \"priority\": \"high\", \"title\": \"Failure case: ...\",",
  "     \"description\": \"...\", \"suggestedNode\": \x7b\"role\": \"decision\", \"title\": \"...\",",
  "     \"description\": \"...\", \"condition\": \"...\"\x7d\x7d",
  "  ],",
  "  \"improvedPrompt\": \"the full prompt with [SUGGESTION: ...] markers\"",
  "\x7d"]

/-- What a step is called in the list of steps and connections. -/
def stepName (n : Node) : String :=
  "[" ++ n.kind.keyword ++ "] \"" ++ n.title ++ "\""

/-- The line about a step. -/
def stepLine (n : Node) (position : Nat) : String :=
  let description := match n.givenDescription? with
    | some description => " → \"" ++ description ++ "\""
    | none => " → (no description)"
  let condition := match n.givenCondition? with
    | some condition => " | Condition: \"" ++ condition ++ "\""
    | none => ""
  Nat.repr position ++ ". " ++ stepName n ++ description ++ condition

/-- What the last step with an id is called. -/
def nameOfStep? (g : Graph) (id : String) : Option String :=
  (g.steps.reverse.find? fun n => n.id == id).map stepName

/-- The line about a connection, if both its ends are steps. -/
def connectionLine? (g : Graph) (e : Edge) : Option String := do
  let source ← nameOfStep? g e.source
  let target ← nameOfStep? g e.target
  let branch := match e.branch with
    | some branch => " (" ++ branch.keyword ++ ")"
    | none => ""
  some ("  " ++ source ++ " → " ++ target ++ branch)

/-- The list of the steps and connections of a flow. -/
def flowContext (g : Graph) : String :=
  Text.unlines (
    ("## FLOW CONTEXT (" ++ Nat.repr g.steps.length ++ " nodes):") ::
      (g.steps.zipIdx 1).map (fun (n, position) => stepLine n position) ++
      ["", "**Connections:**"] ++ g.edges.filterMap (connectionLine? g))

/-- The section about the flow, left out for a flow without steps. -/
def contextSections (g : Option Graph) : List String :=
  match g with
  | some g => if g.steps.isEmpty then [] else [flowContext g]
  | none => []

/-- The instructions for reviewing a prompt, and the flow it was made from if one is given. -/
def reviewInstructions (prompt : String) (g : Option Graph := none) : String :=
  Chat.sections (
    ["You are an experienced code reviewer. Judge whether this prompt can be " ++
        "implemented and give helpful improvement suggestions.",
      Text.unlines [
        "**Distinguish carefully:**",
        "1. Strengths and weaknesses refer ONLY to what the prompt actually says",
        "2. Suggestions may add context-specific ideas (validation rules, error handling)",
        "3. improvedPrompt copies the prompt as written and adds " ++
          "[SUGGESTION: concrete idea] markers"]] ++
    contextSections g ++
    ["## PROMPT TO ANALYZE:\n" ++ prompt,
      Text.unlines [
        "## SCORING RULES:",
        "- Generic names (\"Input\", \"Process\"): at most 20",
        "- Concrete fields but no validation: 50-70",
        "- Complete with error handling: 70 and above",
        "- Never list the same point as both strength and weakness"],
      Text.unlines [
        "## REQUIRED FIELDS for every suggestion:",
        "- title: never empty",
        "- type: one of missing_node, unclear_step, edge_case, best_practice",
        "- priority: one of high, medium, low",
        "- suggestedNode.role: one of input, process, decision, output",
        "- Give 2-3 suggestions per priority level"],
      Text.unlines [
        "## analyzable:",
        "Set analyzable to false (with a reason) when the nodes only carry generic " ++
          "names or a decision has no real condition."],
      "## JSON FORMAT:\n" ++ answerShape,
      "## YOUR JSON ANSWER:"])

end Flowchart.Review
