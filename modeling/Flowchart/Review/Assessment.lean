import Flowchart.Json.Basic

/-!
# Assessments of a prompt

What a review of an implementation prompt comes to: two scores, strengths, weaknesses, suggestions
and perhaps an improved prompt.
-/

set_option autoImplicit false

namespace Flowchart.Review

/-- What a suggestion is about. -/
inductive Topic where
  | missingNode
  | unclearStep
  | edgeCase
  | bestPractice
deriving DecidableEq, Repr

namespace Topic

/-- All topics. -/
def all : List Topic := [missingNode, unclearStep, edgeCase, bestPractice]

/-- The name of a topic in documents. -/
def name : Topic → String
  | missingNode => "missing_node"
  | unclearStep => "unclear_step"
  | edgeCase => "edge_case"
  | bestPractice => "best_practice"

/-- The topic of a name, which must be spelled exactly. -/
def ofName? (name : String) : Option Topic :=
  all.find? fun topic => topic.name == name

end Topic

/-- How urgent a suggestion is. -/
inductive Priority where
  | high
  | medium
  | low
deriving DecidableEq, Repr

namespace Priority

/-- All priorities. -/
def all : List Priority := [high, medium, low]

/-- The name of a priority in documents. -/
def name : Priority → String
  | high => "high"
  | medium => "medium"
  | low => "low"

/-- The priority of a name, which must be spelled exactly. -/
def ofName? (name : String) : Option Priority :=
  all.find? fun priority => priority.name == name

end Priority

/-- The part that a suggested step would play. -/
inductive StepRole where
  | input
  | process
  | decision
  | output
deriving DecidableEq, Repr

namespace StepRole

/-- All roles. -/
def all : List StepRole := [input, process, decision, output]

/-- The name of a role in documents. -/
def name : StepRole → String
  | input => "input"
  | process => "process"
  | decision => "decision"
  | output => "output"

/-- The role of a name, which must be spelled exactly. -/
def ofName? (name : String) : Option StepRole :=
  all.find? fun role => role.name == name

end StepRole

/-- A step that a suggestion would add. -/
structure SuggestedStep where
  role : StepRole
  title : String
  description : String := ""
  condition : Option String := none
deriving DecidableEq, Repr

/-- A suggestion. Its title is trimmed and not blank. -/
structure Suggestion where
  topic : Topic
  priority : Priority
  title : String
  description : String := ""
  step : Option SuggestedStep := none
deriving DecidableEq, Repr

/-- What a review comes to. Scores go from 0 to 100. A prompt that is too vague to be reviewed is
not analyzable. -/
structure Assessment where
  analyzable : Bool := true
  reason : Option String := none
  completeness : Nat := 0
  clarity : Nat := 0
  strengths : List String := []
  weaknesses : List String := []
  suggestions : List Suggestion := []
  improvedPrompt : Option String := none
deriving DecidableEq, Repr

/-- The document of a suggested step. -/
def SuggestedStep.toJson (s : SuggestedStep) : Json := .object [
  ("role", .string s.role.name),
  ("title", .string s.title),
  ("description", .string s.description),
  ("condition", Json.ofOption s.condition)]

/-- The document of a suggestion. -/
def Suggestion.toJson (s : Suggestion) : Json := .object [
  ("type", .string s.topic.name),
  ("priority", .string s.priority.name),
  ("title", .string s.title),
  ("description", .string s.description),
  ("suggested_node", match s.step with
    | some step => step.toJson
    | none => .null)]

/-- The fields of the document of an assessment. -/
def Assessment.fields (a : Assessment) : List (String × Json) := [
  ("analyzable", .bool a.analyzable),
  ("reason", Json.ofOption a.reason),
  ("completeness_score", .int a.completeness),
  ("clarity_score", .int a.clarity),
  ("strengths", Json.ofStrings a.strengths),
  ("weaknesses", Json.ofStrings a.weaknesses),
  ("suggestions", .array (a.suggestions.map Suggestion.toJson)),
  ("improved_prompt", Json.ofOption a.improvedPrompt)]

/-- The document of an assessment. -/
def Assessment.toJson (a : Assessment) : Json := .object a.fields

end Flowchart.Review
