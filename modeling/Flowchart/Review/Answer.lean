import Flowchart.Chat.Failure
import Flowchart.Fence
import Flowchart.Json.Writer
import Flowchart.Review.Assessment

/-!
# The answer of a reviewer

How the answer of a language model is read as an assessment. An answer without any JSON object is
refused, and so is one that is too deep, where the caller may set what too deep is. What the object
holds is taken as far as it makes sense: a field may have either of two spellings, a score is cut to
its range, a remark may be any value, and a suggestion that is not complete is left out.
-/

set_option autoImplicit false

namespace Flowchart.Review

/-- From the first opening brace of a text to its last closing brace. -/
def braced? (cs : List Char) : Option (List Char) :=
  let part := ((cs.dropWhile (· != '\x7b')).reverse.dropWhile (· != '\x7d')).reverse
  if part.isEmpty then none else some part

/-- The fields of a document that has to be an object. -/
def fieldsOf (document : Json) : Except Chat.Failure Json.Fields :=
  match document.fields? with
  | some fields => .ok fields
  | none => .error (.call (.malformed "Prompt analysis answer is not a JSON object"))

/-- The fields of the JSON object that is the widest part of an answer between braces. -/
def bracedObject (content : List Char) (depth : Nat := Json.maxDepth) :
    Except Chat.Failure Json.Fields :=
  match braced? content with
  | none => .error (.call (.malformed "Prompt analysis answer contains no JSON object"))
  | some part =>
    match Json.read part depth with
    | .ok document => fieldsOf document
    | .error e => .error (.ofReadError "Prompt analysis answer is not valid JSON" e)

/-- The fields of the JSON object in an answer, which may stand in a fenced block or among other
words. An answer that is too deep is not searched for another object. -/
def objectIn (text : String) (depth : Nat := Json.maxDepth) : Except Chat.Failure Json.Fields :=
  let content := Fence.unwrapChars text.toList
  match Json.read content depth with
  | .ok document => fieldsOf document
  | .error (.tooDeep container) => .error (.tooDeep container)
  | .error _ => bracedObject content depth

/-- The value of a field under either of two spellings; the first one wins. -/
def either? (fields : Json.Fields) (spelling other : String) : Option Json :=
  (fields.get? spelling).or (fields.get? other)

/-- The value of a field, if it counts as given. -/
def given? (fields : Json.Fields) (key : String) : Option Json :=
  (fields.get? key).filter Json.isGiven

/-- The text of a field, if it is one. -/
def text? (value : Option Json) : Option String :=
  value.bind Json.string?

/-- A score: a number without its fraction, cut to the range from 0 to 100. Anything but a number
scores 0, and what is a floating-point value but no number is refused. -/
def score : Option Json → Except Chat.Failure Nat
  | some (.int n) => .ok (min n.toNat 100)
  | some (.float x) =>
    match Number.Binary64.ofFloat x with
    | .nan => .error .scoreNotANumber
    | .infinite negative => .ok (if negative then 0 else 100)
    | .finite negative significand exponent =>
      .ok (if negative then 0 else min (Number.Binary64.wholePart significand exponent) 100)
  | _ => .ok 0

/-- A remark as text. An object stands for its first given field among three, or else for its own
document; null is no remark. -/
def remark? : Json → Option String
  | .null => none
  | .object fields =>
    match ["text", "title", "description"].findSome? (given? fields) with
    | some value => some value.shown
    | none => some (Json.compact (.object fields))
  | value => some value.shown

/-- The remarks in a list. Anything but a list holds none. -/
def remarksIn : Option Json → List String
  | some (.array items) => items.filterMap remark?
  | _ => []

/-- A text field that may be absent. -/
def optionalText (fields : Json.Fields) (key default : String) : Option String :=
  match fields.get? key with
  | none => some default
  | some value => value.string?

/-- A text field that may be absent or null. -/
def nullableText (fields : Json.Fields) (key : String) : Option (Option String) :=
  match fields.get? key with
  | none | some .null => some none
  | some (.string s) => some (some s)
  | some _ => none

/-- A name in lower case, without blanks around it. -/
def plainName (s : String) : String :=
  String.ofList ((Text.trim s.toList).map Char.toLower)

/-- The step that some fields describe. -/
def SuggestedStep.ofFields? (fields : Json.Fields) : Option SuggestedStep := do
  let role ← StepRole.ofName? (plainName (← text? (fields.get? "role")))
  let title ← text? (fields.get? "title")
  let description ← optionalText fields "description" ""
  let condition ← nullableText fields "condition"
  some { role, title, description, condition }

/-- The step of a suggestion: none is fine, but one that is not complete is not. -/
def stepIn? (fields : Json.Fields) : Option (Option SuggestedStep) :=
  match (given? fields "suggestedNode").or (fields.get? "suggested_node") with
  | some (.object step) => (SuggestedStep.ofFields? step).map some
  | _ => some none

/-- A title without blanks around it, unless it is blank. -/
def title? (s : String) : Option String :=
  (some (Text.trimmed s)).filter (· != "")

/-- A description: a text, or nothing given. -/
def description? (fields : Json.Fields) : Option String :=
  match given? fields "description" with
  | none => some ""
  | some value => value.string?

/-- The suggestion that a value describes, if it is complete. -/
def Suggestion.ofJson? (value : Json) : Option Suggestion := do
  let fields ← value.fields?
  let topic ← Topic.ofName? (← text? (fields.get? "type"))
  let priority ← Priority.ofName? (← text? (fields.get? "priority"))
  let title ← title? (← text? (fields.get? "title"))
  let description ← description? fields
  let step ← stepIn? fields
  some { topic, priority, title, description, step }

/-- The suggestions in a list that are complete. Anything but a list holds none. -/
def suggestionsIn : Option Json → List Suggestion
  | some (.array items) => items.filterMap Suggestion.ofJson?
  | _ => []

/-- Whether a value is the truth value false. -/
def isFalse : Option Json → Bool
  | some (.bool false) => true
  | _ => false

/-- The assessment that the fields of an answer describe. -/
def Assessment.ofFields (fields : Json.Fields) : Except Chat.Failure Assessment := do
  let completeness ← score (either? fields "completenessScore" "completeness_score")
  let clarity ← score (either? fields "clarityScore" "clarity_score")
  return {
    analyzable := !isFalse (fields.get? "analyzable")
    reason := text? (fields.get? "reason")
    completeness
    clarity
    strengths := remarksIn (fields.get? "strengths")
    weaknesses := remarksIn (fields.get? "weaknesses")
    suggestions := suggestionsIn (fields.get? "suggestions")
    improvedPrompt := text? (either? fields "improvedPrompt" "improved_prompt") }

/-- The assessment in the answer of a language model. -/
def readAnswer (text : String) (depth : Nat := Json.maxDepth) : Except Chat.Failure Assessment := do
  Assessment.ofFields (← objectIn text depth)

end Flowchart.Review
