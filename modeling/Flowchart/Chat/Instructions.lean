import Flowchart.Text.Lines

/-!
# Instructions for writing outlines

The texts that ask a language model to write an outline, to change one, or to look one over. They
quote the rules of outlines and, where there is one, the outline at hand inside a fenced block.
-/

set_option autoImplicit false

namespace Flowchart.Chat

/-- The rules of outlines. -/
def formatRules : String := Text.unlines [
  "**Node types:**",
  "- **INPUT** = data source, parameter, user input",
  "- **PROCESS** = processing, transformation, calculation, API call",
  "- **DECISION** = one concrete yes/no question",
  "- **OUTPUT** = result, success or error message",
  "",
  "**Critical format rules:**",
  "- Every line MUST start with `INPUT:`, `PROCESS:`, `DECISION:` or `OUTPUT:`",
  "- Title and description MUST be separated by ` | `",
  "- Decision branches: exactly 2 spaces, then `YES ->` or `NO ->`",
  "- A branch target is the exact title of another node (case-sensitive!)",
  "- Every DECISION MUST have both branches (YES and NO)",
  "",
  "**Important patterns:**",
  "- **Several inputs:** use several INPUT nodes when several data sources are needed",
  "- **Atomic decisions:** one decision = one concrete yes/no question",
  "- **Explicit connections:** every branch must lead to an existing node",
  "- **Completeness:** every path must end in an OUTPUT",
  "- **PROCESS -> OUTPUT is never connected automatically.** After a PROCESS that",
  "  should lead to an OUTPUT, add a DECISION whose branch names the OUTPUT."]

/-- An outline that shows the rules at work. -/
def exampleOutline : String := Text.unlines [
  "INPUT: Login data | Email and password entered by the user",
  "PROCESS: Look up user | Database query by email",
  "DECISION: User exists? | Check whether the user is stored",
  "  YES -> Check password",
  "  NO -> User not found",
  "PROCESS: Check password | Hash comparison (bcrypt/argon2)",
  "DECISION: Password correct? | Compare entered password with stored hash",
  "  YES -> Login successful",
  "  NO -> Wrong password",
  "OUTPUT: Login successful | Issue token and start session",
  "OUTPUT: User not found | Error 404",
  "OUTPUT: Wrong password | Error 401"]

/-- Sections with an empty line between two of them. -/
def sections (texts : List String) : String :=
  "\n\n".intercalate texts

/-- A heading, and below it a text inside a fenced block. -/
def fencedBelow (heading text : String) : String :=
  heading ++ "\n```\n" ++ text ++ "\n```"

/-- The task of writing an outline, or of changing the one at hand. An empty outline is none. -/
def outlineTask (current : Option String) : String :=
  match current.filter (· != "") with
  | none => "**YOUR TASK:** Create a new flow from the user's description."
  | some outline =>
    sections [
      "**IMPORTANT:** A flow already exists. The user wants to adjust or refine it. " ++
        "Modify the existing flow based on the feedback.",
      fencedBelow "**Current flow:**" outline,
      "Keep the basic structure unless the user explicitly asks for larger changes."]

/-- The instructions for writing an outline from a description, or for changing the one at hand. -/
def writingInstructions (current : Option String := none) : String :=
  sections [
    "You are a software architecture assistant. The user describes a process or " ++
      "piece of logic in natural language. Turn it into a structured logic flow " ++
      "that the flow parser can read.",
    outlineTask current,
    formatRules,
    fencedBelow "**Example (login):**" exampleOutline,
    Text.unlines [
      "**IMPORTANT:**",
      "- Return ONLY the flow, no explanations",
      "- Use concrete, concise titles",
      "- Descriptions are optional but helpful",
      "- Think about error cases and alternative paths"]]

/-- The instructions for looking an outline over and returning a corrected one. -/
def correctionInstructions (outline : String) : String :=
  sections [
    "You are a senior software engineer. The user created the following logic flow.",
    fencedBelow "**FLOW:**" outline,
    Text.unlines [
      "**YOUR TASK:** Ask yourself: is this flow logical and complete?",
      "- Does the order make sense?",
      "- Are all necessary steps present?",
      "- Do all branches lead to sensible targets?",
      "- Are connections missing?",
      "- Are decision questions clear and atomic?",
      "- Do the error outputs match the failure cases?"],
    "If the flow is logical, return it unchanged (descriptions may be improved). " ++
      "If it is not, fix the problems and return the corrected version.",
    formatRules,
    "**OUTPUT:** Return the complete revised flow. Only the format, no explanation."]

end Flowchart.Chat
