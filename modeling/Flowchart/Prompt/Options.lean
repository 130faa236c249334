/-!
# What a prompt is to ask for

The choices that shape an implementation prompt: what is to be made from the flow, how strictly the
flow is to be followed, how detailed the answer is to be, and which sections are added.
-/

set_option autoImplicit false

namespace Flowchart.Prompt

/-- What is to be made from a flow. -/
inductive Purpose where
  | code
  | architecture
  | refactor
  | tests
deriving DecidableEq, Repr

namespace Purpose

/-- All purposes. -/
def all : List Purpose := [code, architecture, refactor, tests]

/-- The name of a purpose in documents. -/
def name : Purpose → String
  | code => "code"
  | architecture => "architecture"
  | refactor => "refactor"
  | tests => "tests"

/-- The sentence that states the purpose. -/
def goal : Purpose → String
  | code => "The goal is to implement the described logic as production-ready code."
  | architecture => "The goal is to design a clean software architecture for the described logic."
  | refactor => "The goal is to refactor existing code so it matches the described logic."
  | tests => "The goal is to generate meaningful automated tests for the described logic."

/-- The instructions that go with the purpose. -/
def instructions : Purpose → List String
  | code => [
    "Generate production-ready code.",
    "Use clear naming and consistent structure.",
    "Do not include explanations outside of code comments."]
  | architecture => [
    "Describe the system architecture implied by the logic.",
    "Focus on components, responsibilities, and data flow.",
    "Avoid implementation details unless necessary."]
  | refactor => [
    "Refactor existing code to better match the described logic.",
    "Preserve external behavior unless explicitly stated otherwise.",
    "Explain structural changes briefly."]
  | tests => [
    "Generate tests that validate the described logic.",
    "Cover happy paths, decision branches, and edge cases.",
    "Use clear, deterministic test cases."]

end Purpose

/-- How strictly a flow is to be followed. -/
inductive Strictness where
  | low
  | medium
  | high
deriving DecidableEq, Repr

namespace Strictness

/-- All degrees of strictness. -/
def all : List Strictness := [low, medium, high]

/-- The name of a degree in documents. -/
def name : Strictness → String
  | low => "low"
  | medium => "medium"
  | high => "high"

/-- The sentence that states the degree. -/
def rule : Strictness → String
  | high => "Follow the described logic strictly. Do not add features or assumptions."
  | medium =>
    "Follow the logic carefully. Minor improvements are allowed if explicitly justified."
  | low => "Use the logic as guidance. You may make reasonable design decisions."

end Strictness

/-- How detailed an answer is to be. -/
inductive Detail where
  | brief
  | normal
  | detailed
deriving DecidableEq, Repr

namespace Detail

/-- All degrees of detail. -/
def all : List Detail := [brief, normal, detailed]

/-- The name of a degree in documents. -/
def name : Detail → String
  | brief => "brief"
  | normal => "normal"
  | detailed => "detailed"

/-- The requirements that go with the degree. -/
def requirements : Detail → List String
  | brief => ["- Provide only the core implementation."]
  | normal => ["- Provide clean, readable code with minimal comments."]
  | detailed => [
    "- Provide well-structured code with comments explaining decisions.",
    "- Highlight any edge cases or assumptions explicitly."]

end Detail

/-- The choices that shape a prompt. -/
structure Options where
  purpose : Purpose := .code
  strictness : Option Strictness := none
  detail : Option Detail := none
  /-- Whether the instructions of the purpose are added. -/
  withInstructions : Bool := false
  /-- Whether the diagram of the flow is added. -/
  withDiagram : Bool := false
deriving DecidableEq, Repr

end Flowchart.Prompt
