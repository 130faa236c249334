import Flowchart.Graph.Basic
import Flowchart.Json.Basic

/-!
# What reading an outline can find fault with

None of these findings stops the reading. Each one belongs to a line of the outline and quotes the
part of the text that it is about.
-/

set_option autoImplicit false

namespace Flowchart.Outline

/-- Something odd in an outline. -/
inductive Finding where
  /-- The line is no statement. -/
  | ignoredLine
  /-- A decision says more than once where a branch leads; the last time counts. -/
  | repeatedBranch (decision : String) (branch : Branch) (target : String)
  /-- Two steps have the same title; branches that name it lead to the last of them. -/
  | repeatedTitle (title : String)
  /-- A branch leads to a title that no step has. -/
  | unknownTarget (decision : String) (branch : Branch) (target : String)
deriving DecidableEq, Repr

/-- A finding with its place. -/
structure Diagnostic where
  finding : Finding
  line : Nat
  text : String
deriving DecidableEq, Repr

/-- The groups of findings. -/
inductive DiagnosticKind where
  | ambiguity
  | danglingTarget
  | duplicateTitle
deriving DecidableEq, Repr

/-- The name of a group in documents. -/
def DiagnosticKind.name : DiagnosticKind → String
  | ambiguity => "parse_ambiguity"
  | danglingTarget => "dangling_branch_target"
  | duplicateTitle => "duplicate_title"

/-- The group of a finding. -/
def Finding.kind : Finding → DiagnosticKind
  | ignoredLine | repeatedBranch .. => .ambiguity
  | repeatedTitle _ => .duplicateTitle
  | unknownTarget .. => .danglingTarget

/-- The wording of a finding. -/
def Finding.message : Finding → String
  | ignoredLine => "Line does not match any statement and was ignored"
  | repeatedBranch decision branch target =>
    "Decision '" ++ decision ++ "' declares " ++ branch.keyword ++ " more than once; keeping '" ++
      target ++ "'"
  | repeatedTitle title =>
    "Title '" ++ title ++ "' is declared more than once; " ++
      "branches naming it resolve to the last declaration"
  | unknownTarget decision branch target =>
    branch.keyword ++ " branch of '" ++ decision ++ "' names unknown node '" ++ target ++ "'"

namespace Diagnostic

/-- The group of a diagnostic. -/
def kind (d : Diagnostic) : DiagnosticKind := d.finding.kind

/-- The wording of a diagnostic. -/
def message (d : Diagnostic) : String := d.finding.message

/-- The document of a diagnostic. -/
def toJson (d : Diagnostic) : Json := .object [
  ("kind", .string d.kind.name),
  ("message", .string d.message),
  ("line_number", .int d.line),
  ("text", .string d.text)]

end Diagnostic

end Flowchart.Outline
