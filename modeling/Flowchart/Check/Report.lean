import Flowchart.Check.Issue
import Flowchart.Text.Lines

/-!
# Reports

The outcome of checking a flow: its issues in the order in which the checks are made. A flow is
valid when none of them is an error. A report that is not valid can be turned into a refusal, which
carries the errors only.
-/

set_option autoImplicit false

namespace Flowchart.Check

/-- The issues of a flow. -/
structure Report where
  issues : List Issue
deriving DecidableEq, Repr

namespace Report

/-- The issues that are errors. -/
def errors (r : Report) : List Issue := r.issues.filter Issue.isError

/-- The issues that are warnings. -/
def warnings (r : Report) : List Issue := r.issues.filter fun i => !i.isError

/-- A flow is valid when no issue is an error. -/
def isValid (r : Report) : Bool := !r.issues.any Issue.isError

/-- The report in one line. -/
def summary (r : Report) : String :=
  (if r.isValid then "Valid" else "Invalid") ++ " | Errors: " ++ Nat.repr r.errors.length ++
    ", Warnings: " ++ Nat.repr r.warnings.length

/-- The fields of the document of a report. -/
def fields (r : Report) : List (String × Json) := [
  ("is_valid", .bool r.isValid),
  ("error_count", .int r.errors.length),
  ("warning_count", .int r.warnings.length),
  ("issues", .array (r.issues.map Issue.toJson))]

/-- The document of a report. -/
def toJson (r : Report) : Json := .object r.fields

end Report

/-- The refusal of a flow that is not valid, with its errors. -/
structure Refusal where
  errors : List Issue
deriving DecidableEq, Repr

/-- The wording of a refusal: a line for the number of errors and a line for each of them. -/
def Refusal.message (r : Refusal) : String :=
  Text.unlines
    (("Graph validation failed with " ++ Nat.repr r.errors.length ++ " errors:") ::
      r.errors.map fun i => "[" ++ i.code ++ "] " ++ i.message)

/-- The report itself if it is valid, and its refusal otherwise. -/
def Report.orRefusal (r : Report) : Except Refusal Report :=
  if r.isValid then .ok r else .error ⟨r.errors⟩

end Flowchart.Check
