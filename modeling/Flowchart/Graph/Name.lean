import Flowchart.Graph.Basic
import Flowchart.Json.Writer

/-!
# Names of kinds and branches

Reading a kind or a branch from what is meant to be its name, with an error that shows what was
found instead.
-/

set_option autoImplicit false

namespace Flowchart

/-- What a name was meant to be the name of. -/
inductive Named where
  | kind
  | branch
deriving DecidableEq, Repr

/-- Something that should be a name and is not; `shown` is what was found instead. -/
structure UnknownName where
  role : Named
  shown : String
deriving DecidableEq, Repr

/-- The wording of the error. -/
def UnknownName.message (e : UnknownName) : String :=
  e.shown ++ " is not a valid " ++ match e.role with
    | .kind => "NodeKind"
    | .branch => "Branch"

/-- The kind with a name. -/
def NodeKind.named (name : String) : Except UnknownName NodeKind :=
  match NodeKind.ofName? name with
  | some kind => .ok kind
  | none => .error ⟨.kind, Text.quoted name⟩

/-- The branch with a name. -/
def Branch.named (name : String) : Except UnknownName Branch :=
  match Branch.ofName? name with
  | some branch => .ok branch
  | none => .error ⟨.branch, Text.quoted name⟩

/-- The kind that a value names. -/
def NodeKind.ofValue : Json → Except UnknownName NodeKind
  | .string name => NodeKind.named name
  | other => .error ⟨.kind, other.nested⟩

/-- The branch that a value names. -/
def Branch.ofValue : Json → Except UnknownName Branch
  | .string name => Branch.named name
  | other => .error ⟨.branch, other.nested⟩

end Flowchart
