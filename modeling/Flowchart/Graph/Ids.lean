/-!
# Fresh ids

A source of ids that never hands out an id twice: a stem, an underscore and a number that counts up
from one.
-/

set_option autoImplicit false

namespace Flowchart

/-- A source of ids. -/
structure IdSource where
  stem : String := "node"
  issued : Nat := 0
deriving DecidableEq, Repr

namespace IdSource

/-- The id with a number. -/
def numbered (source : IdSource) (number : Nat) : String :=
  source.stem ++ "_" ++ Nat.repr number

/-- The next id, and the source after it was handed out. -/
def next (source : IdSource) : String × IdSource :=
  (source.numbered (source.issued + 1), { source with issued := source.issued + 1 })

/-- As many ids as asked for, and the source after they were handed out. -/
def take : Nat → IdSource → List String × IdSource
  | 0, source => ([], source)
  | count + 1, source =>
    let (id, source) := source.next
    let (ids, source) := source.take count
    (id :: ids, source)

end IdSource

end Flowchart
