import Flowchart.Walk.Pending

/-!
# Finding a cycle

A depth-first walk from the start nodes that keeps the path it is on. An edge that leads back into
the path closes a cycle. An id that was visited before, but is not on the path, leads to no cycle
and is skipped. `Search.step` is one turn of the walk and `Search.run` takes turns until a cycle is
found or nothing is left to look at.
-/

set_option autoImplicit false

namespace Flowchart

/-- An id on the path, with the targets of its edges that are still to be tried. -/
structure PathEntry where
  id : String
  untried : List String
deriving DecidableEq, Repr

/-- A depth-first walk under way: the start ids not yet tried, the ids visited so far, and the path,
its last id first. -/
structure Search where
  starts : List String
  visited : List String
  trail : List PathEntry
deriving DecidableEq, Repr

/-- What a turn of the walk comes to. -/
inductive Turn where
  | found (cycle : List String)
  | exhausted
  | on (s : Search)

namespace Search

/-- The ids on the path, in the order of the path. -/
def path (s : Search) : List String :=
  (s.trail.map (·.id)).reverse

/-- The cycle that an edge to an id on the path closes: the path from that id on, and the id once
more. -/
def closing (s : Search) (id : String) : List String :=
  s.path.dropWhile (· != id) ++ [id]

/-- The walk after a new id was put at the end of a path. -/
def enter (g : Graph) (s : Search) (id : String) (trail : List PathEntry) : Search :=
  { s with visited := id :: s.visited, trail := ⟨id, g.targets id⟩ :: trail }

/-- One turn of the walk. -/
def step (g : Graph) (s : Search) : Turn :=
  match s.trail with
  | [] =>
    match s.starts with
    | [] => .exhausted
    | id :: starts =>
      if s.visited.contains id then .on { s with starts }
      else .on (enter g { s with starts } id [])
  | ⟨_, []⟩ :: outer => .on { s with trail := outer }
  | ⟨id, target :: untried⟩ :: outer =>
    if s.path.contains target then .found (s.closing target)
    else if s.visited.contains target then .on { s with trail := ⟨id, untried⟩ :: outer }
    else .on (enter g s target (⟨id, untried⟩ :: outer))

/-- The number of targets on the path that are still to be tried. -/
def untried (s : Search) : Nat :=
  (s.trail.flatMap fun entry => entry.untried).length

/-- How many turns the walk can still take. -/
def measure (g : Graph) (s : Search) : Nat :=
  2 * (g.pending s.visited + s.untried + s.starts.length) + s.trail.length

/-- Entering a new id adds one turn, the one that leaves it again. Its edges are no longer pending,
but they wait to be tried. -/
theorem measure_enter (g : Graph) (s : Search) {id : String} (trail : List PathEntry)
    (new : s.visited.contains id = false) :
    (s.enter g id trail).measure g = measure g { s with trail } + 1 := by
  have spent := g.pending_cons new
  have size := g.length_targets id
  simp only [measure, enter, untried, List.flatMap_cons, List.length_append, List.length_cons]
  omega

/-- Every turn makes the number of turns that are left smaller. -/
theorem measure_step_lt (g : Graph) {s s' : Search} (h : s.step g = .on s') :
    s'.measure g < s.measure g := by
  unfold step at h
  split at h
  · rename_i trail
    split at h
    · simp at h
    · rename_i id starts atStart
      split at h
      · obtain rfl := Turn.on.inj h
        simp only [measure, untried, trail, atStart, List.length_cons]
        omega
      · rename_i new
        obtain rfl := Turn.on.inj h
        rw [measure_enter g { s with starts } [] (Bool.eq_false_iff.2 new)]
        simp only [measure, untried, trail, atStart, List.length_cons]
        omega
  · rename_i id outer trail
    obtain rfl := Turn.on.inj h
    simp only [measure, untried, trail, List.flatMap_cons, List.length_append, List.length_cons,
      List.length_nil]
    omega
  · rename_i id target untried outer trail
    split at h
    · simp at h
    · split at h
      · obtain rfl := Turn.on.inj h
        simp only [measure, Search.untried, trail, List.flatMap_cons, List.length_append,
          List.length_cons]
        omega
      · rename_i new
        obtain rfl := Turn.on.inj h
        rw [measure_enter g s _ (Bool.eq_false_iff.2 new)]
        simp only [measure, Search.untried, trail, List.flatMap_cons, List.length_append,
          List.length_cons]
        omega

/-- Takes turns until the walk ends: the cycle found, or nothing. -/
def run (g : Graph) (s : Search) : List String :=
  match _taken : s.step g with
  | .found cycle => cycle
  | .exhausted => []
  | .on next => run g next
termination_by s.measure g
decreasing_by exact measure_step_lt g _taken

/-- The walk before its first turn. -/
def start (g : Graph) : Search where
  starts := g.startNodes.map (·.id)
  visited := []
  trail := []

end Search

/-- The first cycle that a depth-first walk from the start nodes closes, as ids with the closing one
at either end; empty if there is none. -/
def Graph.findCycle (g : Graph) : List String :=
  (Search.start g).run g

/-- Whether the start nodes lead into a cycle. -/
def Graph.hasCycle (g : Graph) : Bool :=
  !g.findCycle.isEmpty

end Flowchart
