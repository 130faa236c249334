import Flowchart.Walk.Pending

/-!
# The order in which a flow is read

A depth-first walk from the entry. A decision is followed by everything on its yes branch before
anything on its no branch; any other node by its edges in declaration order. A node is listed when
it is first entered, anchors are walked through without being listed, and the steps that the walk
does not reach come last, in declaration order. `Tour.step` is one turn of the walk.
-/

set_option autoImplicit false

namespace Flowchart

/-- The edges that leave a node in the order in which they are read. -/
def Graph.edgesInOrder (g : Graph) (n : Node) : List Edge :=
  let edges := g.outgoing n.id
  if n.kind = .decision then
    edges.filter (fun e => e.branch == some .yes) ++ edges.filter (fun e => e.branch == some .no) ++
      edges.filter (fun e => e.branch.isNone)
  else edges

/-- Where the edges that leave a node lead, in the order in which they are read. -/
def Graph.targetsInOrder (g : Graph) (n : Node) : List String :=
  (g.edgesInOrder n).map (·.target)

/-- A walk under way: the ids entered so far, the nodes listed so far, the latest first, and for
each node on the path the targets still to be tried, the innermost first. -/
structure Tour where
  entered : List String
  listed : List Node
  trail : List (List String)
deriving DecidableEq, Repr

namespace Tour

/-- The walk after a node was entered. -/
def enter (g : Graph) (t : Tour) (id : String) (n : Node) (trail : List (List String)) : Tour where
  entered := id :: t.entered
  listed := if n.isStep then n :: t.listed else t.listed
  trail := g.targetsInOrder n :: trail

/-- One turn of the walk. -/
def step (g : Graph) (t : Tour) : Option Tour :=
  match t.trail with
  | [] => none
  | [] :: outer => some { t with trail := outer }
  | (target :: untried) :: outer =>
    match g.lastNode? target with
    | none => some { t with trail := untried :: outer }
    | some n =>
      if t.entered.contains target then some { t with trail := untried :: outer }
      else some (enter g t target n (untried :: outer))

/-- The number of targets on the path that are still to be tried. -/
def untried (t : Tour) : Nat :=
  t.trail.flatten.length

/-- How many turns the walk can still take. -/
def measure (g : Graph) (t : Tour) : Nat :=
  2 * (g.pending t.entered + t.untried) + t.trail.length

/-- The node that is found for an id has this id. -/
theorem id_of_lastNode? {g : Graph} {id : String} {n : Node} (h : g.lastNode? id = some n) :
    n.id = id := by
  simpa using List.find?_some h

/-- A node has as many targets in order as edges that leave it: the order of the branches drops
none. -/
theorem length_targetsInOrder (g : Graph) (n : Node) :
    (g.targetsInOrder n).length = (g.outgoing n.id).length := by
  unfold Graph.targetsInOrder Graph.edgesInOrder
  split
  · induction g.outgoing n.id with
    | nil => rfl
    | cons e rest ih =>
      simp only [List.length_map, List.length_append, List.filter_cons, List.length_cons] at ih ⊢
      rcases branch : e.branch with _ | _ | _ <;> simp <;> omega
  · simp

/-- Entering a new node adds one turn, the one that leaves it again. Its edges are no longer
pending, but they wait to be tried. -/
theorem measure_enter (g : Graph) (t : Tour) {id : String} {n : Node} (trail : List (List String))
    (found : g.lastNode? id = some n) (new : t.entered.contains id = false) :
    (t.enter g id n trail).measure g = measure g { t with trail } + 1 := by
  have spent := g.pending_cons new
  have size := length_targetsInOrder g n
  rw [id_of_lastNode? found] at size
  simp only [measure, enter, untried, List.flatten_cons, List.length_append, List.length_cons]
  omega

/-- Every turn makes the number of turns that are left smaller. -/
theorem measure_step_lt (g : Graph) {t t' : Tour} (h : t.step g = some t') :
    t'.measure g < t.measure g := by
  unfold step at h
  split at h
  · simp at h
  · rename_i outer trail
    obtain rfl := Option.some.inj h
    simp only [measure, untried, trail, List.flatten_cons, List.length_append, List.length_cons,
      List.length_nil]
    omega
  · rename_i target untried outer trail
    split at h
    · obtain rfl := Option.some.inj h
      simp only [measure, Tour.untried, trail, List.flatten_cons, List.length_append,
        List.length_cons]
      omega
    · rename_i n found
      split at h
      · obtain rfl := Option.some.inj h
        simp only [measure, Tour.untried, trail, List.flatten_cons, List.length_append,
          List.length_cons]
        omega
      · rename_i new
        obtain rfl := Option.some.inj h
        rw [measure_enter g t _ found (Bool.eq_false_iff.2 new)]
        simp only [measure, Tour.untried, trail, List.flatten_cons, List.length_append,
          List.length_cons]
        omega

/-- Takes turns until nothing is left to try. -/
def run (g : Graph) (t : Tour) : Tour :=
  match _taken : t.step g with
  | none => t
  | some next => run g next
termination_by t.measure g
decreasing_by exact measure_step_lt g _taken

/-- The walk before its first turn, and before it has entered any node. -/
def idle : Tour := ⟨[], [], []⟩

/-- The walk after it entered the entry of the graph, if there is one. -/
def start (g : Graph) : Tour :=
  match g.entry?.bind fun n => g.lastNode? n.id with
  | some n => idle.enter g n.id n []
  | none => idle

end Tour

/-- The steps of a graph in reading order. -/
def Graph.inReadingOrder (g : Graph) : List Node :=
  let tour := (Tour.start g).run g
  tour.listed.reverse ++ g.nodes.filter fun n => !tour.entered.contains n.id && n.isStep

end Flowchart
