import Flowchart.Walk.Pending

/-!
# Which steps can be reached

A breadth-first walk from the start nodes along all edges, by id. Ids that no node has are walked
through like any other. The walk is a queue that is taken from the front; `Flood.step` is one turn
of it, and `Flood.run` takes turns until the queue is empty.
-/

set_option autoImplicit false

namespace Flowchart

/-- A breadth-first walk under way: the ids to be looked at, and the ids reached so far. -/
structure Flood where
  queue : List String
  reached : List String
deriving DecidableEq, Repr

namespace Flood

/-- One turn of the walk: takes the first id of the queue and, if it is new, puts the ids that its
edges lead to at the end, save those already reached. -/
def step (g : Graph) (f : Flood) : Option Flood :=
  match f.queue with
  | [] => none
  | id :: rest =>
    if f.reached.contains id then some { f with queue := rest }
    else
      let reached := id :: f.reached
      some { queue := rest ++ (g.targets id).filter (!reached.contains ·), reached }

/-- How many turns the walk can still take. -/
def measure (g : Graph) (f : Flood) : Nat :=
  g.pending f.reached + f.queue.length

/-- Every turn makes the number of turns that are left smaller. -/
theorem measure_step_lt (g : Graph) {f f' : Flood} (h : f.step g = some f') :
    f'.measure g < f.measure g := by
  unfold step at h
  split at h
  · simp at h
  · rename_i id rest queue
    split at h
    · obtain rfl := Option.some.inj h
      simp [measure, queue]
    · rename_i new
      obtain rfl := Option.some.inj h
      have spent := g.pending_cons (Bool.eq_false_iff.2 new)
      have kept := List.length_filter_le (fun t => !(id :: f.reached).contains t) (g.targets id)
      rw [g.length_targets] at kept
      simp only [measure, queue, List.length_append, List.length_cons]
      omega

/-- Takes turns until the queue is empty. -/
def run (g : Graph) (f : Flood) : Flood :=
  match _taken : f.step g with
  | none => f
  | some next => run g next
termination_by f.measure g
decreasing_by exact measure_step_lt g _taken

/-- The walk before its first turn. -/
def start (g : Graph) : Flood where
  queue := g.startNodes.map (·.id)
  reached := []

end Flood

/-- The ids that can be reached from the start nodes, those included. -/
def Graph.reachable (g : Graph) : List String :=
  ((Flood.start g).run g).reached

/-- The ids of the steps that cannot be reached, in declaration order. -/
def Graph.unreachable (g : Graph) : List String :=
  let reachable := g.reachable
  (g.nodes.filter fun n => !reachable.contains n.id && n.isStep).map (·.id)

end Flowchart
