import Flowchart.Proofs.Walk.Turns
import Mathlib.Logic.Relation

/-!
# What the walk along all edges reaches

The walk reaches an id exactly when a path of edges leads to it from a start node. Each turn keeps
three things: whatever was reached or waits in the queue lies on such a path, no start node is
missing, and an edge from a reached id leads to an id that was reached or waits. When the queue is
empty, the reached ids are therefore closed under the edges.
-/

set_option autoImplicit false

namespace Flowchart

open Relation (ReflTransGen)

namespace Graph

/-- An edge leads from one id to another. -/
def Leads (g : Graph) (source target : String) : Prop :=
  ∃ x ∈ g.edges, x.source = source ∧ x.target = target

/-- The targets of an id are the ids that its edges lead to. -/
theorem mem_targets_iff {g : Graph} {source target : String} :
    target ∈ g.targets source ↔ g.Leads source target := by
  simp [targets, outgoing, Leads, and_assoc]

/-- A path of edges leads to an id from a start node. -/
def Accessible (g : Graph) (id : String) : Prop :=
  ∃ n ∈ g.startNodes, ReflTransGen g.Leads n.id id

end Graph

namespace Flood

/-- What every turn of the walk keeps. -/
structure Invariant (g : Graph) (f : Flood) : Prop where
  accessible : ∀ id, id ∈ f.reached ∨ id ∈ f.queue → g.Accessible id
  starts : ∀ n ∈ g.startNodes, n.id ∈ f.reached ∨ n.id ∈ f.queue
  closed : ∀ source ∈ f.reached, ∀ target, g.Leads source target →
    target ∈ f.reached ∨ target ∈ f.queue

/-- Before its first turn, all start nodes wait in the queue, and nothing else does. -/
theorem invariant_start (g : Graph) : Invariant g (start g) where
  accessible := by
    intro id known
    simp only [start, List.not_mem_nil, false_or, List.mem_map] at known
    obtain ⟨n, isStart, rfl⟩ := known
    exact ⟨n, isStart, .refl⟩
  starts n isStart := .inr (List.mem_map_of_mem isStart)
  closed := by simp [start]

/-- A turn keeps the invariant. -/
theorem invariant_step {g : Graph} {f f' : Flood} (h : Invariant g f) (turn : f.step g = some f') :
    Invariant g f' := by
  unfold step at turn
  split at turn
  · simp at turn
  · rename_i id rest queue
    have waits (other : String) : other ∈ f.queue ↔ other = id ∨ other ∈ rest := by
      rw [queue, List.mem_cons]
    split at turn
    · rename_i old
      obtain rfl := Option.some.inj turn
      have reached : id ∈ f.reached := by simpa using old
      -- An id that leaves the queue as an old one is still among those that were reached.
      have kept (other : String) (known : other ∈ f.reached ∨ other ∈ f.queue) :
          other ∈ f.reached ∨ other ∈ rest := by
        rw [waits] at known
        rcases known with before | rfl | later
        · exact .inl before
        · exact .inl reached
        · exact .inr later
      refine ⟨?_, ?_, ?_⟩
      · intro other known
        exact h.accessible other (known.imp_right fun later => (waits other).2 (.inr later))
      · intro n isStart
        exact kept n.id (h.starts n isStart)
      · intro source old target leads
        exact kept target (h.closed source old target leads)
    · obtain rfl := Option.some.inj turn
      have here : g.Accessible id := h.accessible id (.inr ((waits id).2 (.inl rfl)))
      have mem_queue (other : String) :
          other ∈ rest ++ (g.targets id).filter (fun t => !(id :: f.reached).contains t) ↔
            other ∈ rest ∨ g.Leads id other ∧ other ∉ id :: f.reached := by
        rw [List.mem_append, List.mem_filter, Graph.mem_targets_iff]
        simp
      -- The first id of the queue moves to the reached ones.
      have kept (other : String) (known : other ∈ f.reached ∨ other ∈ f.queue) :
          other ∈ id :: f.reached ∨ other ∈ rest := by
        rw [waits] at known
        rcases known with before | rfl | later
        · exact .inl (List.mem_cons_of_mem id before)
        · exact .inl List.mem_cons_self
        · exact .inr later
      refine ⟨?_, ?_, ?_⟩
      · intro other known
        simp only [mem_queue, List.mem_cons] at known
        rcases known with (rfl | before) | later | ⟨leads, -⟩
        · exact here
        · exact h.accessible other (.inl before)
        · exact h.accessible other (.inr ((waits other).2 (.inr later)))
        · obtain ⟨n, isStart, path⟩ := here
          exact ⟨n, isStart, path.tail leads⟩
      · intro n isStart
        rw [mem_queue]
        rcases kept n.id (h.starts n isStart) with before | later
        · exact .inl before
        · exact .inr (.inl later)
      · intro source old target leads
        rw [mem_queue]
        by_cases known : target ∈ id :: f.reached
        · exact .inl known
        · rcases List.mem_cons.1 old with rfl | before
          · exact .inr (.inr ⟨leads, known⟩)
          · rcases kept target (h.closed source before target leads) with new | later
            · exact absurd new known
            · exact .inr (.inl later)

/-- So do all turns together. -/
theorem invariant_run {g : Graph} {f : Flood} (h : Invariant g f) : Invariant g (f.run g) := by
  induction f using run.induct g with
  | case1 f ended =>
    rw [run_of_step_none ended]
    exact h
  | case2 f next turn ih =>
    rw [run_of_step_some turn]
    exact ih (invariant_step h turn)

/-- The walk ends when its queue is empty. -/
theorem queue_run (g : Graph) (f : Flood) : (f.run g).queue = [] := by
  induction f using run.induct g with
  | case1 f ended =>
    rw [run_of_step_none ended]
    unfold step at ended
    split at ended
    · assumption
    · split at ended <;> simp at ended
  | case2 f next turn ih =>
    rw [run_of_step_some turn]
    exact ih

end Flood

/-- An id is reached exactly when a path of edges leads to it from a start node. -/
theorem Graph.mem_reachable_iff {g : Graph} {id : String} :
    id ∈ g.reachable ↔ g.Accessible id := by
  have kept := Flood.invariant_run (Flood.invariant_start g)
  have queue := Flood.queue_run g (Flood.start g)
  constructor
  · intro reached
    exact kept.accessible id (.inl reached)
  · rintro ⟨n, isStart, path⟩
    unfold reachable
    induction path with
    | refl => simpa [queue] using kept.starts n isStart
    | tail _ leads ih => simpa [queue] using kept.closed _ ih _ leads

instance (g : Graph) : DecidablePred g.Accessible :=
  fun _ => decidable_of_iff _ Graph.mem_reachable_iff

/-- The ids that are listed as out of reach are those of steps that no path leads to. -/
theorem Graph.mem_unreachable_iff {g : Graph} {id : String} :
    id ∈ g.unreachable ↔ ¬ g.Accessible id ∧ ∃ n ∈ g.steps, n.id = id := by
  rw [← mem_reachable_iff]
  unfold unreachable steps
  simp only [List.mem_map, List.mem_filter, Bool.and_eq_true, Bool.not_eq_true',
    List.contains_eq_mem, decide_eq_false_iff_not]
  constructor
  · rintro ⟨n, ⟨mem, missed, isStep⟩, rfl⟩
    exact ⟨missed, n, ⟨mem, isStep⟩, rfl⟩
  · rintro ⟨missed, n, ⟨mem, isStep⟩, rfl⟩
    exact ⟨n, ⟨mem, missed, isStep⟩, rfl⟩

/-- They are listed in declaration order, and an id that several such steps share is listed for each
of them. -/
theorem Graph.unreachable_eq (g : Graph) :
    g.unreachable = (g.steps.filter fun n => ¬ g.Accessible n.id).map (·.id) := by
  have missed (n : Node) : (!g.reachable.contains n.id) = decide (¬ g.Accessible n.id) := by
    rw [decide_not, ← List.elem_eq_contains, List.elem_eq_mem]
    simp only [mem_reachable_iff]
  unfold unreachable steps
  rw [List.filter_filter]
  simp only [missed]

/-- A step is reached through an id that no node has; an id out of reach that two steps share is
listed twice. -/
example : Graph.unreachable {
    nodes := [
      { id := "a", kind := .input, title := "Ask" },
      { id := "b", kind := .process, title := "Search" },
      { id := "c", kind := .process, title := "Wait" },
      { id := "c", kind := .output, title := "Give up" }]
    edges := [{ source := "a", target := "ghost" }, { source := "ghost", target := "b" }] } =
    ["c", "c"] := by
  decide +kernel

end Flowchart
