import Flowchart.Proofs.Graph.Rename
import Flowchart.Proofs.Walk.Reach

/-!
# Walks under other ids

With other ids, every walk takes the same turns and comes to the same ids and nodes, under their new
ids. Only the equality of ids and the kinds of nodes enter into a turn; different ids stay
different, and kinds stay as they are.
-/

set_option autoImplicit false

namespace Flowchart

open Relation (ReflTransGen)

variable {f : String → String} {on : Node → Node}

/-! ## Reaching -/

/-- An edge leads from one id to another under their new ids too. -/
theorem Graph.leads_recast {g : Graph} {source target : String} (leads : g.Leads source target) :
    (g.recast f on).Leads (f source) (f target) := by
  obtain ⟨x, mem, rfl, rfl⟩ := leads
  exact ⟨x.rename f, List.mem_map_of_mem mem, rfl, rfl⟩

/-- The paths from a node under its new id are the paths from the node before. -/
theorem Graph.path_recast_iff (injective : Function.Injective f) {g : Graph} {source id : String} :
    ReflTransGen (g.recast f on).Leads (f source) (f id) ↔ ReflTransGen g.Leads source id := by
  constructor
  · intro path
    have origin : ∀ other, ReflTransGen (g.recast f on).Leads (f source) other →
        ∃ old, f old = other ∧ ReflTransGen g.Leads source old := by
      intro other path
      induction path with
      | refl => exact ⟨source, rfl, .refl⟩
      | tail _ leads ih =>
        obtain ⟨old, rfl, before⟩ := ih
        obtain ⟨x, mem, from_, rfl⟩ := leads
        obtain ⟨y, inGraph, rfl⟩ := List.mem_map.1 mem
        have same : y.source = old := injective from_
        exact ⟨y.target, rfl, before.tail ⟨y, inGraph, same, rfl⟩⟩
    obtain ⟨old, same, before⟩ := origin (f id) path
    rw [← injective same]
    exact before
  · intro path
    induction path with
    | refl => exact .refl
    | tail _ leads ih => exact ih.tail (leads_recast leads)

/-- What can be reached is reached under its new id, and only that. -/
theorem Graph.accessible_recast_iff (recasts : Node.Recasts f on) {g : Graph} {id : String} :
    (g.recast f on).Accessible (f id) ↔ g.Accessible id := by
  unfold Accessible
  rw [startNodes_recast recasts]
  simp only [List.mem_map, exists_exists_and_eq_and, recasts.id,
    path_recast_iff recasts.injective]

/-- The steps that cannot be reached are the same, under their new ids. -/
theorem Graph.unreachable_recast (recasts : Node.Recasts f on) (g : Graph) :
    (g.recast f on).unreachable = g.unreachable.map f := by
  have same (id : String) :
      (g.recast f on).reachable.contains (f id) = g.reachable.contains id := by
    rw [Bool.eq_iff_iff, List.contains_iff_mem, List.contains_iff_mem, mem_reachable_iff,
      mem_reachable_iff, accessible_recast_iff recasts]
  have ids : (fun n : Node => n.id) ∘ on = f ∘ fun n => n.id := funext recasts.id
  unfold unreachable
  simp only
  rw [show (g.recast f on).nodes = g.nodes.map on from rfl, List.filter_map, List.map_map,
    List.map_map, ids]
  refine congrArg (List.map _) (List.filter_congr fun n _ => ?_)
  rw [Function.comp_apply, recasts.id, same, isStep_recast recasts]

/-! ## Finding a cycle -/

/-- The id and its targets under other ids. -/
def PathEntry.rename (f : String → String) (entry : PathEntry) : PathEntry :=
  ⟨f entry.id, entry.untried.map f⟩

/-- The walk under other ids. -/
def Search.rename (f : String → String) (s : Search) : Search where
  starts := s.starts.map f
  visited := s.visited.map f
  trail := s.trail.map (PathEntry.rename f)

/-- The outcome of a turn under other ids. -/
def Turn.rename (f : String → String) : Turn → Turn
  | .found cycle => .found (cycle.map f)
  | .exhausted => .exhausted
  | .on s => .on (s.rename f)

namespace Search

/-- The path under other ids is the path with other ids. -/
theorem path_rename (f : String → String) (s : Search) : (s.rename f).path = s.path.map f := by
  unfold path rename
  rw [List.map_map, List.map_reverse, List.map_map]
  rfl

/-- The same part of the path closes the cycle, under other ids. -/
theorem closing_rename (injective : Function.Injective f) (s : Search) (id : String) :
    (s.rename f).closing (f id) = (s.closing id).map f := by
  unfold closing
  rw [path_rename, List.dropWhile_map, List.map_append]
  congr 3
  funext other
  simp only [Function.comp_apply, bne, injective.beq_eq]

section Recasts

variable (recasts : Node.Recasts f on)
include recasts

/-- The walk enters an id under its new name as it enters the id. -/
theorem enter_recast (g : Graph) (s : Search) (id : String) (trail : List PathEntry) :
    (s.rename f).enter (g.recast f on) (f id) (trail.map (PathEntry.rename f)) =
      (s.enter g id trail).rename f := by
  simp [enter, rename, PathEntry.rename, Graph.targets_recast recasts]

/-- Every turn of the walk is the same turn under other ids. -/
theorem step_recast (g : Graph) (s : Search) :
    (s.rename f).step (g.recast f on) = (s.step g).rename f := by
  obtain ⟨starts, visited, trail⟩ := s
  have visited_contains := Graph.contains_map_of_injective recasts.injective visited
  cases trail with
  | nil =>
    cases starts with
    | nil => rfl
    | cons id starts =>
      simp only [step, rename, List.map_nil, List.map_cons, visited_contains]
      split
      · rfl
      · exact congrArg Turn.on (enter_recast recasts g ⟨starts, visited, []⟩ id [])
  | cons entry outer =>
    obtain ⟨id, untried⟩ := entry
    cases untried with
    | nil => rfl
    | cons target untried =>
      let s : Search := ⟨starts, visited, ⟨id, target :: untried⟩ :: outer⟩
      -- Both sides choose among the same three turns, so it is enough that they choose alike.
      have path_contains : (s.rename f).path.contains (f target) = s.path.contains target := by
        rw [path_rename, Graph.contains_map_of_injective recasts.injective]
      have left : (s.rename f).step (g.recast f on) =
          if (s.rename f).path.contains (f target) then .found ((s.rename f).closing (f target))
          else if (visited.map f).contains (f target) then
            .on { s.rename f with trail := ⟨f id, untried.map f⟩ :: outer.map (PathEntry.rename f) }
          else .on (enter (g.recast f on) (s.rename f) (f target)
            (⟨f id, untried.map f⟩ :: outer.map (PathEntry.rename f))) := rfl
      have right : s.step g =
          if s.path.contains target then .found (s.closing target)
          else if visited.contains target then .on { s with trail := ⟨id, untried⟩ :: outer }
          else .on (enter g s target (⟨id, untried⟩ :: outer)) := rfl
      rw [left, right, path_contains, visited_contains, closing_rename recasts.injective]
      have entered := enter_recast recasts g s target (⟨id, untried⟩ :: outer)
      rw [List.map_cons] at entered
      split
      · rfl
      · split
        · rfl
        · exact congrArg Turn.on entered

/-- So the walk comes to the same cycle under other ids. -/
theorem run_recast (g : Graph) (s : Search) :
    (s.rename f).run (g.recast f on) = (s.run g).map f := by
  induction s using run.induct g with
  | case1 s cycle turn =>
    have renamed := step_recast recasts g s
    rw [turn] at renamed
    rw [run_of_step_found turn, run_of_step_found renamed]
  | case2 s turn =>
    have renamed := step_recast recasts g s
    rw [turn] at renamed
    rw [run_of_step_exhausted turn, run_of_step_exhausted renamed]
    rfl
  | case3 s next turn ih =>
    have renamed := step_recast recasts g s
    rw [turn] at renamed
    rw [run_of_step_on turn, run_of_step_on renamed]
    exact ih

end Recasts

end Search

/-- The cycle that is found is the same, under other ids. -/
theorem Graph.findCycle_recast (recasts : Node.Recasts f on) (g : Graph) :
    (g.recast f on).findCycle = g.findCycle.map f := by
  have ids : (fun n : Node => n.id) ∘ on = f ∘ fun n => n.id := funext recasts.id
  have start : Search.start (g.recast f on) = (Search.start g).rename f := by
    unfold Search.start Search.rename
    rw [startNodes_recast recasts, List.map_map, List.map_map, ids]
    rfl
  unfold findCycle
  rw [start, Search.run_recast recasts]

/-! ## Reading in order -/

/-- The walk under other ids, past changed nodes. -/
def Tour.recast (f : String → String) (on : Node → Node) (t : Tour) : Tour where
  entered := t.entered.map f
  listed := t.listed.map on
  trail := t.trail.map (List.map f)

section Recasts

variable (recasts : Node.Recasts f on)
include recasts

/-- The entry is the same node, changed like the others. -/
theorem Graph.entry?_recast (g : Graph) : Graph.entry? (g.recast f on) = g.entry?.map on := by
  unfold entry?
  rw [startNodes_recast recasts, List.head?_map]

/-- A changed node leads where the node leads, in the same order. -/
theorem Graph.targetsInOrder_recast (g : Graph) (n : Node) :
    (g.recast f on).targetsInOrder (on n) = (g.targetsInOrder n).map f := by
  have edges : (g.recast f on).edgesInOrder (on n) = (g.edgesInOrder n).map (Edge.rename f) := by
    unfold edgesInOrder
    simp only [recasts.id, recasts.kind, outgoing_recast recasts]
    split
    · simp only [List.filter_map, List.map_append]
      rfl
    · rfl
  unfold targetsInOrder
  rw [edges, List.map_map, List.map_map]
  rfl

namespace Tour

/-- The walk enters a changed node as it enters the node. -/
theorem enter_recast (g : Graph) (t : Tour) (id : String) (n : Node) (trail : List (List String)) :
    (t.recast f on).enter (g.recast f on) (f id) (on n) (trail.map (List.map f)) =
      (t.enter g id n trail).recast f on := by
  unfold enter recast
  rw [Graph.targetsInOrder_recast recasts, Graph.isStep_recast recasts]
  split <;> rfl

/-- Every turn of the walk is the same turn past changed nodes. -/
theorem step_recast (g : Graph) (t : Tour) :
    (t.recast f on).step (g.recast f on) = (t.step g).map (recast f on) := by
  obtain ⟨entered, listed, trail⟩ := t
  match trail with
  | [] => rfl
  | [] :: outer => rfl
  | (target :: untried) :: outer =>
    simp only [step, recast, List.map_cons, Graph.lastNode?_recast recasts,
      Graph.contains_map_of_injective recasts.injective]
    cases g.lastNode? target with
    | none => rfl
    | some n =>
      simp only [Option.map_some]
      split
      · rfl
      · exact congrArg some (enter_recast recasts g ⟨entered, listed, _⟩ target n
          (untried :: outer))

/-- So all turns together come to the same walk. -/
theorem run_recast (g : Graph) (t : Tour) :
    (t.recast f on).run (g.recast f on) = (t.run g).recast f on := by
  induction t using run.induct g with
  | case1 t ended =>
    have renamed := step_recast recasts g t
    rw [ended] at renamed
    rw [run_of_step_none ended, run_of_step_none renamed]
  | case2 t next turn ih =>
    have renamed := step_recast recasts g t
    rw [turn] at renamed
    rw [run_of_step_some turn, run_of_step_some renamed]
    exact ih

/-- The walk starts at the same entry. -/
theorem start_recast (g : Graph) : start (g.recast f on) = (start g).recast f on := by
  unfold start
  rw [Graph.entry?_recast recasts]
  cases g.entry? with
  | none => rfl
  | some n =>
    simp only [Option.map_some, Option.bind_some, recasts.id, Graph.lastNode?_recast recasts]
    cases g.lastNode? n.id with
    | none => rfl
    | some last =>
      simp only [Option.map_some, recasts.id]
      exact enter_recast recasts g idle last.id last []

end Tour

/-- The steps are read in the same order. -/
theorem Graph.inReadingOrder_recast (g : Graph) :
    (g.recast f on).inReadingOrder = g.inReadingOrder.map on := by
  unfold inReadingOrder
  simp only [Tour.start_recast recasts, Tour.run_recast recasts]
  rw [List.map_append, Tour.recast, ← List.map_reverse,
    show (g.recast f on).nodes = g.nodes.map on from rfl, List.filter_map]
  congr 2
  apply List.filter_congr
  intro n _
  rw [Function.comp_apply, recasts.id, contains_map_of_injective recasts.injective,
    isStep_recast recasts]

end Recasts

end Flowchart
