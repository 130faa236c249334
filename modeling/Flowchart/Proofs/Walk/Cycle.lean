import Flowchart.Proofs.Walk.Reach

/-!
# Where a cycle is found

Every id that the search for a cycle looks at is accessible, and so is every id on the cycle.
-/

set_option autoImplicit false

namespace Flowchart

namespace Search

/-- The ids still to be looked at and the ids on the path are accessible. -/
structure Inside (g : Graph) (s : Search) : Prop where
  starts : ∀ id ∈ s.starts, g.Accessible id
  path : ∀ entry ∈ s.trail, g.Accessible entry.id
  untried : ∀ entry ∈ s.trail, ∀ target ∈ entry.untried, g.Accessible target

/-- Before its first turn, the walk is inside what can be reached. -/
theorem inside_start (g : Graph) : Inside g (start g) where
  starts := by
    intro id mem
    obtain ⟨n, isStart, rfl⟩ := List.mem_map.1 mem
    exact ⟨n, isStart, .refl⟩
  path := by simp [start]
  untried := by simp [start]

/-- Entering an id that can be reached keeps the walk inside what can be reached. -/
theorem inside_enter {g : Graph} {s : Search} {id : String} {trail : List PathEntry}
    (accessible : g.Accessible id) (h : Inside g { s with trail }) :
    Inside g (s.enter g id trail) where
  starts := h.starts
  path := by
    intro entry mem
    rcases List.mem_cons.1 mem with rfl | old
    · exact accessible
    · exact h.path entry old
  untried := by
    intro entry mem target isTarget
    rcases List.mem_cons.1 mem with rfl | old
    · obtain ⟨n, isStart, path⟩ := accessible
      exact ⟨n, isStart, path.tail (Graph.mem_targets_iff.1 isTarget)⟩
    · exact h.untried entry old target isTarget

/-- A target that is no longer to be tried can be left out. -/
theorem Inside.dropTarget {g : Graph} {id target : String} {starts visited untried : List String}
    {outer : List PathEntry} (h : Inside g ⟨starts, visited, ⟨id, target :: untried⟩ :: outer⟩) :
    Inside g ⟨starts, visited, ⟨id, untried⟩ :: outer⟩ where
  starts := h.starts
  path := by
    intro entry mem
    rcases List.mem_cons.1 mem with rfl | old
    · exact h.path ⟨id, target :: untried⟩ List.mem_cons_self
    · exact h.path entry (List.mem_cons_of_mem _ old)
  untried := by
    intro entry mem other isUntried
    rcases List.mem_cons.1 mem with rfl | old
    · exact h.untried ⟨id, target :: untried⟩ List.mem_cons_self other
        (List.mem_cons_of_mem target isUntried)
    · exact h.untried entry (List.mem_cons_of_mem _ old) other isUntried

/-- The ids of a cycle that an edge to an accessible id closes are accessible. -/
theorem accessible_of_mem_closing {g : Graph} {s : Search} (h : Inside g s) {target id : String}
    (accessible : g.Accessible target) (mem : id ∈ s.closing target) : g.Accessible id := by
  rcases List.mem_append.1 mem with onPath | isTarget
  · have inPath : id ∈ s.path := (List.dropWhile_suffix _).subset onPath
    obtain ⟨entry, inTrail, rfl⟩ := List.mem_map.1 (List.mem_reverse.1 inPath)
    exact h.path entry inTrail
  · rw [List.mem_singleton.1 isTarget]
    exact accessible

/-- No move of the walk leads out of what can be reached. -/
theorem inside_move {g : Graph} {s next : Search} (h : Inside g s) (move : Move g s next) :
    Inside g next := by
  cases move with
  | @skipStart id starts visited old =>
    exact ⟨fun other mem => h.starts other (List.mem_cons_of_mem id mem), h.path, h.untried⟩
  | @takeStart id starts visited new =>
    have rests : Inside g ⟨starts, visited, []⟩ :=
      ⟨fun other mem => h.starts other (List.mem_cons_of_mem id mem), h.path, h.untried⟩
    exact inside_enter (s := ⟨starts, visited, []⟩) (h.starts id List.mem_cons_self) rests
  | @leave id starts visited outer =>
    refine ⟨h.starts, ?_, ?_⟩
    · intro entry mem
      exact h.path entry (List.mem_cons_of_mem _ mem)
    · intro entry mem
      exact h.untried entry (List.mem_cons_of_mem _ mem)
  | @skip id target starts visited untried outer off old => exact h.dropTarget
  | @descend id target starts visited untried outer off new =>
    have accessible : g.Accessible target :=
      h.untried _ List.mem_cons_self target List.mem_cons_self
    exact inside_enter (s := ⟨starts, visited, ⟨id, target :: untried⟩ :: outer⟩) accessible
      h.dropTarget

/-- The cycle that a turn finds can be reached. -/
theorem accessible_of_step_found {g : Graph} {s : Search} (h : Inside g s) {cycle : List String}
    (turn : s.step g = .found cycle) : ∀ id ∈ cycle, g.Accessible id := by
  obtain ⟨id, target, untried, outer, trail, -, rfl⟩ := closing_of_step_found turn
  intro other mem
  refine accessible_of_mem_closing h ?_ mem
  exact h.untried ⟨id, target :: untried⟩ (trail ▸ List.mem_cons_self) target List.mem_cons_self

/-- So can the cycle that a walk finds. -/
theorem accessible_of_mem_run {g : Graph} {s : Search} (h : Inside g s) :
    ∀ id ∈ s.run g, g.Accessible id := by
  induction s using run.induct g with
  | case1 s cycle turn =>
    rw [run_of_step_found turn]
    exact accessible_of_step_found h turn
  | case2 s turn =>
    rw [run_of_step_exhausted turn]
    simp
  | case3 s next turn ih =>
    rw [run_of_step_on turn]
    exact ih (inside_move h (move_of_step turn))

end Search

namespace Graph

/-- The cycle that is found can be reached from the start nodes. -/
theorem accessible_of_mem_findCycle {g : Graph} {id : String} (mem : id ∈ g.findCycle) :
    g.Accessible id :=
  Search.accessible_of_mem_run (Search.inside_start g) id mem

end Graph

end Flowchart
