import Flowchart.Proofs.Walk.Reach

/-!
# No cycle is missed

A search that finds no cycle has looked at everything that can be reached, and nothing of that lies
on a cycle. An id is settled once it was visited and has left the path. Every turn keeps that edges
from settled ids lead to settled ids and that no settled id lies on a cycle: an id leaves the path
when all its edges lead to ids that were settled before it, and a cycle through it would have to
come back from there.
-/

set_option autoImplicit false

namespace Flowchart

open Relation (ReflTransGen TransGen)

namespace Search

/-- The id was visited and has left the path. -/
def Settled (s : Search) (id : String) : Prop :=
  id ∈ s.visited ∧ id ∉ s.trail.map (·.id)

/-- From every id on a path, an edge leads to a target that is still to be tried, or to a visited id
that is not on the path up to there. -/
def Tried (g : Graph) (visited : List String) : List PathEntry → Prop
  | [] => True
  | entry :: outer =>
    (∀ target, g.Leads entry.id target →
      target ∈ entry.untried ∨ target ∈ visited ∧ target ∉ entry.id :: outer.map (·.id)) ∧
    Tried g visited outer

/-- What was tried stays tried when another id is visited. -/
theorem Tried.cons_visited {g : Graph} {visited : List String} {trail : List PathEntry}
    (h : Tried g visited trail) (id : String) : Tried g (id :: visited) trail := by
  induction trail with
  | nil => trivial
  | cons entry outer ih =>
    refine ⟨?_, ih h.2⟩
    intro target leads
    rcases h.1 target leads with later | ⟨before, off⟩
    · exact .inl later
    · exact .inr ⟨List.mem_cons_of_mem id before, off⟩

/-- What every turn of the walk keeps. -/
structure Thorough (g : Graph) (s : Search) : Prop where
  starts : ∀ n ∈ g.startNodes, n.id ∈ s.visited ∨ n.id ∈ s.starts
  tried : Tried g s.visited s.trail
  closed : ∀ id, s.Settled id → ∀ target, g.Leads id target → s.Settled target
  acyclic : ∀ id, s.Settled id → ¬ TransGen g.Leads id id

/-- Before its first turn, the walk has missed nothing. -/
theorem thorough_start (g : Graph) : Thorough g (start g) where
  starts n isStart := .inr (List.mem_map_of_mem isStart)
  tried := trivial
  closed := by simp [Settled, start]
  acyclic := by simp [Settled, start]

/-- From a settled id, edges lead to settled ids only. -/
theorem Thorough.settled_of_path {g : Graph} {s : Search} (h : Thorough g s) {id other : String}
    (settled : s.Settled id) (path : ReflTransGen g.Leads id other) : s.Settled other := by
  induction path with
  | refl => exact settled
  | tail _ leads ih => exact h.closed _ ih _ leads

/-- A new id at the end of the path settles nothing. -/
theorem settled_push_iff {id other : String} {starts visited untried : List String}
    {trail : List PathEntry} (new : id ∉ visited) :
    Settled ⟨starts, id :: visited, ⟨id, untried⟩ :: trail⟩ other ↔
      Settled ⟨starts, visited, trail⟩ other := by
  by_cases here : other = id
  · simp [Settled, here, new]
  · simp [Settled, here]

/-- No move of the walk misses anything. -/
theorem thorough_move {g : Graph} {s next : Search} (h : Thorough g s) (move : Move g s next) :
    Thorough g next := by
  cases move with
  | @skipStart id starts visited old =>
    refine ⟨?_, h.tried, h.closed, h.acyclic⟩
    intro n isStart
    rcases h.starts n isStart with before | waits
    · exact .inl before
    · rcases List.mem_cons.1 waits with same | later
      · exact .inl (same ▸ old)
      · exact .inr later
  | @takeStart id starts visited new =>
    refine ⟨?_, ⟨fun _ leads => .inl (Graph.mem_targets_iff.2 leads), trivial⟩, ?_, ?_⟩
    · intro n isStart
      rcases h.starts n isStart with before | waits
      · exact .inl (List.mem_cons_of_mem id before)
      · rcases List.mem_cons.1 waits with same | later
        · exact .inl (same ▸ List.mem_cons_self)
        · exact .inr later
    · simp only [settled_push_iff new]
      exact h.closed
    · simp only [settled_push_iff new]
      exact h.acyclic
  | @leave id starts visited outer =>
    obtain ⟨done, rest⟩ := h.tried
    -- Nothing is left to try, so all edges from the id lead to ids that were settled before it.
    have leadsOn : ∀ target, g.Leads id target →
        Settled ⟨starts, visited, ⟨id, []⟩ :: outer⟩ target := by
      intro target leads
      rcases done target leads with later | settled
      · simp at later
      · exact settled
    have kept {other : String} (settled : Settled ⟨starts, visited, ⟨id, []⟩ :: outer⟩ other) :
        Settled ⟨starts, visited, outer⟩ other :=
      ⟨settled.1, fun onPath => settled.2 (List.mem_cons_of_mem id onPath)⟩
    have before {other : String} (settled : Settled ⟨starts, visited, outer⟩ other) :
        other = id ∨ Settled ⟨starts, visited, ⟨id, []⟩ :: outer⟩ other := by
      by_cases here : other = id
      · exact .inl here
      · exact .inr ⟨settled.1, by simpa [here] using settled.2⟩
    refine ⟨h.starts, rest, ?_, ?_⟩
    · intro other settled target leads
      rcases before settled with rfl | earlier
      · exact kept (leadsOn target leads)
      · exact kept (h.closed other earlier target leads)
    · intro other settled cycle
      rcases before settled with rfl | earlier
      · -- A cycle would come back to the id through ids that were settled while it was not.
        obtain ⟨target, leads, back⟩ := TransGen.head'_iff.1 cycle
        have again := h.settled_of_path (leadsOn target leads) back
        exact again.2 List.mem_cons_self
      · exact h.acyclic other earlier cycle
  | @skip id target starts visited untried outer off old =>
    refine ⟨h.starts, ⟨?_, h.tried.2⟩, h.closed, h.acyclic⟩
    intro other leads
    rcases h.tried.1 other leads with later | settled
    · rcases List.mem_cons.1 later with rfl | rest
      · exact .inr ⟨old, off⟩
      · exact .inl rest
    · exact .inr settled
  | @descend id target starts visited untried outer off new =>
    have rests : ∀ other, g.Leads id other → other ∈ untried ∨
        other ∈ target :: visited ∧ other ∉ id :: outer.map (·.id) := by
      intro other leads
      rcases h.tried.1 other leads with later | ⟨before, offPath⟩
      · rcases List.mem_cons.1 later with rfl | rest
        · exact .inr ⟨List.mem_cons_self, off⟩
        · exact .inl rest
      · exact .inr ⟨List.mem_cons_of_mem target before, offPath⟩
    refine ⟨?_, ⟨?_, rests, h.tried.2.cons_visited target⟩, ?_, ?_⟩
    · intro n isStart
      exact (h.starts n isStart).imp_left (List.mem_cons_of_mem target)
    · intro other leads
      exact .inl (Graph.mem_targets_iff.2 leads)
    · simp only [settled_push_iff new]
      exact h.closed
    · simp only [settled_push_iff new]
      exact h.acyclic

/-- A walk that finds nothing has settled all that can be reached. -/
theorem acyclic_of_run_eq_nil {g : Graph} {s : Search} (h : Thorough g s) (none : s.run g = []) :
    ∀ id, g.Accessible id → ¬ TransGen g.Leads id id := by
  induction s using run.induct g with
  | case1 s cycle turn =>
    rw [run_of_step_found turn] at none
    obtain ⟨id, target, untried, outer, -, -, rfl⟩ := closing_of_step_found turn
    simp [closing] at none
  | case2 s turn =>
    obtain ⟨noStart, noPath⟩ := ended_of_step_exhausted turn
    rintro id ⟨n, isStart, path⟩
    have visited : n.id ∈ s.visited := by
      simpa [noStart] using h.starts n isStart
    have settled : s.Settled n.id := ⟨visited, by simp [noPath]⟩
    exact h.acyclic id (h.settled_of_path settled path)
  | case3 s next turn ih =>
    rw [run_of_step_on turn] at none
    exact ih (thorough_move h (move_of_step turn)) none

end Search

/-- Where no cycle is found, nothing that can be reached leads back to itself. -/
theorem Graph.acyclic_of_findCycle_eq_nil {g : Graph} (none : g.findCycle = []) {id : String}
    (accessible : g.Accessible id) : ¬ TransGen g.Leads id id :=
  Search.acyclic_of_run_eq_nil (Search.thorough_start g) none id accessible

end Flowchart
