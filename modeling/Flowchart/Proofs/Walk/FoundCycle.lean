import Flowchart.Proofs.Walk.Acyclic
import Flowchart.Proofs.Walk.Cycle
import Mathlib.Data.List.Chain
import Mathlib.Data.List.Nodup

/-!
# The search finds a cycle, and only a cycle

The path of the search never visits an id twice, and an edge leads from each id on it to the next
one. What an edge back into the path closes is therefore a cycle: the rest of the path from the id
that the edge leads to. Together with the fact that nothing reachable lies on a cycle where the
search ends without one, this says exactly when a cycle is found, whatever the graph is like.
-/

set_option autoImplicit false

namespace Flowchart

open Relation (TransGen)

namespace Graph

/-- A cycle from an id over the others back to it: no id is visited twice, and an edge leads from
each of them to the next one. -/
structure IsCycle (g : Graph) (first : String) (others : List String) : Prop where
  distinct : (first :: others).Nodup
  follows : (first :: others ++ [first]).IsChain g.Leads

/-- An id from which a cycle starts leads back to itself. -/
theorem IsCycle.returns {g : Graph} {first : String} {others : List String}
    (h : g.IsCycle first others) : TransGen g.Leads first first := by
  have onward : (first :: (others ++ [first])).Pairwise (TransGen g.Leads) := by
    rw [← List.isChain_iff_pairwise]
    exact h.follows.imp fun _ _ leads => .single leads
  exact List.rel_of_pairwise_cons onward (List.mem_append_right others List.mem_cons_self)

end Graph

namespace Search

/-- The part of a path from an id on starts with that id. -/
theorem exists_dropWhile_eq {path : List String} {id : String} (mem : id ∈ path) :
    ∃ others, path.dropWhile (· != id) = id :: others := by
  induction path with
  | nil => simp at mem
  | cons first rest ih =>
    by_cases here : first = id
    · exact ⟨rest, by simp [here]⟩
    · have later : id ∈ rest := (List.mem_cons.1 mem).resolve_left (Ne.symm here)
      rw [List.dropWhile_cons_of_pos (by simpa using here)]
      exact ih later

/-- What every turn keeps of the path: no id stands on it twice, an edge leads from each id to the
next one, and what is still to be tried from an id are targets of its edges. The trail has the last
id first, so its edges point backwards. -/
structure Straight (g : Graph) (s : Search) : Prop where
  distinct : (s.trail.map (·.id)).Nodup
  follows : (s.trail.map (·.id)).IsChain fun target source => g.Leads source target
  untried : ∀ entry ∈ s.trail, ∀ target ∈ entry.untried, g.Leads entry.id target

/-- Before its first turn, the path of the walk is empty, and so it is straight. -/
theorem straight_start (g : Graph) : Straight g (start g) where
  distinct := by simp [start]
  follows := by simp [start]
  untried := by simp [start]

/-- A target that is no longer to be tried can be left out. -/
theorem Straight.dropTarget {g : Graph} {id target : String} {starts visited untried : List String}
    {outer : List PathEntry} (h : Straight g ⟨starts, visited, ⟨id, target :: untried⟩ :: outer⟩) :
    Straight g ⟨starts, visited, ⟨id, untried⟩ :: outer⟩ where
  distinct := h.distinct
  follows := h.follows
  untried := by
    intro entry mem other isUntried
    rcases List.mem_cons.1 mem with rfl | before
    · exact h.untried ⟨id, target :: untried⟩ List.mem_cons_self other
        (List.mem_cons_of_mem target isUntried)
    · exact h.untried entry (List.mem_cons_of_mem _ before) other isUntried

/-- Every move of the walk keeps its path straight. -/
theorem straight_move {g : Graph} {s next : Search} (h : Straight g s) (move : Move g s next) :
    Straight g next := by
  cases move with
  | skipStart old => exact ⟨h.distinct, h.follows, h.untried⟩
  | @takeStart id starts visited new =>
    refine ⟨List.nodup_singleton id, List.isChain_singleton id, ?_⟩
    intro entry mem target isTarget
    rw [List.mem_singleton.1 mem] at isTarget ⊢
    exact Graph.mem_targets_iff.1 isTarget
  | leave =>
    refine ⟨h.distinct.of_cons, h.follows.tail, ?_⟩
    intro entry mem
    exact h.untried entry (List.mem_cons_of_mem _ mem)
  | skip off old => exact h.dropTarget
  | @descend id target starts visited untried outer off new =>
    have leads : g.Leads id target :=
      h.untried ⟨id, target :: untried⟩ List.mem_cons_self target List.mem_cons_self
    refine ⟨List.nodup_cons.2 ⟨off, h.distinct⟩, List.isChain_cons_cons.2 ⟨leads, h.follows⟩, ?_⟩
    intro entry mem
    rcases List.mem_cons.1 mem with rfl | before
    · exact fun _ isTarget => Graph.mem_targets_iff.1 isTarget
    · exact h.dropTarget.untried entry before

/-- An edge from the last id of the path back into the path closes a cycle. -/
theorem isCycle_of_step_found {g : Graph} {s : Search} (h : Straight g s) {cycle : List String}
    (turn : s.step g = .found cycle) :
    ∃ first others, cycle = first :: others ++ [first] ∧ g.IsCycle first others := by
  obtain ⟨id, target, untried, outer, trail, onPath, rfl⟩ := closing_of_step_found turn
  obtain ⟨others, rest⟩ := exists_dropWhile_eq onPath
  have suffix : target :: others <:+ s.path := rest ▸ List.dropWhile_suffix _
  refine ⟨target, others, by rw [closing, rest], ?_, ?_⟩
  · exact (List.nodup_reverse.2 h.distinct).sublist suffix.sublist
  · have chain : s.path.IsChain g.Leads := List.isChain_reverse.2 h.follows
    have back : g.Leads id target :=
      h.untried ⟨id, target :: untried⟩ (trail ▸ List.mem_cons_self) target List.mem_cons_self
    have last : (target :: others).getLast? = some id := by
      have ends : s.path.getLast? = some id := by simp [path, trail]
      obtain ⟨before, whole⟩ := suffix
      rwa [← whole, List.getLast?_append_of_ne_nil before (List.cons_ne_nil target others)] at ends
    rw [List.isChain_append]
    refine ⟨chain.suffix suffix, List.isChain_singleton target, ?_⟩
    intro x isLast y isFirst
    obtain rfl := Option.some.inj (last.symm.trans isLast)
    obtain rfl := Option.some.inj isFirst
    exact back

/-- A walk that finds something finds a cycle. -/
theorem isCycle_of_run {g : Graph} {s : Search} (h : Straight g s) :
    s.run g = [] ∨
      ∃ first others, s.run g = first :: others ++ [first] ∧ g.IsCycle first others := by
  induction s using run.induct g with
  | case1 s cycle turn =>
    rw [run_of_step_found turn]
    exact .inr (isCycle_of_step_found h turn)
  | case2 s turn =>
    rw [run_of_step_exhausted turn]
    exact .inl rfl
  | case3 s next turn ih =>
    rw [run_of_step_on turn]
    exact ih (straight_move h (move_of_step turn))

end Search

namespace Graph

/-- What is found, if anything is, is a cycle, and it starts where a path from a start node
leads. -/
theorem isCycle_findCycle (g : Graph) :
    g.findCycle = [] ∨ ∃ first others, g.findCycle = first :: others ++ [first] ∧
      g.IsCycle first others ∧ g.Accessible first := by
  rcases Search.isCycle_of_run (Search.straight_start g) with none | ⟨first, others, found, cycle⟩
  · exact .inl none
  · have here : first ∈ g.findCycle := by
      rw [findCycle, found]
      simp
    exact .inr ⟨first, others, found, cycle, accessible_of_mem_findCycle here⟩

/-- The search for a cycle finds none exactly where nothing that can be reached leads back to
itself, and otherwise it finds a cycle that can be reached. -/
theorem findCycle_sound_complete (g : Graph) :
    (g.findCycle = [] ↔ ∀ id, g.Accessible id → ¬ TransGen g.Leads id id) ∧
      (g.findCycle = [] ∨ ∃ first others, g.findCycle = first :: others ++ [first] ∧
        g.IsCycle first others ∧ g.Accessible first) := by
  have found := isCycle_findCycle g
  refine ⟨⟨fun none id => acyclic_of_findCycle_eq_nil none, ?_⟩, found⟩
  intro acyclic
  rcases found with none | ⟨first, others, -, cycle, accessible⟩
  · exact none
  · exact absurd cycle.returns (acyclic first accessible)

end Graph

end Flowchart
