import Flowchart.Proofs.Graph.Framed
import Flowchart.Proofs.Walk.Turns

/-!
# Finding a cycle between a start and an end

The search through a framed graph finds the cycle that the search through the graph itself finds. It
takes some turns more: it may stand on the start first, and it turns back from the end whenever an
edge leads it there. Its other turns are those of the search through the graph, in the same order.
-/

set_option autoImplicit false

namespace Flowchart

namespace Search

open Flowchart.Graph (Extends Framable)

/-- A path in a graph, and the same path in the framed graph, which may come from the start. -/
inductive Follows (g : Graph) (first last : String) : List PathEntry → List PathEntry → Prop
  | nil : Follows g first last [] []
  | start : Follows g first last [] [⟨first, []⟩]
  | step {id : String} {own full : List String} {trail framed : List PathEntry}
      (known : id ∈ g.ids) (targets : Extends g last own full)
      (outer : Follows g first last trail framed) :
      Follows g first last (⟨id, own⟩ :: trail) (⟨id, full⟩ :: framed)

/-- A search through a graph, and a search through the framed graph that has come as far. The second
one may stand on the end. -/
structure Shadows (g : Graph) (first last : String) (s framed : Search) : Prop where
  starts : framed.starts = s.starts
  known : ∀ id ∈ s.starts, id ∈ g.ids
  visited : ∀ id ∈ g.ids, framed.visited.contains id = s.visited.contains id
  trail : Follows g first last s.trail framed.trail ∨
    ∃ outer, framed.trail = ⟨last, []⟩ :: outer ∧ Follows g first last s.trail outer

variable {g : Graph} {first last : String} {s framed : Search}

/-- The path through the framed graph is the path through the graph, after the start if it comes
from there. -/
theorem path_of_follows (h : Follows g first last s.trail framed.trail) :
    framed.path = s.path ∨ framed.path = first :: s.path := by
  have ids {trail outer : List PathEntry} (h : Follows g first last trail outer) :
      outer.map (·.id) = trail.map (·.id) ∨ outer.map (·.id) = trail.map (·.id) ++ [first] := by
    induction h with
    | nil => exact .inl rfl
    | start => exact .inr rfl
    | step _ _ _ ih =>
      rcases ih with same | fromStart
      · exact .inl (by rw [List.map_cons, List.map_cons, same])
      · exact .inr (by rw [List.map_cons, List.map_cons, fromStart, List.cons_append])
  unfold path
  rcases ids h with same | fromStart
  · exact .inl (by rw [same])
  · exact .inr (by rw [fromStart, List.reverse_concat])

/-- Both paths hold the same ids, the start apart. -/
theorem mem_path_of_follows (h : Follows g first last s.trail framed.trail) {id : String}
    (noStart : id ≠ first) : framed.path.contains id = s.path.contains id := by
  rcases path_of_follows h with same | fromStart
  · rw [same]
  · rw [fromStart, List.contains_cons, beq_eq_false_iff_ne.2 noStart, Bool.false_or]

/-- An edge back to a step closes the same cycle on both paths. -/
theorem closing_of_follows (h : Follows g first last s.trail framed.trail) {id : String}
    (noStart : id ≠ first) : framed.closing id = s.closing id := by
  unfold closing
  rcases path_of_follows h with same | fromStart
  · rw [same]
  · rw [fromStart, List.dropWhile_cons, if_pos (by simpa using noStart.symm)]

/-- The end is not on a path of steps. -/
theorem last_not_mem_path (framable : g.Framable first last)
    (h : Follows g first last s.trail framed.trail) : framed.path.contains last = false := by
  have ids {trail outer : List PathEntry} (h : Follows g first last trail outer) :
      last ∉ trail.map (·.id) := by
    induction h with
    | nil => simp
    | start => simp
    | step known _ _ ih =>
      rw [List.map_cons, List.mem_cons, not_or]
      exact ⟨(framable.ne_last known).symm, ih⟩
  rw [mem_path_of_follows h framable.apart.symm]
  simpa [path] using ids h

/-- Both searches enter a step of the flow alike. -/
theorem enter_shadows (framable : g.Framable first last) {id : String} (known : id ∈ g.ids)
    {trail outer : List PathEntry} (h : Shadows g first last s framed)
    (follows : Follows g first last trail outer) :
    Shadows g first last (s.enter g id trail)
      (framed.enter (g.framed first last) id outer) where
  starts := h.starts
  known := h.known
  visited := by
    intro other inGraph
    simp only [enter, List.contains_cons, h.visited other inGraph]
  trail := .inl (.step known (framable.extends_targets known) follows)

/-- How the turns of two searches go together, the first of which stands at `s`: both end in the
same way, both go on, or only the second one goes on. -/
inductive InStep (g : Graph) (first last : String) (s : Search) : Turn → Turn → Prop
  | found (cycle : List String) : InStep g first last s (.found cycle) (.found cycle)
  | exhausted : InStep g first last s .exhausted .exhausted
  | on {next framed : Search} (h : Shadows g first last next framed) :
      InStep g first last s (.on next) (.on framed)
  | stay {turn : Turn} {framed : Search} (h : Shadows g first last s framed) :
      InStep g first last s turn (.on framed)

/-- Where no path has been begun, the searches go together. -/
theorem inStep_of_starts (framable : g.Framable first last) (noTrail : s.trail = [])
    (framedNoTrail : framed.trail = []) (h : Shadows g first last s framed) :
    InStep g first last s (s.step g) (framed.step (g.framed first last)) := by
  obtain ⟨starts, visited, trail⟩ := s
  obtain ⟨framedStarts, framedVisited, framedTrail⟩ := framed
  obtain ⟨sameStarts, known, sameVisited, -⟩ := h
  simp only at noTrail framedNoTrail sameStarts known sameVisited
  subst noTrail framedNoTrail sameStarts
  cases framedStarts with
  | nil => exact .exhausted
  | cons id rest =>
    have rests : ∀ other ∈ rest, other ∈ g.ids :=
      fun other mem => known other (List.mem_cons_of_mem id mem)
    have inGraph : id ∈ g.ids := known id List.mem_cons_self
    have dropped : Shadows g first last ⟨rest, visited, []⟩ ⟨rest, framedVisited, []⟩ :=
      ⟨rfl, rests, sameVisited, .inl .nil⟩
    simp only [step, sameVisited id inGraph]
    split
    · exact .on dropped
    · exact .on (enter_shadows framable inGraph dropped .nil)

/-- At a step of the flow, the searches go together: the second one looks at the same target as the
first one, or else turns to the end. -/
theorem inStep_of_step (framable : g.Framable first last)
    {starts visited framedVisited : List String}
    {id : String} {own full : List String} {trail outer : List PathEntry} (known : id ∈ g.ids)
    (targets : Extends g last own full) (follows : Follows g first last trail outer)
    (h : Shadows g first last ⟨starts, visited, ⟨id, own⟩ :: trail⟩
      ⟨starts, framedVisited, ⟨id, full⟩ :: outer⟩) :
    InStep g first last ⟨starts, visited, ⟨id, own⟩ :: trail⟩
      (step g ⟨starts, visited, ⟨id, own⟩ :: trail⟩)
      (step (g.framed first last) ⟨starts, framedVisited, ⟨id, full⟩ :: outer⟩) := by
  obtain ⟨-, starting, sameVisited, -⟩ := h
  have whole := Follows.step known targets follows
  cases targets with
  | nil => exact .on ⟨rfl, starting, sameVisited, .inl follows⟩
  | @skip own full rest =>
    -- Only the second search has the end to try, so it takes a turn by itself.
    let s : Search := ⟨starts, visited, ⟨id, own⟩ :: trail⟩
    let framed : Search := ⟨starts, framedVisited, ⟨id, last :: full⟩ :: outer⟩
    have noCycle : framed.path.contains last = false :=
      last_not_mem_path (s := s) framable whole
    have turn : framed.step (g.framed first last) =
        if framed.path.contains last then .found (framed.closing last)
        else if framedVisited.contains last then .on { framed with trail := ⟨id, full⟩ :: outer }
        else .on (enter (g.framed first last) framed last (⟨id, full⟩ :: outer)) := rfl
    have skipped := Follows.step known rest follows
    rw [turn, noCycle, if_neg Bool.false_ne_true]
    split
    · exact .stay ⟨rfl, starting, sameVisited, .inl skipped⟩
    · refine .stay ⟨rfl, starting, ?_, .inr ⟨⟨id, full⟩ :: outer, ?_, skipped⟩⟩
      · intro other inGraph
        rw [← sameVisited other inGraph, enter, List.contains_cons,
          beq_eq_false_iff_ne.2 (framable.ne_last inGraph), Bool.false_or]
      · rw [enter, framable.targets_framed_last]
  | @keep own full target inGraph rest =>
    -- Both have the same target to try, and they find it on the path or visited alike.
    let s : Search := ⟨starts, visited, ⟨id, target :: own⟩ :: trail⟩
    let framed : Search := ⟨starts, framedVisited, ⟨id, target :: full⟩ :: outer⟩
    have noStart : target ≠ first := framable.ne_first inGraph
    have turn : s.step g =
        if s.path.contains target then .found (s.closing target)
        else if visited.contains target then .on { s with trail := ⟨id, own⟩ :: trail }
        else .on (enter g s target (⟨id, own⟩ :: trail)) := rfl
    have framedTurn : framed.step (g.framed first last) =
        if framed.path.contains target then .found (framed.closing target)
        else if framedVisited.contains target then
          .on { framed with trail := ⟨id, full⟩ :: outer }
        else .on (enter (g.framed first last) framed target (⟨id, full⟩ :: outer)) := rfl
    have samePath : framed.path.contains target = s.path.contains target :=
      mem_path_of_follows whole noStart
    have sameClosing : framed.closing target = s.closing target :=
      closing_of_follows whole noStart
    have kept := Follows.step known rest follows
    rw [turn, framedTurn, samePath, sameClosing, sameVisited target inGraph]
    split
    · exact .found _
    · split
      · exact .on ⟨rfl, starting, sameVisited, .inl kept⟩
      · exact .on (enter_shadows framable inGraph ⟨rfl, starting, sameVisited, .inl whole⟩ kept)

/-- Wherever the searches have come as far, their next turns go together. -/
theorem inStep (framable : g.Framable first last) (h : Shadows g first last s framed) :
    InStep g first last s (s.step g) (framed.step (g.framed first last)) := by
  obtain ⟨starts, visited, trail⟩ := s
  obtain ⟨framedStarts, framedVisited, framedTrail⟩ := framed
  obtain rfl : framedStarts = starts := h.starts
  rcases h.trail with follows | ⟨outer, rfl, follows⟩
  · cases follows with
    | nil => exact inStep_of_starts framable rfl rfl h
    | start => exact .stay ⟨rfl, h.known, h.visited, .inl .nil⟩
    | step known targets follows => exact inStep_of_step framable known targets follows h
  · exact .stay ⟨rfl, h.known, h.visited, .inl follows⟩

/-- Two searches that have come equally far find the same cycle. -/
theorem run_framed (framable : g.Framable first last) (h : Shadows g first last s framed) :
    framed.run (g.framed first last) = s.run g := by
  -- The second search also takes the turns at the end, so the induction follows that one.
  induction framed using run.induct (g.framed first last) generalizing s with
  | case1 framed cycle turn =>
    have together := inStep framable h
    rw [turn] at together
    generalize own : s.step g = ownTurn at together
    cases together with
    | found => rw [run_of_step_found turn, run_of_step_found own]
  | case2 framed turn =>
    have together := inStep framable h
    rw [turn] at together
    generalize own : s.step g = ownTurn at together
    cases together with
    | exhausted => rw [run_of_step_exhausted turn, run_of_step_exhausted own]
  | case3 framed next turn ih =>
    have together := inStep framable h
    rw [turn] at together
    generalize own : s.step g = ownTurn at together
    rw [run_of_step_on turn]
    cases together with
    | on after =>
      rw [run_of_step_on own]
      exact ih after
    | stay after => exact ih after

end Search

open Search (Shadows)

namespace Graph

variable {g : Graph} {first last : String}

/-- With inputs, both searches start at the same nodes. -/
theorem Framable.run_start_of_inputs (framable : g.Framable first last)
    (inputs : g.nodesOfKind .input ≠ []) :
    (Search.start (g.framed first last)).run (g.framed first last) = (Search.start g).run g := by
  have same : Search.start (g.framed first last) = Search.start g := by
    unfold Search.start
    rw [startNodes_framed_of_inputs first last inputs]
  rw [same]
  refine Search.run_framed framable ⟨rfl, ?_, fun _ _ => rfl, .inl .nil⟩
  intro id mem
  obtain ⟨n, isStart, rfl⟩ := List.mem_map.1 mem
  exact id_of_mem_startNodes isStart

/-- Without inputs, the search through the framed graph comes to the first step from the start. -/
theorem Framable.run_start_of_no_input (framable : g.Framable first last)
    (noInput : g.nodesOfKind .input = []) :
    (Search.start (g.framed first last)).run (g.framed first last) = (Search.start g).run g := by
  obtain ⟨framedStarts, starts⟩ := startNodes_framed_of_no_input first last noInput
  have entered : Search.step (g.framed first last) (Search.start (g.framed first last)) =
      .on ⟨[], [first], [⟨first, (g.nodes.take 1).map (·.id)⟩]⟩ := by
    rw [← framable.targets_framed_first, Search.start, framedStarts]
    rfl
  -- The second search enters the start first, and from there what the first one starts with.
  rw [Search.run_of_step_on entered, Search.start, starts]
  cases nodes : g.nodes with
  | nil =>
    refine Search.run_framed framable ⟨rfl, by simp, ?_, .inl .start⟩
    intro id inGraph
    simp [ids, nodes] at inGraph
  | cons n rest =>
    have inGraph : n.id ∈ g.ids := by simp [ids, nodes]
    have framedTurn : Search.step (g.framed first last) ⟨[], [first], [⟨first, [n.id]⟩]⟩ =
        .on (Search.enter (g.framed first last) ⟨[], [first], []⟩ n.id [⟨first, []⟩]) := by
      simp [Search.step, Search.path, Search.enter, framable.ne_first inGraph]
    have turn : Search.step g ⟨[n.id], [], []⟩ = .on (Search.enter g ⟨[], [], []⟩ n.id []) := rfl
    simp only [List.take_succ_cons, List.take_zero, List.map_cons, List.map_nil]
    rw [Search.run_of_step_on framedTurn, Search.run_of_step_on turn]
    have before : Shadows g first last ⟨[], [], []⟩ ⟨[], [first], []⟩ := by
      refine ⟨rfl, by simp, ?_, .inl .nil⟩
      intro id known
      rw [List.contains_cons, beq_eq_false_iff_ne.2 (framable.ne_first known)]
      rfl
    exact Search.run_framed framable (Search.enter_shadows framable inGraph before .start)

/-- The search through a framed graph finds the same cycle, or none either. -/
theorem Framable.findCycle_framed (framable : g.Framable first last) :
    (g.framed first last).findCycle = g.findCycle := by
  unfold findCycle
  by_cases noInput : g.nodesOfKind .input = []
  · exact framable.run_start_of_no_input noInput
  · exact framable.run_start_of_inputs noInput

end Graph

end Flowchart
