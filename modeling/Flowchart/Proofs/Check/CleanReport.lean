import Flowchart.Check.Battery
import Flowchart.Proofs.Graph.Distinct
import Flowchart.Proofs.Walk.Acyclic

/-!
# What a clean report promises

The deep checks look at different edges: a dead end is judged by the edges between steps, while what
can be reached and what goes round in a loop is judged by all edges, those of anchors included. If
none of them finds anything, they promise something together that none of them says alone: whoever
goes on from step to step comes to no step twice, and stops at an output only.
-/

set_option autoImplicit false

namespace Flowchart

open Relation (TransGen)

namespace Graph

/-- An edge between steps leads from one id to another. -/
def StepLeads (g : Graph) (source target : String) : Prop :=
  ∃ x ∈ g.stepEdges, x.source = source ∧ x.target = target

/-- A walk along edges between steps, as the ids on it. It starts at a step. -/
structure StepWalk (g : Graph) (walk : List String) : Prop where
  starts : ∃ n ∈ g.steps, walk.head? = some n.id
  follows : walk.IsChain g.StepLeads

/-- An edge runs between steps if neither of its ends is an anchor. -/
theorem mem_stepEdges_iff {g : Graph} {x : Edge} :
    x ∈ g.stepEdges ↔ x ∈ g.edges ∧ x.source ∉ g.anchorIds ∧ x.target ∉ g.anchorIds := by
  simp [stepEdges]

/-- Edges between steps are edges. -/
theorem leads_of_stepLeads {g : Graph} {source target : String} (h : g.StepLeads source target) :
    g.Leads source target := by
  obtain ⟨x, mem, ends⟩ := h
  exact ⟨x, (mem_stepEdges_iff.1 mem).1, ends⟩

/-- An id of the graph that is the id of no anchor is the id of a step. -/
theorem exists_step_of_not_mem_anchorIds {g : Graph} {id : String} (known : id ∈ g.ids)
    (noAnchor : id ∉ g.anchorIds) : ∃ n ∈ g.steps, n.id = id := by
  obtain ⟨n, mem, rfl⟩ := List.mem_map.1 known
  have isStep : n.isStep = true := by
    rw [Node.isStep, Bool.not_eq_true', Bool.eq_false_iff]
    intro anchor
    exact noAnchor (List.mem_map_of_mem (List.mem_filter.2 ⟨mem, anchor⟩))
  exact ⟨n, List.mem_filter.2 ⟨mem, isStep⟩, rfl⟩

/-- A walk goes from step to step. -/
theorem StepWalk.exists_step {g : Graph}
    (closed : ∀ x ∈ g.edges, x.source ∈ g.ids ∧ x.target ∈ g.ids)
    {walk : List String} (h : g.StepWalk walk) : ∀ id ∈ walk, ∃ n ∈ g.steps, n.id = id := by
  apply h.follows.induction
  · rintro source target ⟨x, mem, -, rfl⟩ -
    obtain ⟨inGraph, -, noAnchor⟩ := mem_stepEdges_iff.1 mem
    exact exists_step_of_not_mem_anchorIds (closed x inGraph).2 noAnchor
  · intro nonempty
    obtain ⟨n, step, first⟩ := h.starts
    rw [List.head?_eq_some_head nonempty] at first
    exact ⟨n, step, (Option.some.inj first).symm⟩

/-- A walk without a way back visits no id twice. -/
theorem StepWalk.nodup {g : Graph} {walk : List String} (h : g.StepWalk walk)
    (acyclic : ∀ id ∈ walk, ¬ TransGen g.Leads id id) : walk.Nodup := by
  have onward : walk.Pairwise (TransGen g.Leads) := by
    rw [← List.isChain_iff_pairwise]
    exact h.follows.imp fun _ _ leads => .single (leads_of_stepLeads leads)
  refine onward.imp_of_mem ?_
  rintro id other mem - path rfl
  exact acyclic id mem path

/-- An edge between steps that leaves the last id of a walk extends it. -/
theorem StepWalk.concat {g : Graph} {walk : List String} (h : g.StepWalk walk) {last next : String}
    (ends : walk.getLast? = some last) (leads : g.StepLeads last next) :
    g.StepWalk (walk ++ [next]) where
  starts := by
    obtain ⟨n, step, first⟩ := h.starts
    exact ⟨n, step, by rw [List.head?_append, first]; rfl⟩
  follows := by
    rw [List.isChain_append]
    refine ⟨h.follows, List.isChain_singleton next, ?_⟩
    intro x isLast y isFirst
    obtain rfl := Option.some.inj (ends.symm.trans isLast)
    obtain rfl := Option.some.inj isFirst
    exact leads

end Graph

namespace Check

/-- Where no step is reported as out of reach, every step can be reached. -/
theorem accessible_of_allReachable {g : Graph} (quiet : allReachable g = []) {n : Node}
    (step : n ∈ g.steps) : g.Accessible n.id := by
  by_contra missed
  have listed : n.id ∈ g.unreachable := Graph.mem_unreachable_iff.2 ⟨missed, n, step, rfl⟩
  have known : n.id ∈ g.ids := List.mem_map_of_mem (List.mem_of_mem_filter step)
  obtain ⟨m, found⟩ := Graph.lastNode?_of_mem_ids known
  have silent := List.filterMap_eq_nil_iff.1 quiet n.id listed
  simp [found] at silent

/-- Where no loop is reported, none was found. -/
theorem findCycle_of_noLoop {g : Graph} (quiet : noLoop g = []) : g.findCycle = [] := by
  unfold noLoop at quiet
  split at quiet
  · assumption
  · simp at quiet

/-- Where there is no dead end, an edge between steps leaves every step but the outputs. -/
theorem stepLeads_of_noneDeadEnd {g : Graph} (quiet : noneDeadEnd g = []) {n : Node}
    (step : n ∈ g.steps) (inner : n.kind ≠ .output) : ∃ id, g.StepLeads n.id id := by
  have kept := List.filter_eq_nil_iff.1 (List.map_eq_nil_iff.1 quiet) n step
  have leaves : ∃ x ∈ g.stepEdges, x.source = n.id := by simpa [inner] using kept
  obtain ⟨x, mem, source⟩ := leaves
  exact ⟨x.target, x, mem, source, rfl⟩

/-- A flow whose edges lead from node to node, and which a deep check finds nothing wrong with, goes
from step to step until an output: no walk visits an id twice, and a walk that ends anywhere else
can be extended. -/
theorem walks_of_clean_report {g : Graph}
    (closed : ∀ x ∈ g.edges, x.source ∈ g.ids ∧ x.target ∈ g.ids)
    (clean : (report g true).issues = []) {walk : List String} (isWalk : g.StepWalk walk) :
    walk.Nodup ∧ ((∀ id, ¬ g.StepWalk (walk ++ [id])) →
      ∃ n ∈ g.steps, n.kind = .output ∧ walk.getLast? = some n.id) := by
  simp only [report, basic, if_true, List.append_eq_nil_iff] at clean
  obtain ⟨⟨⟨⟨-, -⟩, noDeadEnd⟩, -⟩, reached, acyclic⟩ := clean
  have steps := isWalk.exists_step closed
  constructor
  · apply isWalk.nodup
    intro id mem
    obtain ⟨n, step, rfl⟩ := steps id mem
    exact Graph.acyclic_of_findCycle_eq_nil (findCycle_of_noLoop acyclic)
      (accessible_of_allReachable reached step)
  · intro stuck
    obtain ⟨first, -, begins⟩ := isWalk.starts
    have nonempty : walk ≠ [] := by
      rintro rfl
      simp at begins
    have ends := List.getLast?_eq_some_getLast nonempty
    obtain ⟨n, step, last⟩ := steps _ (List.getLast_mem nonempty)
    rw [← last] at ends
    by_cases output : n.kind = .output
    · exact ⟨n, step, output, ends⟩
    · obtain ⟨next, leads⟩ := stepLeads_of_noneDeadEnd noDeadEnd step output
      exact absurd (isWalk.concat ends leads) (stuck next)

/-- A question on the way to the only output, which both answers lead to, between two anchors. -/
def visitGraph : Graph where
  title := "Visit"
  nodes := [
    { id := "s", kind := .start, title := "Start" },
    { id := "a", kind := .input, title := "Name" },
    { id := "b", kind := .decision, title := "Known?" },
    { id := "c", kind := .process, title := "Register" },
    { id := "d", kind := .output, title := "Welcome" },
    { id := "e", kind := .finish, title := "End" }]
  edges := [
    { source := "s", target := "a" },
    { source := "a", target := "b" },
    { source := "b", target := "d", branch := some .yes },
    { source := "b", target := "c", branch := some .no },
    { source := "c", target := "d" },
    { source := "d", target := "e" }]

/-- Nothing is wrong with this flow, so its walk from the input to the output visits no id twice. -/
theorem walks_of_clean_report_visitGraph :
    (∀ x ∈ visitGraph.edges, x.source ∈ visitGraph.ids ∧ x.target ∈ visitGraph.ids) ∧
    (report visitGraph true).issues = [] ∧ visitGraph.StepWalk ["a", "b", "c", "d"] ∧
    (["a", "b", "c", "d"].Nodup ∧ ((∀ id, ¬ visitGraph.StepWalk (["a", "b", "c", "d"] ++ [id])) →
      ∃ n ∈ visitGraph.steps, n.kind = .output ∧ ["a", "b", "c", "d"].getLast? = some n.id)) := by
  have closed : ∀ x ∈ visitGraph.edges, x.source ∈ visitGraph.ids ∧ x.target ∈ visitGraph.ids := by
    decide
  have clean : (report visitGraph true).issues = [] := by
    decide +kernel
  have isWalk : visitGraph.StepWalk ["a", "b", "c", "d"] := by
    refine ⟨by decide, ?_⟩
    unfold Graph.StepLeads
    decide
  exact ⟨closed, clean, isWalk, walks_of_clean_report closed clean isWalk⟩

end Check

end Flowchart
