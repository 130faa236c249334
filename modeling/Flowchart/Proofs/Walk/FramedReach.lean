import Flowchart.Proofs.Graph.Framed
import Flowchart.Proofs.Walk.Reach

/-!
# What is reached between a start and an end

The same steps are reached in a framed graph as in the graph itself. A path through the framed graph
can only leave the start at the beginning, and enter the end at its own end.
-/

set_option autoImplicit false

namespace Flowchart

open Relation (ReflTransGen)

variable {g : Graph} {first last : String}

namespace Graph

/-- An edge of the graph is an edge of the framed graph. -/
theorem leads_framed {source target : String} (leads : g.Leads source target) :
    (g.framed first last).Leads source target := by
  obtain ⟨x, mem, ends⟩ := leads
  exact ⟨x, List.mem_append_left _ (List.mem_append_right _ mem), ends⟩

/-- A path through the graph is a path through the framed graph. -/
theorem path_framed {source target : String} (path : ReflTransGen g.Leads source target) :
    ReflTransGen (g.framed first last).Leads source target := by
  induction path with
  | refl => exact .refl
  | tail _ leads ih => exact ih.tail (leads_framed leads)

/-- Edges leave ids of nodes only. -/
theorem Framable.source_of_leads (h : g.Framable first last) {source target : String}
    (leads : g.Leads source target) : source ∈ g.ids := by
  obtain ⟨x, mem, rfl, -⟩ := leads
  exact (h.closed x mem).1

/-- An edge of the framed graph to a step is an edge of the graph, or leads from the start to the
first step. -/
theorem Framable.leads_of_framed (h : g.Framable first last) {source target : String}
    (known : target ∈ g.ids) (leads : (g.framed first last).Leads source target) :
    g.Leads source target ∨ (source = first ∧ target ∈ (g.nodes.take 1).map (·.id)) := by
  obtain ⟨x, mem, rfl, rfl⟩ := leads
  rcases List.mem_append.1 mem with inner | ending
  · rcases List.mem_append.1 inner with starting | own
    · have leaves := (of_mem_startEdges starting).1
      refine .inr ⟨leaves, ?_⟩
      rw [← h.targets_framed_first]
      exact mem_targets_iff.2 ⟨x, mem, leaves, rfl⟩
    · exact .inl ⟨x, own, rfl, rfl⟩
  · exact absurd ((of_mem_endEdges ending).2.1 ▸ known) h.endNew

/-- Nothing leads to the start. -/
theorem Framable.not_leads_first (h : g.Framable first last) (source : String) :
    ¬ (g.framed first last).Leads source first := by
  rintro ⟨x, mem, -, enters⟩
  rcases List.mem_append.1 mem with inner | ending
  · rcases List.mem_append.1 inner with starting | own
    · exact h.startNew (enters ▸ (of_mem_startEdges starting).2.1)
    · exact h.startNew (enters ▸ (h.closed x own).2)
  · exact h.apart (enters.symm.trans (of_mem_endEdges ending).2.1)

/-- A node of the graph can be reached in the framed graph exactly if it can be reached in the
graph. -/
theorem Framable.accessible_framed_iff (h : g.Framable first last) {id : String}
    (known : id ∈ g.ids) : (g.framed first last).Accessible id ↔ g.Accessible id := by
  -- Without inputs, the start stands in for the first node, to which its only edge leads. With
  -- inputs, all goes on from these, and no edge leads back to the start.
  by_cases inputs : g.nodesOfKind .input = []
  · obtain ⟨framedStarts, starts⟩ := startNodes_framed_of_no_input first last inputs
    have first_leads {n : Node} (head : n ∈ g.nodes.take 1) :
        (g.framed first last).Leads first n.id := by
      rw [← mem_targets_iff, h.targets_framed_first]
      exact List.mem_map_of_mem head
    constructor
    · rintro ⟨n, isStart, path⟩
      rw [framedStarts, List.mem_singleton] at isStart
      subst isStart
      induction path with
      | refl => exact absurd known h.startNew
      | tail before leads ih =>
        rcases h.leads_of_framed known leads with own | ⟨-, head⟩
        · obtain ⟨n, isStart, path⟩ := ih (h.source_of_leads own)
          exact ⟨n, isStart, path.tail own⟩
        · obtain ⟨n, isHead, rfl⟩ := List.mem_map.1 head
          exact ⟨n, starts ▸ isHead, .refl⟩
    · rintro ⟨n, isStart, path⟩
      rw [starts] at isStart
      refine ⟨startNode first, framedStarts ▸ List.mem_singleton_self _, ?_⟩
      exact (ReflTransGen.single (first_leads isStart)).trans
        (path_framed path)
  · have starts := startNodes_framed_of_inputs first last inputs
    constructor
    · rintro ⟨n, isStart, path⟩
      rw [starts] at isStart
      have noStart : ∀ other, ReflTransGen (g.framed first last).Leads n.id other →
          other ≠ first := by
        intro other path
        cases path with
        | refl =>
          intro same
          exact h.startNew (same ▸ id_of_mem_startNodes isStart)
        | tail _ leads =>
          rintro rfl
          exact h.not_leads_first _ leads
      refine ⟨n, isStart, ?_⟩
      induction path with
      | refl => exact .refl
      | tail before leads ih =>
        rcases h.leads_of_framed known leads with own | ⟨fromStart, -⟩
        · exact (ih (h.source_of_leads own)).tail own
        · exact absurd fromStart (noStart _ before)
    · rintro ⟨n, isStart, path⟩
      exact ⟨n, starts ▸ isStart, path_framed path⟩

/-- The steps that cannot be reached are the same with a start and an end. -/
theorem Framable.unreachable_framed (h : g.Framable first last) :
    (g.framed first last).unreachable = g.unreachable := by
  unfold unreachable
  simp only
  congr 1
  apply filter_isStep_framed
  intro n mem
  have same : (g.framed first last).reachable.contains n.id = g.reachable.contains n.id := by
    rw [Bool.eq_iff_iff, List.contains_iff_mem, List.contains_iff_mem, mem_reachable_iff,
      mem_reachable_iff, h.accessible_framed_iff (List.mem_map_of_mem mem)]
  rw [same]

end Graph

end Flowchart
