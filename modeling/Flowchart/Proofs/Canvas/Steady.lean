import Flowchart.Proofs.Canvas.FirstEdges
import Flowchart.Proofs.Document.Accepted

/-!
# Drawing a graph twice

What comes back from the canvas is in a form that the canvas does not change any more: there are
steps only, with titles that documents may hold, edges lead from node to node, a description is
absent rather than empty, and a condition is what exactly the decisions have. A graph in this form
is drawn and read back as it is. So the second drawing of any graph gives what the first one gave,
also where nodes share an id, where an anchor and a step do, and where edges lead to no node.
-/

set_option autoImplicit false

namespace Flowchart

/-! ## The form of what comes back -/

/-- A node as it comes back from the canvas. -/
structure Node.Steady (n : Node) : Prop where
  step : n.isStep = true
  titled : isTitle n.title
  described : n.description ≠ some ""
  asked : n.kind = .decision → ∃ condition, n.condition = some condition ∧ condition ≠ ""
  unasked : n.kind ≠ .decision → n.condition = none

/-- A graph as it comes back from the canvas. -/
structure Graph.Steady (g : Graph) : Prop where
  nodes : ∀ n ∈ g.nodes, n.Steady
  closed : ∀ x ∈ g.edges, x.source ∈ g.ids ∧ x.target ∈ g.ids

namespace Node

/-- A node with a title asks something. -/
theorem question_ne_empty {n : Node} (titled : isTitle n.title) : n.question ≠ "" := by
  unfold question
  cases given : n.givenCondition? with
  | none => exact titled.2
  | some condition => simpa using (Option.filter_eq_some_iff.1 given).2

/-- A step with a title comes back steady. -/
theorem steady_redrawn {n : Node} (step : n.isStep = true) (titled : isTitle n.title) :
    n.redrawn.Steady where
  step := step
  titled := titled
  described := by
    intro empty
    have given := (Option.filter_eq_some_iff.1 empty).2
    simp at given
  asked decision := ⟨n.question, if_pos decision, question_ne_empty titled⟩
  unasked other := if_neg other

/-- A node that came back from the canvas comes back as it is. -/
theorem Steady.redrawn_eq {n : Node} (steady : n.Steady) : n.redrawn = n := by
  have description : n.givenDescription? = n.description := by
    unfold givenDescription?
    cases given : n.description with
    | none => rfl
    | some text =>
      have nonempty : text ≠ "" := fun empty => steady.described (empty ▸ given)
      exact Option.filter_some_pos (by simpa using nonempty)
  have condition : (if n.kind = .decision then some n.question else none) = n.condition := by
    split
    · rename_i decision
      obtain ⟨asked, given, nonempty⟩ := steady.asked decision
      simp [question, givenCondition?, given, Option.filter, nonempty]
    · rename_i other
      exact (steady.unasked other).symm
  rw [redrawn, description, condition]

end Node

namespace Canvas

/-! ## Drawings that are read back -/

/-- Whatever the nodes of a drawing are called, they are given titles. -/
theorem isTitle_toNode (s : Shape) : isTitle s.toNode.title := by
  simp only [Shape.toNode]
  split
  · exact ⟨by decide, by decide⟩
  · rename_i visible
    exact isTitle_ofList_trim visible

/-- All nodes that come back have titles. -/
theorem hasTitles_redraw (g : Graph) : (redraw g).HasTitles := by
  intro n mem
  obtain ⟨s, -, rfl⟩ := List.mem_map.1 mem
  exact isTitle_toNode s

variable {g : Graph}

/-- What comes back from the canvas is steady. -/
theorem steady_redraw (valid : g.HasTitles) : (redraw g).Steady where
  nodes := by
    intro n mem
    rw [nodes_redraw valid] at mem
    obtain ⟨m, step, rfl⟩ := List.mem_map.1 mem
    exact Node.steady_redrawn (List.mem_filter.1 step).2 (Outline.isTitle_of_mem_steps valid step)
  closed := by
    intro x mem
    rw [edges_redraw valid, Graph.mem_shownEdges_iff] at mem
    rw [ids_redraw valid]
    exact mem.2

/-- A steady graph comes back as it is. -/
theorem redraw_eq_of_steady (steady : g.Steady) : redraw g = g := by
  have steps : g.steps = g.nodes := List.filter_eq_self.2 fun n mem => (steady.nodes n mem).step
  have nodes : g.steps.map Node.redrawn = g.nodes := by
    rw [steps]
    exact (List.map_congr_left fun n mem => (steady.nodes n mem).redrawn_eq).trans (List.map_id _)
  have titled : ∀ n ∈ g.steps, isTitle n.title :=
    fun n mem => (steady.nodes n (steps ▸ mem)).titled
  rw [redraw_eq titled, nodes, Graph.shownEdges_eq steps steady.closed]

/-- The graphs that come back from the canvas as they were are those in the form that the canvas
gives to graphs. -/
theorem redraw_eq_self_iff : redraw g = g ↔ g.Steady := by
  constructor
  · intro same
    have valid : g.HasTitles := same ▸ hasTitles_redraw g
    exact same ▸ steady_redraw valid
  · intro steady
    exact redraw_eq_of_steady steady

/-- Reading a drawing back has no fault to find with a title, gives a graph in the form that the
canvas does not change, and so changes nothing when it is done again. -/
theorem redraw_settles (valid : g.HasTitles) :
    (∀ n ∈ (redraw g).nodes, Document.title (.string n.title) = .accepted n.title) ∧
      (redraw g).Steady ∧ redraw (redraw g) = redraw g := by
  have steady := steady_redraw valid
  have again := redraw_eq_of_steady steady
  refine ⟨?_, steady, again⟩
  intro n mem
  exact Document.title_eq_accepted_iff.2 (hasTitles_redraw g n mem)

/-- A decision without a condition and a step with one, an anchor and a step with the same id, a
description that is empty, and edges at an anchor and at an id that no node has. -/
def knottedGraph : Graph where
  description := some ""
  nodes := [
    { id := "a", kind := .start, title := "Start" },
    { id := "a", kind := .decision, title := "Open?", description := some "",
      condition := some "" },
    { id := "b", kind := .finish, title := "End", condition := some "over" },
    { id := "a", kind := .process, title := "Close", condition := some "late" }]
  edges := [
    { source := "a", target := "b", branch := some .yes },
    { source := "a", target := "a", branch := some .no },
    { source := "c", target := "a" }]

/-- It comes back in the steady form all the same, and the second time as it is. -/
theorem redraw_settles_knottedGraph : knottedGraph.HasTitles ∧
    (∀ n ∈ (redraw knottedGraph).nodes, Document.title (.string n.title) = .accepted n.title) ∧
      (redraw knottedGraph).Steady ∧ redraw (redraw knottedGraph) = redraw knottedGraph := by
  have valid : knottedGraph.HasTitles := by
    unfold Graph.HasTitles isTitle
    decide
  exact ⟨valid, redraw_settles valid⟩

end Canvas

end Flowchart
