import Flowchart.Canvas
import Flowchart.Document.Graph
import Flowchart.Proofs.Flow.Alike

/-!
# What comes back from the canvas

A graph that is drawn and read back consists of its steps and of the edges between ids of steps, in
their old order. The anchors are gone, an empty description is no description any more, and every
decision has a condition, which is what it asked before. So the steps are retold.
-/

set_option autoImplicit false

namespace Flowchart

/-- The step as it comes back from the canvas. -/
def Node.redrawn (n : Node) : Node :=
  { n with
    description := n.givenDescription?
    condition := if n.kind = .decision then some n.question else none }

/-- A step says on the canvas what it said before. -/
theorem retells_redrawn : Node.Retells id Node.redrawn where
  injective := Function.injective_id
  id _ := rfl
  kind _ := rfl
  title _ := rfl
  distinctDescription? n := by
    simp [Node.distinctDescription?, Node.givenDescription?, Node.redrawn, Option.filter_filter]
  question n decision := by
    have asked : n.redrawn.givenCondition? = (some n.question).filter (· != "") := by
      rw [Node.givenCondition?, Node.redrawn, if_pos decision]
    have title : n.redrawn.title = n.title := rfl
    rw [Node.question, asked, title]
    -- A question is empty only if the title is, and then the title is asked again.
    unfold Node.question
    cases given : n.givenCondition? with
    | none => by_cases empty : n.title = "" <;> simp [Option.filter, empty]
    | some condition =>
      have nonempty := (Option.filter_eq_some_iff.1 given).2
      simp [Option.filter, nonempty]

namespace Graph

/-- The ids of the steps. -/
def stepIds (g : Graph) : List String :=
  g.steps.map (·.id)

/-- The edges that a drawing shows: those between ids of steps. -/
def shownEdges (g : Graph) : List Edge :=
  g.edges.filter fun x => g.stepIds.contains x.source && g.stepIds.contains x.target

/-- An edge is shown if both its ends are ids of steps. -/
theorem mem_shownEdges_iff {g : Graph} {x : Edge} :
    x ∈ g.shownEdges ↔ x ∈ g.edges ∧ x.source ∈ g.stepIds ∧ x.target ∈ g.stepIds := by
  unfold shownEdges
  rw [List.mem_filter, Bool.and_eq_true, List.contains_iff_mem, List.contains_iff_mem]

/-- A graph of steps only, whose edges lead from step to step, is shown as it is. -/
theorem shownEdges_eq {g : Graph} (steps : g.steps = g.nodes)
    (closed : ∀ x ∈ g.edges, x.source ∈ g.ids ∧ x.target ∈ g.ids) : g.shownEdges = g.edges := by
  have ids : g.stepIds = g.ids := by rw [stepIds, steps, Graph.ids]
  unfold shownEdges
  rw [List.filter_eq_self]
  intro x mem
  obtain ⟨source, target⟩ := closed x mem
  simp [ids, source, target]

/-- Of a graph between a start and an end, what lies between them is shown. -/
theorem Framable.shownEdges_framed {g : Graph} {first last : String}
    (framable : g.Framable first last) : (g.framed first last).shownEdges = g.shownEdges := by
  have ids : (g.framed first last).stepIds = g.ids := by
    rw [stepIds, framable.steps_framed, Graph.ids]
  have idsToo : g.stepIds = g.ids := by rw [stepIds, framable.steps_eq, Graph.ids]
  unfold shownEdges
  rw [ids, idsToo]
  apply filter_edges_framed
  · intro x mem
    simp [(of_mem_startEdges mem).1, framable.startNew]
  · intro x mem
    simp [(of_mem_endEdges mem).2.1, framable.endNew]

end Graph

namespace Canvas

/-- A shape for a step with a title comes back as the redrawn step. -/
theorem toNode_ofNode {n : Node} (titled : isTitle n.title) :
    (Shape.ofNode n).toNode = n.redrawn := by
  simp only [Shape.toNode, Shape.ofNode, titled.1, if_neg titled.2, Node.redrawn,
    Node.givenDescription?]
  by_cases decision : n.kind = .decision <;> simp [decision]

/-- A link for an edge comes back as the edge. -/
theorem toEdge_ofEdge (x : Edge) : (Link.ofEdge x).toEdge = x := by
  have named (b : Branch) : Branch.ofName? b.name = some b := by
    cases b <;> decide
  obtain ⟨source, target, branch⟩ := x
  cases branch with
  | none => rfl
  | some b => simp [Link.toEdge, Link.ofEdge, named]

/-- Redrawing keeps the steps, which are retold, and the edges that are shown. -/
theorem redraw_eq {g : Graph} (titled : ∀ n ∈ g.steps, isTitle n.title) :
    redraw g = { g with nodes := g.steps.map Node.redrawn, edges := g.shownEdges } := by
  have nodes : (g.steps.map Shape.ofNode).map Shape.toNode = g.steps.map Node.redrawn := by
    rw [List.map_map]
    apply List.map_congr_left
    intro n mem
    exact toNode_ofNode (titled n mem)
  have edges : (g.shownEdges.map Link.ofEdge).map Link.toEdge = g.shownEdges := by
    rw [List.map_map]
    exact (List.map_congr_left fun x _ => toEdge_ofEdge x).trans (List.map_id _)
  have drawing : redraw g =
      { g with
        nodes := (g.steps.map Shape.ofNode).map Shape.toNode
        edges := (g.shownEdges.map Link.ofEdge).map Link.toEdge } := rfl
  rw [drawing, nodes, edges]

/-- Redrawing a graph of steps only retells it. -/
theorem redraw_eq_recast {g : Graph} (steps : g.steps = g.nodes)
    (closed : ∀ x ∈ g.edges, x.source ∈ g.ids ∧ x.target ∈ g.ids)
    (titled : ∀ n ∈ g.steps, isTitle n.title) : redraw g = g.recast id Node.redrawn := by
  rw [redraw_eq titled, Graph.recast, steps, Graph.shownEdges_eq steps closed, Edge.rename_id,
    List.map_id]

/-- Redrawing leaves a start and an end out. -/
theorem redraw_framed {g : Graph} {first last : String} (framable : g.Framable first last)
    (titled : ∀ n ∈ g.steps, isTitle n.title) : redraw (g.framed first last) = redraw g := by
  have steps : (g.framed first last).steps = g.steps := by
    rw [framable.steps_framed, framable.steps_eq]
  rw [redraw_eq titled, redraw_eq (steps ▸ titled), steps, framable.shownEdges_framed]
  rfl

end Canvas

end Flowchart
