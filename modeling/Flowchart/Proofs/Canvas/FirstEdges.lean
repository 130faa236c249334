import Flowchart.Proofs.Canvas.Redraw
import Flowchart.Proofs.Outline.RoundTrip
import Flowchart.Proofs.Text.Length

/-!
# Drawing a graph that is not well formed

An outline goes by the first edge of a branch and leaves the branch out if that edge leads to no
step. A drawing leaves out the edge itself, and then a later edge of the same branch comes first. So
a branch that was written still leads where it led, and one that was not written may come to be
written. It does exactly where one of its edges leads to the id of a step.
-/

set_option autoImplicit false

namespace Flowchart

/-- What is found among some items is found among those with a property if it has the property. -/
theorem find?_filter_of_find? {α : Type} {items : List α} {p q : α → Bool} {item : α}
    (found : items.find? q = some item) (kept : p item = true) :
    (items.filter p).find? q = some item := by
  rw [List.find?_filter, List.find?_eq_some_iff_append]
  obtain ⟨sought, before, after, whole, none⟩ := List.find?_eq_some_iff_append.1 found
  refine ⟨by simp [kept, sought], before, after, whole, ?_⟩
  intro other earlier
  have unsought : q other = false := by simpa using none other earlier
  simp [unsought]

/-! ## How long an outline is -/

namespace Outline

/-- How long the line about a branch is, with the line feed behind it. -/
def StepSignature.branchLength (s : StepSignature) (b : Branch) : Nat :=
  ((s.branchLine? b).map fun line => line.length + 1).getD 0

/-- The lines about a step are its own line and those about its branches. -/
theorem totalLength_lines (s : StepSignature) :
    Text.totalLength s.lines =
      Text.totalLength [s.kind.keyword ++ ": " ++ s.label.shown] +
        (Branch.all.map s.branchLength).sum := by
  have branches : Text.totalLength (Branch.all.filterMap s.branchLine?) =
      (Branch.all.map s.branchLength).sum := Text.totalLength_filterMap _ _
  rw [← branches, ← Text.totalLength_append]
  rfl

/-- An outline is as long as the lines about its steps. -/
theorem length_write {g : Graph} (nonempty : g.steps ≠ []) :
    (write g).length + 1 =
      (g.steps.map fun n => Text.totalLength (stepSignature g n).lines).sum := by
  have lines : outlineLines g = g.steps.flatMap fun n => (stepSignature g n).lines := by
    rw [outlineLines_eq, signature, List.flatMap_map]
  have nonemptyLines : outlineLines g ≠ [] := by
    obtain ⟨n, rest, steps⟩ := List.exists_cons_of_ne_nil nonempty
    simp [lines, steps, StepSignature.lines]
  rw [write, Text.length_unlines nonemptyLines, lines, Text.totalLength_flatMap]

end Outline

namespace Canvas

open Outline

variable {g : Graph}

/-! ## Looking things up in the redrawn graph -/

section HasTitles

variable (valid : g.HasTitles)
include valid

/-- What comes back from the canvas are the steps. -/
theorem nodes_redraw : (redraw g).nodes = g.steps.map Node.redrawn := by
  rw [redraw_eq fun n mem => isTitle_of_mem_steps valid mem]

/-- The edges that come back are those that the drawing shows. -/
theorem edges_redraw : (redraw g).edges = g.shownEdges := by
  rw [redraw_eq fun n mem => isTitle_of_mem_steps valid mem]

/-- Every node that comes back is a step. -/
theorem isStep_of_mem_redraw {n : Node} (mem : n ∈ (redraw g).nodes) : n.isStep = true := by
  rw [nodes_redraw valid] at mem
  obtain ⟨m, step, rfl⟩ := List.mem_map.1 mem
  exact (List.mem_filter.1 step).2

/-- The steps that come back are the steps that were drawn. -/
theorem steps_redraw : (redraw g).steps = g.steps.map Node.redrawn := by
  rw [← nodes_redraw valid, Graph.steps, List.filter_eq_self]
  intro n mem
  exact isStep_of_mem_redraw valid mem

/-- They come back under their ids. -/
theorem ids_redraw : (redraw g).ids = g.stepIds := by
  rw [Graph.ids, nodes_redraw valid, List.map_map]
  rfl

/-- A branch that leads to a step leads there when the graph was redrawn. -/
theorem branchTarget?_redraw {n : Node} (step : n ∈ g.steps) {b : Branch} {title : String}
    (leads : branchTarget? g n b = some title) :
    branchTarget? (redraw g) n.redrawn b = some title := by
  unfold branchTarget? at leads ⊢
  simp only [Option.bind_eq_bind, Option.bind_eq_some_iff] at leads ⊢
  obtain ⟨x, edge, target, node, titled⟩ := leads
  have isStep : target.isStep = true := by
    by_contra anchor
    have isAnchor : target.kind.isAnchor = true := by simpa [Node.isStep] using anchor
    simp [isAnchor] at titled
  obtain ⟨inGraph, sameId⟩ := Graph.mem_of_firstNode? node
  have shown : (g.stepIds.contains x.source && g.stepIds.contains x.target) = true := by
    rw [Bool.and_eq_true, List.contains_iff_mem, List.contains_iff_mem,
      (Graph.of_branchEdge? edge).2.1, ← sameId]
    exact ⟨List.mem_map_of_mem step, List.mem_map_of_mem (List.mem_filter.2 ⟨inGraph, isStep⟩)⟩
  refine ⟨x, ?_, target.redrawn, ?_, titled⟩
  · rw [Graph.branchEdge?, edges_redraw valid]
    exact find?_filter_of_find? edge shown
  · rw [Graph.firstNode?, nodes_redraw valid, List.find?_map]
    exact congrArg (Option.map Node.redrawn) (find?_filter_of_find? node isStep)

/-- When the graph was redrawn, a branch leads to a step if one of its edges led to one. -/
theorem isSome_branchTarget?_redraw_iff {n : Node} (step : n ∈ g.steps) {b : Branch} :
    (branchTarget? (redraw g) n.redrawn b).isSome ↔
      ∃ x ∈ g.edges, x.source = n.id ∧ x.branch = some b ∧ x.target ∈ g.stepIds := by
  have id : n.redrawn.id = n.id := rfl
  unfold branchTarget?
  rw [id]
  constructor
  · intro leads
    cases edge : (redraw g).branchEdge? n.id b with
    | none => simp [edge] at leads
    | some x =>
      obtain ⟨shown, source, branch⟩ := Graph.of_branchEdge? edge
      rw [edges_redraw valid, Graph.mem_shownEdges_iff] at shown
      exact ⟨x, shown.1, source, branch, shown.2.2⟩
  · rintro ⟨x, inGraph, source, branch, target⟩
    have shown : x ∈ (redraw g).edges := by
      rw [edges_redraw valid, Graph.mem_shownEdges_iff]
      exact ⟨inGraph, source ▸ List.mem_map_of_mem step, target⟩
    obtain ⟨y, edge⟩ := Graph.branchEdge?_of_mem shown branch
    have kept := (Graph.of_branchEdge? edge).1
    rw [edges_redraw valid, Graph.mem_shownEdges_iff, ← ids_redraw valid] at kept
    obtain ⟨found, node⟩ := Graph.firstNode?_of_mem_ids kept.2.2
    have isStep := isStep_of_mem_redraw valid (Graph.mem_of_firstNode? node).1
    have noAnchor : found.kind.isAnchor = false := by simpa [Node.isStep] using isStep
    simp [← source, edge, node, noAnchor]

end HasTitles

/-! ## Signatures -/

/-- Wherever a branch of a decision has an edge to the id of a step, its first edge leads to a
step. -/
def FirstEdgesLead (g : Graph) : Prop :=
  ∀ n ∈ g.steps, n.kind = .decision → ∀ b, ∀ x ∈ g.edges,
    x.source = n.id → x.branch = some b → x.target ∈ g.stepIds → (branchTarget? g n b).isSome

/-- First edges lead to steps exactly if redrawing keeps the target of every branch of a decision.
-/
theorem firstEdgesLead_iff (valid : g.HasTitles) :
    FirstEdgesLead g ↔ ∀ n ∈ g.steps, n.kind = .decision → ∀ b,
      branchTarget? (redraw g) n.redrawn b = branchTarget? g n b := by
  constructor
  · intro lead n step decision b
    cases led : branchTarget? g n b with
    | some title => exact branchTarget?_redraw valid step led
    | none =>
      rw [← Option.not_isSome_iff_eq_none, isSome_branchTarget?_redraw_iff valid step]
      rintro ⟨x, inGraph, source, branch, target⟩
      have first := lead n step decision b x inGraph source branch target
      simp [led] at first
  · intro same n step decision b x inGraph source branch target
    rw [← same n step decision b]
    exact (isSome_branchTarget?_redraw_iff valid step).2 ⟨x, inGraph, source, branch, target⟩

/-- What the signature says of a step besides its branches, it says of the step on the canvas. -/
theorem label_stepSignature_redrawn (g h : Graph) (n : Node) :
    (stepSignature h n.redrawn).label = (stepSignature g n).label :=
  congrArg (Label.mk n.title) (retells_redrawn.distinctDescription? n)

/-- Redrawing keeps the signature exactly if first edges lead to steps. -/
theorem signature_redraw_iff (valid : g.HasTitles) :
    signature (redraw g) = signature g ↔ FirstEdgesLead g := by
  rw [firstEdgesLead_iff valid, signature, steps_redraw valid, List.map_map, signature,
    List.map_inj_left]
  have targets (n : Node) (b : Branch) :
      (stepSignature (redraw g) n.redrawn).target? b =
        if n.kind = .decision then branchTarget? (redraw g) n.redrawn b else none :=
    target?_stepSignature _ _ b
  constructor
  · intro same n step decision b
    have own := congrArg (·.target? b) (same n step)
    simp only [Function.comp_apply] at own
    rw [targets, target?_stepSignature, if_pos decision, if_pos decision] at own
    exact own
  · intro same n step
    apply StepSignature.ext_target? (retells_redrawn.kind n) (label_stepSignature_redrawn g _ n)
    intro b
    rw [targets, target?_stepSignature]
    split
    · rename_i decision
      exact same n step decision b
    · rfl

/-- Where no two nodes share an id, and the edges of a branch all lead to one place, a drawing shows
every branch as it is written. -/
theorem firstEdgesLead_of_single (distinct : g.ids.Nodup)
    (single : ∀ x ∈ g.branchEdges, ∀ y ∈ g.branchEdges,
      y.source = x.source → y.branch = x.branch → y.target = x.target) : FirstEdgesLead g := by
  intro n _ _ b x inGraph source branch target
  obtain ⟨m, step, sameId⟩ := List.mem_map.1 target
  obtain ⟨inNodes, isStep⟩ := List.mem_filter.1 step
  have noAnchor : m.kind.isAnchor = false := by simpa [Node.isStep] using isStep
  obtain ⟨y, edge⟩ := Graph.branchEdge?_of_mem inGraph branch
  rw [source] at edge
  obtain ⟨first, leaves, ofBranch⟩ := Graph.of_branchEdge? edge
  have sameTarget : y.target = x.target := by
    apply single x (List.mem_filter.2 ⟨inGraph, by simp [branch]⟩) y
      (List.mem_filter.2 ⟨first, by simp [ofBranch]⟩)
    · rw [leaves, source]
    · rw [ofBranch, branch]
  have node : g.firstNode? y.target = some m := by
    rw [sameTarget, ← sameId]
    exact Graph.firstNode?_of_mem distinct inNodes
  simp [branchTarget?, edge, node, noAnchor]

/-! ## Outlines -/

/-- Redrawing makes no line about a branch shorter. -/
theorem branchLength_le (valid : g.HasTitles) {n : Node} (step : n ∈ g.steps) (b : Branch) :
    (stepSignature g n).branchLength b ≤ (stepSignature (redraw g) n.redrawn).branchLength b := by
  unfold StepSignature.branchLength StepSignature.branchLine?
  rw [target?_stepSignature, target?_stepSignature, retells_redrawn.kind]
  split
  · cases led : branchTarget? g n b with
    | none => exact Nat.zero_le _
    | some title => rw [branchTarget?_redraw valid step led]
  · exact Nat.le_refl _

/-- Where redrawing gives a branch a target, it adds a line. -/
theorem branchLength_lt (valid : g.HasTitles) {n : Node} (decision : n.kind = .decision)
    {b : Branch} {title : String} (led : branchTarget? g n b = none)
    (leads : branchTarget? (redraw g) n.redrawn b = some title) :
    (stepSignature g n).branchLength b < (stepSignature (redraw g) n.redrawn).branchLength b := by
  have titled : title ≠ "" := by
    obtain ⟨target, inSteps, rfl⟩ := branchTarget?_eq_some leads
    rw [steps_redraw valid] at inSteps
    obtain ⟨m, step, rfl⟩ := List.mem_map.1 inSteps
    exact (isTitle_of_mem_steps valid step).2
  have decisionToo : n.redrawn.kind = .decision := decision
  unfold StepSignature.branchLength StepSignature.branchLine?
  rw [target?_stepSignature, target?_stepSignature, if_pos decision, if_pos decisionToo, led, leads]
  simp [Option.filter, titled]

/-- Redrawing makes the lines about a step no shorter, and longer where a branch gets a target. -/
theorem totalLength_lines_redraw (valid : g.HasTitles) {n : Node} (step : n ∈ g.steps) :
    Text.totalLength (stepSignature g n).lines ≤
        Text.totalLength (stepSignature (redraw g) n.redrawn).lines ∧
      ∀ b, n.kind = .decision → branchTarget? (redraw g) n.redrawn b ≠ branchTarget? g n b →
        Text.totalLength (stepSignature g n).lines <
          Text.totalLength (stepSignature (redraw g) n.redrawn).lines := by
  have kind : (stepSignature (redraw g) n.redrawn).kind = (stepSignature g n).kind := rfl
  rw [totalLength_lines, totalLength_lines, label_stepSignature_redrawn g, kind]
  constructor
  · apply Nat.add_le_add_left
    apply List.sum_le_sum
    intro b _
    exact branchLength_le valid step b
  · intro b decision differ
    apply Nat.add_lt_add_left
    apply List.sum_lt_sum
    · intro b _
      exact branchLength_le valid step b
    · refine ⟨b, by cases b <;> decide, ?_⟩
      cases led : branchTarget? g n b with
      | some title =>
        rw [led, branchTarget?_redraw valid step led] at differ
        exact absurd rfl differ
      | none =>
        obtain ⟨title, leads⟩ := Option.ne_none_iff_exists'.1 (led ▸ differ)
        exact branchLength_lt valid decision led leads

/-- Redrawing keeps the outline exactly if first edges lead to steps. -/
theorem write_redraw_iff (valid : g.HasTitles) :
    write (redraw g) = write g ↔ FirstEdgesLead g := by
  constructor
  · intro same
    rw [firstEdgesLead_iff valid]
    intro n step decision b
    by_contra differ
    have longer : (g.steps.map fun m => Text.totalLength (stepSignature g m).lines).sum <
        (g.steps.map fun m => Text.totalLength (stepSignature (redraw g) m.redrawn).lines).sum := by
      apply List.sum_lt_sum
      · intro m inSteps
        exact (totalLength_lines_redraw valid inSteps).1
      · exact ⟨n, step, (totalLength_lines_redraw valid step).2 b decision differ⟩
    have nonempty : g.steps ≠ [] := List.ne_nil_of_mem step
    have nonemptyToo : (redraw g).steps ≠ [] := by simpa [steps_redraw valid] using nonempty
    have length := length_write nonemptyToo
    rw [same, length_write nonempty, steps_redraw valid, List.map_map] at length
    exact absurd length longer.ne
  · intro lead
    unfold write
    rw [outlineLines_eq, outlineLines_eq, (signature_redraw_iff valid).2 lead]

/-- Redrawing keeps the signature of a graph, and it keeps the outline, exactly if the first edge of
a branch leads to a step wherever any edge of the branch does. -/
theorem redraw_keeps_iff (valid : g.HasTitles) :
    (signature (redraw g) = signature g ↔ FirstEdgesLead g) ∧
      (write (redraw g) = write g ↔ FirstEdgesLead g) :=
  ⟨signature_redraw_iff valid, write_redraw_iff valid⟩

/-- A decision whose yes branch leads to an id that no node has and then, by a second edge, to a
step. -/
def payGraph : Graph where
  nodes := [
    { id := "ask", kind := .decision, title := "Paid?" },
    { id := "done", kind := .output, title := "Done" }]
  edges := [
    { source := "ask", target := "gone", branch := some .yes },
    { source := "ask", target := "done", branch := some .yes }]

/-- Its nodes have titles. -/
theorem hasTitles_payGraph : payGraph.HasTitles := by
  unfold Graph.HasTitles isTitle
  decide

/-- For this flow it comes down to where the first edge of the yes branch leads. -/
theorem redraw_keeps_iff_payGraph : payGraph.HasTitles ∧
    (signature (redraw payGraph) = signature payGraph ↔ FirstEdgesLead payGraph) ∧
      (write (redraw payGraph) = write payGraph ↔ FirstEdgesLead payGraph) :=
  ⟨hasTitles_payGraph, redraw_keeps_iff hasTitles_payGraph⟩

/-- On the canvas the second edge becomes the first one. -/
theorem redraw_payGraph : payGraph.HasTitles ∧ payGraph.ids.Nodup ∧
    signature (redraw payGraph) ≠ signature payGraph ∧
      write (redraw payGraph) ≠ write payGraph := by
  refine ⟨hasTitles_payGraph, ?_, ?_, ?_⟩
  · decide
  · decide +kernel
  · decide +kernel

end Canvas

end Flowchart
