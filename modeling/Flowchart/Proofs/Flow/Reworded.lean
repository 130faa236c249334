import Flowchart.Outline.Writer
import Flowchart.Proofs.Flow.Texts
import Flowchart.Proofs.Graph.Reworded
import Flowchart.Review.Instructions

/-!
# What is written about graphs with other words on the anchors

Outlines, diagrams and the instructions for a review leave the anchors out, each in its own way: a
branch to an anchor has no target, an edge that touches an anchor is not drawn, and a connection is
listed between steps only. None of them changes with the words of the anchors.

The section of a prompt about the branches names both ends of every branch, whatever they are. It
keeps its words where all branches run between steps.
-/

set_option autoImplicit false

namespace Flowchart

variable {g h : Graph}

namespace Outline

/-- A branch has the same target in both outlines, since an anchor is no target. -/
theorem branchTarget?_reworded (r : g.Reworded h) (n : Node) (b : Branch) :
    branchTarget? h n b = branchTarget? g n b := by
  unfold branchTarget?
  rw [r.branchEdge?]
  cases g.branchEdge? n.id b with
  | none => rfl
  | some x =>
    simp only [Option.bind_eq_bind, Option.bind_some]
    rcases Graph.cases_reworded (r.firstNode? x.target) with
      ⟨missing, missingToo⟩ | ⟨n, m, found, foundToo, reworded⟩
    · rw [missing, missingToo]
    · rw [found, foundToo, Option.bind_some, Option.bind_some, reworded.kind]
      cases reworded with
      | same => rfl
      | anchor isAnchor titled description =>
        have anchor : n.kind.isAnchor = true := by simpa [Node.isStep] using isAnchor
        simp [anchor]

/-- The outline names steps only, so it is the same. -/
theorem write_reworded (r : g.Reworded h) : write h = write g := by
  have branches (n : Node) : branchLines h n = branchLines g n := by
    unfold branchLines
    simp only [branchTarget?_reworded r]
  unfold write outlineLines
  simp only [r.steps, branches]

end Outline

namespace Diagram

/-- An edge has the same line in both diagrams. -/
theorem edgeLine?_reworded (r : g.Reworded h) (x : Edge) : edgeLine? h x = edgeLine? g x := by
  unfold edgeLine?
  rcases Graph.cases_reworded (r.lastNode? x.source) with
    ⟨missing, missingToo⟩ | ⟨source, sourceToo, found, foundToo, reworded⟩
  · rw [missing, missingToo]
    rfl
  · rw [found, foundToo]
    simp only [Option.bind_eq_bind, Option.bind_some]
    rcases Graph.cases_reworded (r.lastNode? x.target) with
      ⟨missing, missingToo⟩ | ⟨target, targetToo, foundTarget, foundTargetToo, rewordedTarget⟩
    · rw [missing, missingToo]
      rfl
    · rw [foundTarget, foundTargetToo]
      simp only [Option.bind_some, reworded.kind, reworded.id, rewordedTarget.kind,
        rewordedTarget.id]

/-- The diagram shows steps only, so it is the same. -/
theorem render_reworded (r : g.Reworded h) (direction : String) :
    render h direction = render g direction := by
  unfold render diagramLines
  rw [r.inReadingOrder, r.edges, funext (edgeLine?_reworded r)]

end Diagram

namespace Review

/-- A connection has the same line in both instructions. -/
theorem connectionLine?_reworded (r : g.Reworded h) (x : Edge) :
    connectionLine? h x = connectionLine? g x := by
  unfold connectionLine? nameOfStep?
  rw [r.steps]

/-- The instructions for a review name steps only, so they are the same. -/
theorem reviewInstructions_reworded (r : g.Reworded h) (prompt : String) :
    reviewInstructions prompt (some h) = reviewInstructions prompt (some g) := by
  have context : flowContext h = flowContext g := by
    unfold flowContext
    rw [r.steps, r.edges, funext (connectionLine?_reworded r)]
  have sections : contextSections (some h) = contextSections (some g) := by
    unfold contextSections
    simp only [r.steps, context]
  unfold reviewInstructions
  rw [sections]

end Review

/-! ## Prompts -/

/-- Neither end of a branch is an anchor. An end that is no node at all is fine. -/
def Graph.BranchesBetweenSteps (g : Graph) : Prop :=
  ∀ x ∈ g.branchEdges, ∀ id ∈ [x.source, x.target], ∀ n ∈ g.lastNode? id, n.isStep = true

namespace Prompt

/-- A prompt has the same name for an id that is no anchor. -/
theorem nameOf_reworded (r : g.Reworded h) {id : String}
    (step : ∀ n ∈ g.lastNode? id, n.isStep = true) : nameOf h id = nameOf g id := by
  unfold nameOf
  rcases Graph.cases_reworded (r.lastNode? id) with
    ⟨missing, missingToo⟩ | ⟨n, m, found, foundToo, reworded⟩
  · rw [missing, missingToo]
  · rw [found, foundToo, reworded.eq_of_isStep (step n found)]

/-- All parts of a prompt but the branches. -/
theorem parts_reworded (r : g.Reworded h) (o : Options) :
    parts h o =
      roleLines o ++ overviewLines g ++ flowLines g ++ branchLines h ++ detailLines o ++
        instructionLines o ++ diagramLines g o ++ constraintLines := by
  have overview : overviewLines h = overviewLines g := by
    unfold overviewLines hasOwnTitle givenDescription?
    rw [r.title, r.description]
  have flow : flowLines h = flowLines g := by
    unfold flowLines
    rw [r.inReadingOrder]
  have diagram : diagramLines h o = diagramLines g o := by
    unfold diagramLines
    rw [Diagram.render_reworded r]
  unfold parts
  rw [overview, flow, diagram]

/-- Where no branch touches an anchor, both prompts have the same lines for branches. -/
theorem filterMap_branchLine?_reworded (r : g.Reworded h) (between : g.BranchesBetweenSteps) :
    h.edges.filterMap (branchLine? h) = g.edges.filterMap (branchLine? g) := by
  have branches : h.branchEdges = g.branchEdges := by
    unfold Graph.branchEdges
    rw [r.edges]
  rw [filterMap_branchLine?, filterMap_branchLine?, branches]
  apply List.filterMap_congr
  intro x mem
  have source := nameOf_reworded r (between x mem x.source (by simp))
  have target := nameOf_reworded r (between x mem x.target (by simp))
  unfold branchLine?
  rw [source, target]

/-- Where all branches run between steps, a prompt does not depend on what the anchors say. -/
theorem render_reworded (r : g.Reworded h) (between : g.BranchesBetweenSteps) (o : Options) :
    render h o = render g o := by
  have branches : branchLines h = branchLines g := by
    unfold branchLines
    rw [filterMap_branchLine?_reworded r between]
  unfold render
  rw [parts_reworded r, branches]
  rfl

end Prompt

end Flowchart
