import Flowchart.Proofs.Canvas.Redraw
import Flowchart.Proofs.Outline.Anchors
import Flowchart.Proofs.Outline.Regular

/-!
# Drawing a graph that was read

A graph that was read can be drawn and read back unseen. It is the graph of the declared steps,
perhaps between a start and an end. The drawing leaves the start and the end out and retells the
steps; neither makes a difference to what is written, checked or computed, ids included.
-/

set_option autoImplicit false

namespace Flowchart

namespace Graph

/-- What is written about the second graph, what is found wrong with it, and what is computed from
it is the same as for the first one. -/
structure LooksLike (g h : Graph) : Prop where
  outline : Outline.write h = Outline.write g
  prompt : ∀ o : Prompt.Options, Prompt.render h o = Prompt.render g o
  diagram : ∀ direction, Diagram.render h direction = Diagram.render g direction
  report : ∀ deep, (Check.report h deep).issues = (Check.report g deep).issues
  cycle : h.findCycle = g.findCycle
  unreachable : h.unreachable = g.unreachable
  complexity : h.complexity = g.complexity
  order : h.inReadingOrder.map (·.id) = g.inReadingOrder.map (·.id)

namespace LooksLike

variable {g h k : Graph}

/-- If the second graph looks like the first one, the first one looks like the second. -/
theorem symm (same : g.LooksLike h) : h.LooksLike g where
  outline := same.outline.symm
  prompt o := (same.prompt o).symm
  diagram direction := (same.diagram direction).symm
  report deep := (same.report deep).symm
  cycle := same.cycle.symm
  unreachable := same.unreachable.symm
  complexity := same.complexity.symm
  order := same.order.symm

/-- What looks alike in two steps looks alike. -/
theorem trans (first : g.LooksLike h) (second : h.LooksLike k) : g.LooksLike k where
  outline := second.outline.trans first.outline
  prompt o := (second.prompt o).trans (first.prompt o)
  diagram direction := (second.diagram direction).trans (first.diagram direction)
  report deep := (second.report deep).trans (first.report deep)
  cycle := second.cycle.trans first.cycle
  unreachable := second.unreachable.trans first.unreachable
  complexity := second.complexity.trans first.complexity
  order := second.order.trans first.order

end LooksLike

/-- Graphs that are alike under the same ids look alike if their diagrams do. -/
theorem Alike.looksLike {g h : Graph} {on : Node → Node} (alike : g.Alike id on h) (tidy : g.Tidy)
    (diagram : ∀ direction, Diagram.render h direction = Diagram.render g direction) :
    g.LooksLike h where
  outline := Outline.write_alike alike tidy
  prompt o := by
    apply Prompt.render_alike alike tidy
    unfold Prompt.diagramLines
    rw [diagram]
  diagram := diagram
  report deep := by
    have same : Check.Issue.rename id = id := by
      funext i
      simp [Check.Issue.rename]
    rw [Check.report_alike alike tidy, same, List.map_id]
  cycle := by rw [alike.cycle, List.map_id]
  unreachable := by rw [alike.unreachable, List.map_id]
  complexity := alike.complexity
  order := by
    rw [alike.order, List.map_map]
    exact List.map_congr_left fun n _ => alike.retells.id n

/-- Anchors are not seen. -/
theorem Framable.looksLike_framed {g : Graph} {first last : String}
    (framable : g.Framable first last) (tidy : g.Tidy) : g.LooksLike (g.framed first last) := by
  have alike : g.Alike id (Node.rename id) g := by
    have renamed := alike_rename Function.injective_id g
    rwa [rename_id] at renamed
  exact (alike.framed framable).looksLike tidy fun direction =>
    Diagram.render_framed framable direction

end Graph

namespace Canvas

/-- Nobody sees that the steps were retold. -/
theorem looksLike_redraw {g : Graph} (steps : g.steps = g.nodes)
    (titled : ∀ n ∈ g.steps, isTitle n.title) (tidy : g.Tidy) : g.LooksLike (redraw g) := by
  rw [redraw_eq_recast steps tidy.closed titled]
  refine (Graph.alike_recast retells_redrawn g).looksLike tidy fun direction => ?_
  rw [Diagram.render_recast retells_redrawn, Graph.rename_id]

/-- Every graph that was read looks as before when it was drawn and read back. -/
theorem looksLike_redraw_of_read {mode : Outline.Mode} {text : String}
    {title description : Option String} {r : Outline.Reading}
    (isRead : Outline.read mode text title description = .ok r) :
    r.graph.LooksLike (redraw r.graph) := by
  obtain ⟨s, scanned, rfl⟩ := Outline.read_eq_ok_iff.1 isRead
  have legible := Outline.legible_of_scan scanned
  have tidy := Outline.tidy_stepGraph mode title description legible
  have allSteps := Outline.isStep_of_mem_stepGraph legible mode title description
  have titled : ∀ n ∈ (Outline.stepGraph mode title description s.declarations).steps,
      isTitle n.title := by
    intro n mem
    obtain ⟨e, inEntries, rfl⟩ := List.mem_map.1 (List.mem_of_mem_filter mem)
    exact (Outline.legible_entriesIn legible mode e inEntries).label.title
  have redrawn := looksLike_redraw (List.filter_eq_self.2 allSteps) titled tidy
  rw [Outline.graph_readingOf]
  split
  · rename_i anchored
    have framable := Outline.framable_stepGraph legible title description anchored
    rw [redraw_framed framable titled]
    exact (framable.looksLike_framed tidy).symm.trans redrawn
  · exact redrawn

/-- So does the flow that is read from this text between anchors. -/
theorem looksLike_redraw_of_read_parcelText :
    Outline.read ⟨true, true⟩ Outline.parcelText = .ok Outline.parcelReading ∧
      Outline.parcelReading.graph.LooksLike (redraw Outline.parcelReading.graph) :=
  ⟨Outline.read_parcelText, looksLike_redraw_of_read Outline.read_parcelText⟩

end Canvas

end Flowchart
