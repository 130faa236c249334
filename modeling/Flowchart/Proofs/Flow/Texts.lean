import Flowchart.Diagram
import Flowchart.Prompt.Render
import Flowchart.Proofs.Flow.Alike
import Flowchart.Proofs.Outline.Written
import Flowchart.Proofs.Walk.FramedReach
import Flowchart.Proofs.Walk.FramedSearch
import Flowchart.Proofs.Walk.FramedTour
import Flowchart.Proofs.Walk.Rename

/-!
# What is written about a flow

Outlines and prompts name steps by their titles, so they are the same for all graphs of a flow. A
diagram shows ids, but no anchors.
-/

set_option autoImplicit false

namespace Flowchart

variable {f : String → String} {on : Node → Node} {g h : Graph}

namespace Outline

/-- A branch has the same target in the outlines of one flow. -/
theorem branchTarget?_alike (alike : g.Alike f on h) (tidy : g.Tidy) (n : Node) (b : Branch) :
    branchTarget? h (on n) b = branchTarget? g n b := by
  unfold branchTarget?
  rw [alike.retells.id, alike.branchEdge?]
  cases edge : g.branchEdge? n.id b with
  | none => rfl
  | some x =>
    have inGraph : x.target ∈ g.ids := (tidy.closed x (List.mem_of_find?_eq_some edge)).2
    simp only [Option.map_some, Option.bind_eq_bind, Option.bind_some, Edge.target_rename,
      alike.firstNode? x.target inGraph]
    cases g.firstNode? x.target with
    | none => rfl
    | some target =>
      simp only [Option.map_some, Option.bind_some, alike.retells.kind, alike.retells.title]

/-- Graphs of one flow have the same signature. -/
theorem signature_alike (alike : g.Alike f on h) (tidy : g.Tidy) : signature h = signature g := by
  unfold signature
  rw [alike.steps, List.map_map]
  congr 1
  funext n
  apply StepSignature.ext_target?
  · exact alike.retells.kind n
  · exact congrArg₂ Label.mk (alike.retells.title n) (alike.retells.distinctDescription? n)
  · intro b
    rw [Function.comp_apply, target?_stepSignature, target?_stepSignature, alike.retells.kind,
      branchTarget?_alike alike tidy]

/-- Graphs of one flow have the same outline. -/
theorem write_alike (alike : g.Alike f on h) (tidy : g.Tidy) : write h = write g := by
  unfold write
  rw [outlineLines_eq, outlineLines_eq, signature_alike alike tidy]

end Outline

namespace Prompt

/-- A condition is shown where it is the question that a decision asks and its title is not. -/
theorem distinctCondition?_eq (n : Node) :
    distinctCondition? n =
      if n.kind = .decision then (some n.question).filter (· != n.title) else none := by
  unfold distinctCondition? Node.question
  cases n.givenCondition? <;> simp [Option.filter]

/-- A prompt says the same about a retold step. -/
theorem stepLines_retold (retells : Node.Retells f on) (number : Nat) (n : Node) :
    stepLines number (on n) = stepLines number n := by
  have condition : distinctCondition? (on n) = distinctCondition? n := by
    rw [distinctCondition?_eq, distinctCondition?_eq, retells.kind, retells.title]
    split
    · rename_i decision
      rw [retells.question n decision]
    · rfl
  unfold stepLines stepHead
  rw [condition, retells.kind, retells.title, retells.distinctDescription?]

/-- A prompt numbers retold steps as it numbers the steps. -/
theorem numberedSteps_retold (retells : Node.Retells f on) (number : Nat) (nodes : List Node) :
    numberedSteps number (nodes.map on) = numberedSteps number nodes := by
  induction nodes generalizing number with
  | nil => rfl
  | cons n rest ih => rw [List.map_cons, numberedSteps, numberedSteps, ih, stepLines_retold retells]

/-- The lines about the branches come from the edges that are branches. -/
theorem filterMap_branchLine? (g : Graph) :
    g.edges.filterMap (branchLine? g) = g.branchEdges.filterMap (branchLine? g) := by
  unfold Graph.branchEdges
  rw [List.filterMap_filter]
  congr 1
  funext x
  cases branch : x.branch <;> simp [branchLine?, branch]

/-- A prompt has the same name for a step, whatever its id is. -/
theorem nameOf_alike (alike : g.Alike f on h) {id : String} (mem : id ∈ g.ids) :
    nameOf h (f id) = nameOf g id := by
  obtain ⟨n, found⟩ := Graph.lastNode?_of_mem_ids mem
  unfold nameOf
  rw [alike.lastNode? id mem, found]
  exact alike.retells.title n

/-- Prompts say the same about the branches of one flow. -/
theorem branchLines_alike (alike : g.Alike f on h) (tidy : g.Tidy) :
    branchLines h = branchLines g := by
  have lines : h.edges.filterMap (branchLine? h) = g.edges.filterMap (branchLine? g) := by
    rw [filterMap_branchLine?, filterMap_branchLine?, alike.branchEdges, List.filterMap_map]
    apply List.filterMap_congr
    intro x mem
    obtain ⟨source, target⟩ := tidy.closed x (List.mem_of_mem_filter mem)
    unfold branchLine?
    simp only [Function.comp_apply, Edge.branch_rename, Edge.source_rename, Edge.target_rename,
      nameOf_alike alike source, nameOf_alike alike target]
  unfold branchLines
  rw [lines]

/-- Apart from its diagram, the prompt for a flow does not depend on ids and anchors. -/
theorem render_alike (alike : g.Alike f on h) (tidy : g.Tidy) {o : Options}
    (diagram : diagramLines h o = diagramLines g o) : render h o = render g o := by
  have overview : overviewLines h = overviewLines g := by
    unfold overviewLines hasOwnTitle givenDescription?
    rw [alike.title, alike.description]
  have flow : flowLines h = flowLines g := by
    unfold flowLines
    rw [alike.order, numberedSteps_retold alike.retells]
  unfold render parts
  rw [overview, flow, branchLines_alike alike tidy, diagram]

end Prompt

/-! ## Diagrams -/

namespace Diagram

variable {first last : String}

/-- An edge has the same line in the diagram of the framed graph. -/
theorem edgeLine?_framed (framable : g.Framable first last) {x : Edge} (mem : x ∈ g.edges) :
    edgeLine? (g.framed first last) x = edgeLine? g x := by
  obtain ⟨source, target⟩ := framable.closed x mem
  unfold edgeLine?
  rw [framable.lastNode?_framed source, framable.lastNode?_framed target]

/-- Edges that touch an anchor are not drawn. -/
theorem edgeLine?_eq_none {x : Edge} {n : Node} (anchor : n.kind.isAnchor = true)
    (touches : g.lastNode? x.source = some n ∨ g.lastNode? x.target = some n) :
    edgeLine? g x = none := by
  unfold edgeLine?
  rcases touches with source | target
  · rw [source]
    cases g.lastNode? x.target <;> simp [anchor]
  · rw [target]
    cases g.lastNode? x.source <;> simp [anchor]

/-- A diagram shows no anchors. -/
theorem render_framed (framable : g.Framable first last) (direction : String) :
    render (g.framed first last) direction = render g direction := by
  have starting : (Outline.startEdges first g.nodes).filterMap
      (edgeLine? (g.framed first last)) = [] := by
    rw [List.filterMap_eq_nil_iff]
    intro x mem
    have anchor : (startNode first).kind.isAnchor = true := rfl
    refine edgeLine?_eq_none anchor (.inl ?_)
    rw [(of_mem_startEdges mem).1]
    exact framable.lastNode?_framed_first
  have ending : (endEdges last g.nodes).filterMap (edgeLine? (g.framed first last)) = [] := by
    rw [List.filterMap_eq_nil_iff]
    intro x mem
    have anchor : (endNode last).kind.isAnchor = true := rfl
    refine edgeLine?_eq_none anchor (.inr ?_)
    rw [(of_mem_endEdges mem).2.1]
    exact Graph.lastNode?_framed_last g first last
  have edges : (g.framed first last).edges.filterMap (edgeLine? (g.framed first last)) =
      g.edges.filterMap (edgeLine? g) := by
    have inner : g.edges.filterMap (edgeLine? (g.framed first last)) =
        g.edges.filterMap (edgeLine? g) := by
      apply List.filterMap_congr
      intro x mem
      exact edgeLine?_framed framable mem
    rw [show (g.framed first last).edges =
      Outline.startEdges first g.nodes ++ g.edges ++ endEdges last g.nodes from rfl]
    simp only [List.filterMap_append, starting, ending, inner, List.nil_append, List.append_nil]
  unfold render diagramLines
  rw [framable.inReadingOrder_framed, edges]

/-- A diagram shows nothing of a changed node but its id, its kind and its title. -/
theorem render_recast (retells : Node.Retells f on) (g : Graph) (direction : String) :
    render (g.recast f on) direction = render (g.rename f) direction := by
  have renames := Node.retells_rename retells.injective
  -- All that a diagram shows of a node is kept, so the node might as well only be renamed.
  have nodes : nodeLine? ∘ on = nodeLine? ∘ Node.rename f := by
    funext n
    simp only [Function.comp_apply, nodeLine?, retells.id, retells.kind, retells.title,
      renames.id, renames.kind, renames.title]
  have edges : (g.edges.map (Edge.rename f)).filterMap (edgeLine? (g.recast f on)) =
      (g.edges.map (Edge.rename f)).filterMap (edgeLine? (g.rename f)) := by
    apply List.filterMap_congr
    intro x mem
    obtain ⟨y, -, rfl⟩ := List.mem_map.1 mem
    have ends (id : String) : (g.recast f on).lastNode? (f id) = (g.lastNode? id).map on ∧
        (g.rename f).lastNode? (f id) = (g.lastNode? id).map (Node.rename f) :=
      ⟨Graph.lastNode?_recast retells.toRecasts g id, Graph.lastNode?_recast renames.toRecasts g id⟩
    unfold edgeLine?
    simp only [Edge.source_rename, Edge.target_rename, ends]
    cases g.lastNode? y.source with
    | none => rfl
    | some source =>
      cases g.lastNode? y.target with
      | none => rfl
      | some target =>
        simp only [Option.map_some, Option.bind_eq_bind, Option.bind_some, retells.kind,
          retells.id, renames.kind, renames.id]
  unfold render diagramLines
  rw [Graph.inReadingOrder_recast retells.toRecasts,
    show (g.rename f).inReadingOrder = g.inReadingOrder.map (Node.rename f) from
      Graph.inReadingOrder_recast renames.toRecasts g,
    List.filterMap_map, List.filterMap_map, nodes]
  exact congrArg (fun lines => Text.unlines (_ :: _ ++ lines)) edges

end Diagram

/-! ## Graphs that are alike -/

namespace Graph

/-- A graph and the same graph with retold nodes are alike. -/
theorem alike_recast (retells : Node.Retells f on) (g : Graph) :
    g.Alike f on (g.recast f on) where
  retells := retells
  title := rfl
  description := rfl
  steps := steps_recast retells.toRecasts g
  stepEdges := stepEdges_recast retells.toRecasts g
  branchEdges := by
    unfold branchEdges recast
    rw [List.filter_map]
    rfl
  firstNode? id _ := firstNode?_recast retells.toRecasts g id
  lastNode? id _ := lastNode?_recast retells.toRecasts g id
  order := inReadingOrder_recast retells.toRecasts g
  unreachable := unreachable_recast retells.toRecasts g
  cycle := findCycle_recast retells.toRecasts g

/-- A graph and the same graph under other ids are alike. -/
theorem alike_rename (injective : Function.Injective f) (g : Graph) :
    g.Alike f (Node.rename f) (g.rename f) :=
  alike_recast (Node.retells_rename injective) g

/-- Anchors make no difference. -/
theorem Alike.framed {k : Graph} {first last : String} (alike : g.Alike f on k)
    (framable : k.Framable first last) : g.Alike f on (k.framed first last) where
  retells := alike.retells
  title := alike.title
  description := alike.description
  steps := by rw [framable.steps_framed, ← framable.steps_eq, alike.steps]
  stepEdges := by rw [framable.stepEdges_framed, ← framable.stepEdges_eq, alike.stepEdges]
  branchEdges := by rw [branchEdges_framed, alike.branchEdges]
  firstNode? id mem := by
    rw [framable.firstNode?_framed (alike.mem_ids mem), alike.firstNode? id mem]
  lastNode? id mem := by
    rw [framable.lastNode?_framed (alike.mem_ids mem), alike.lastNode? id mem]
  order := by rw [framable.inReadingOrder_framed, alike.order]
  unreachable := by rw [framable.unreachable_framed, alike.unreachable]
  cycle := by rw [framable.findCycle_framed, alike.cycle]

end Graph

end Flowchart
