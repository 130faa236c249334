import Flowchart.Check.Battery
import Flowchart.Check.Overview
import Flowchart.Proofs.Graph.Framed
import Flowchart.Proofs.Graph.Rename
import Flowchart.Proofs.Walk.Cycle
import Flowchart.Walk.ReadingOrder

/-!
# Graphs of the same flow

Two graphs show the same flow if their steps, the edges between steps, the branches and what the
walks come to are the same up to the ids and to what nobody sees of a node. Whatever is said about a
flow in words is then the same for both, and what is said about a step is said about the step with
the other id. Checks are an example: a report on one graph is the report on the other one.
-/

set_option autoImplicit false

namespace Flowchart

/-- A change of nodes that gives them other ids and leaves what is seen of them: the title, the
description if it says anything else, and what a decision asks. -/
structure Node.Retells (f : String → String) (on : Node → Node) : Prop extends
    Node.Recasts f on where
  title : ∀ n, (on n).title = n.title
  distinctDescription? : ∀ n, (on n).distinctDescription? = n.distinctDescription?
  question : ∀ n, n.kind = .decision → (on n).question = n.question

/-- Giving nodes other ids leaves all of them that is seen. -/
theorem Node.retells_rename {f : String → String} (injective : Function.Injective f) :
    Node.Retells f (Node.rename f) where
  injective := injective
  id _ := rfl
  kind _ := rfl
  title _ := rfl
  distinctDescription? _ := rfl
  question _ _ := rfl

namespace Graph

/-- A graph whose edges lead from node to node, and whose nodes have titles. -/
structure Tidy (g : Graph) : Prop where
  closed : ∀ x ∈ g.edges, x.source ∈ g.ids ∧ x.target ∈ g.ids
  titled : ∀ n ∈ g.nodes, n.title ≠ ""

/-- In a tidy graph, all that can be reached are nodes. -/
theorem Tidy.mem_ids_of_accessible {g : Graph} (tidy : g.Tidy) {id : String}
    (accessible : g.Accessible id) : id ∈ g.ids := by
  obtain ⟨n, isStart, path⟩ := accessible
  induction path with
  | refl => exact id_of_mem_startNodes isStart
  | tail _ leads _ =>
    obtain ⟨x, mem, -, rfl⟩ := leads
    exact (tidy.closed x mem).2

/-- The second graph shows the flow of the first one, with its steps retold and perhaps with
anchors. -/
structure Alike (f : String → String) (on : Node → Node) (g h : Graph) : Prop where
  retells : Node.Retells f on
  title : h.title = g.title
  description : h.description = g.description
  steps : h.steps = g.steps.map on
  stepEdges : h.stepEdges = g.stepEdges.map (Edge.rename f)
  branchEdges : h.branchEdges = g.branchEdges.map (Edge.rename f)
  firstNode? : ∀ id ∈ g.ids, h.firstNode? (f id) = (g.firstNode? id).map on
  lastNode? : ∀ id ∈ g.ids, h.lastNode? (f id) = (g.lastNode? id).map on
  order : h.inReadingOrder = g.inReadingOrder.map on
  unreachable : h.unreachable = g.unreachable.map f
  cycle : h.findCycle = g.findCycle.map f

namespace Alike

variable {f : String → String} {on : Node → Node} {g h : Graph}

/-- The same edge is found for a branch, between the other ids. -/
theorem branchEdge? (alike : Alike f on g h) (id : String) (b : Branch) :
    h.branchEdge? (f id) b = (g.branchEdge? id b).map (Edge.rename f) := by
  rw [branchEdge?_eq_find?_branchEdges, branchEdge?_eq_find?_branchEdges, alike.branchEdges,
    List.find?_map]
  congr 2
  funext x
  simp only [Function.comp_apply, Edge.source_rename, Edge.branch_rename,
    alike.retells.injective.beq_eq]

/-- A node of the first graph is in the second one under its other id. -/
theorem mem_ids (alike : Alike f on g h) {id : String} (mem : id ∈ g.ids) : f id ∈ h.ids := by
  obtain ⟨n, found⟩ := lastNode?_of_mem_ids mem
  have retold := alike.lastNode? id mem
  rw [found, Option.map_some] at retold
  obtain ⟨inGraph, same⟩ := mem_of_lastNode? retold
  exact same ▸ List.mem_map_of_mem inGraph

/-- What is said about retold nodes is said about the nodes, if it is about kinds. -/
theorem beq_kind (alike : Alike f on g h) (kind : NodeKind) :
    (fun n : Node => n.kind == kind) ∘ on = fun n => n.kind == kind := by
  funext n
  rw [Function.comp_apply, alike.retells.kind]

/-- Graphs of one flow are equally complex. -/
theorem complexity (alike : Alike f on g h) : h.complexity = g.complexity := by
  have decisions : (h.steps.countP fun n => n.kind == .decision) =
      g.steps.countP fun n => n.kind == .decision := by
    rw [alike.steps, List.countP_map, alike.beq_kind]
  unfold Graph.complexity
  simp only [decisions, alike.stepEdges]
  rw [alike.steps, List.length_map, List.length_map]

end Alike

end Graph

/-! ## Reports -/

namespace Check

/-- The issue about the node with the other id. -/
def Issue.rename (f : String → String) (i : Issue) : Issue :=
  { i with node := i.node.map f }

variable {f : String → String} {on : Node → Node} {g h : Graph}

/-- A retold node with a title has the same name in a report. -/
theorem nameOf_retold (retells : Node.Retells f on) {n : Node} (titled : n.title ≠ "") :
    nameOf (on n) = nameOf n := by
  rw [nameOf, nameOf, retells.title, if_neg titled, if_neg titled]

/-- A branch that leads to a node is no issue. -/
theorem danglingIssue?_eq_none {decision : Node} {b : Branch}
    (closed : ∀ x, g.branchEdge? decision.id b = some x → x.target ∈ g.ids) :
    danglingIssue? g decision b = none := by
  unfold danglingIssue?
  cases edge : g.branchEdge? decision.id b with
  | none => rfl
  | some x => simp [closed x edge]

/-- The same is said about a retold decision. -/
theorem decisionIssues_alike (alike : g.Alike f on h) (tidy : g.Tidy) {n : Node}
    (decision : n.kind = .decision) :
    decisionIssues h (on n) = (decisionIssues g n).map (Issue.rename f) := by
  have edges (b : Branch) := alike.branchEdge? n.id b
  have closed (b : Branch) (x : Edge) (edge : g.branchEdge? n.id b = some x) :
      x.target ∈ g.ids :=
    (tidy.closed x (List.mem_of_find?_eq_some edge)).2
  have quiet (b : Branch) : danglingIssue? g n b = none :=
    danglingIssue?_eq_none (closed b)
  have quietToo (b : Branch) : danglingIssue? h (on n) b = none := by
    apply danglingIssue?_eq_none
    intro y edge
    rw [alike.retells.id, edges, Option.map_eq_some_iff] at edge
    obtain ⟨x, edge, rfl⟩ := edge
    exact alike.mem_ids (closed b x edge)
  have lacks : lacking h (on n) = lacking g n := by
    unfold lacking
    congr 1
    funext b
    rw [alike.retells.id, edges, Option.isNone_map]
  unfold decisionIssues
  simp only [lacks, alike.retells.question n decision, alike.retells.id]
  split <;> simp [quiet, quietToo, Issue.rename]

/-- So the check of the branches finds the same. -/
theorem decisionsBranch_alike (alike : g.Alike f on h) (tidy : g.Tidy) :
    decisionsBranch h = (decisionsBranch g).map (Issue.rename f) := by
  unfold decisionsBranch
  rw [alike.steps, List.filter_map, alike.beq_kind, List.flatMap_map, List.map_flatMap]
  apply List.flatMap_congr
  intro n mem
  exact decisionIssues_alike alike tidy (by simpa using List.of_mem_filter mem)

/-- In a tidy graph, steps have titles. -/
theorem titled_of_mem_steps (tidy : g.Tidy) {n : Node} (mem : n ∈ g.steps) : n.title ≠ "" :=
  tidy.titled n (List.mem_of_mem_filter mem)

/-- Issues about the steps with a property are alike if the property is. -/
theorem issues_alike (alike : g.Alike f on h) (tidy : g.Tidy) {p q : Node → Bool}
    (same : ∀ n, q (on n) = p n) (finding : String → Finding) :
    ((h.steps.filter q).map fun n =>
        ({ finding := finding (nameOf n), node := some n.id } : Issue)) =
      ((g.steps.filter p).map fun n =>
        ({ finding := finding (nameOf n), node := some n.id } : Issue)).map (Issue.rename f) := by
  have kept : q ∘ on = p := funext same
  rw [alike.steps, List.filter_map, kept, List.map_map, List.map_map]
  apply List.map_congr_left
  intro n mem
  have titled := titled_of_mem_steps tidy (List.mem_of_mem_filter mem)
  simp only [Function.comp_apply, nameOf_retold alike.retells titled, Issue.rename,
    alike.retells.id, Option.map_some]

/-- The check for isolated steps finds the same. -/
theorem noneIsolated_alike (alike : g.Alike f on h) (tidy : g.Tidy) :
    noneIsolated h = (noneIsolated g).map (Issue.rename f) := by
  have connected : connectedIds h = (connectedIds g).map f := by
    unfold connectedIds
    rw [alike.stepEdges, List.flatMap_map, List.map_flatMap]
    rfl
  unfold noneIsolated
  simp only [connected]
  apply issues_alike alike tidy
  intro n
  rw [alike.retells.id, Graph.contains_map_of_injective alike.retells.injective]

/-- The check for dead ends finds the same. -/
theorem noneDeadEnd_alike (alike : g.Alike f on h) (tidy : g.Tidy) :
    noneDeadEnd h = (noneDeadEnd g).map (Issue.rename f) := by
  have leaving : h.stepEdges.map (·.source) = (g.stepEdges.map (·.source)).map f := by
    rw [alike.stepEdges, List.map_map, List.map_map]
    rfl
  unfold noneDeadEnd
  simp only [leaving]
  apply issues_alike alike tidy
  intro n
  rw [alike.retells.id, alike.retells.kind,
    Graph.contains_map_of_injective alike.retells.injective]

/-- Graphs of one flow have steps of the same kinds. -/
theorem any_steps_alike (alike : g.Alike f on h) (kind : NodeKind) :
    (h.steps.any fun n => n.kind == kind) = g.steps.any fun n => n.kind == kind := by
  rw [alike.steps, List.any_map, alike.beq_kind]

/-- The check for an output finds the same. -/
theorem outputExists_alike (alike : g.Alike f on h) :
    outputExists h = (outputExists g).map (Issue.rename f) := by
  unfold outputExists
  rw [any_steps_alike alike]
  split <;> rfl

/-- The check for an input finds the same. -/
theorem inputExists_alike (alike : g.Alike f on h) :
    inputExists h = (inputExists g).map (Issue.rename f) := by
  unfold inputExists
  rw [any_steps_alike alike]
  split <;> rfl

/-- The check for steps out of reach finds the same. -/
theorem allReachable_alike (alike : g.Alike f on h) (tidy : g.Tidy) :
    allReachable h = (allReachable g).map (Issue.rename f) := by
  unfold allReachable
  rw [alike.unreachable, List.filterMap_map, List.map_filterMap]
  apply List.filterMap_congr
  intro id mem
  obtain ⟨n, isLeft, rfl⟩ := List.mem_map.1 mem
  have inGraph : n.id ∈ g.ids := List.mem_map_of_mem (List.mem_of_mem_filter isLeft)
  rw [Function.comp_apply, alike.lastNode? n.id inGraph]
  cases found : g.lastNode? n.id with
  | none => rfl
  | some m =>
    have titled := tidy.titled m (Graph.mem_of_lastNode? found).1
    simp only [Option.map_some, nameOf_retold alike.retells titled]
    rfl

/-- The check for a cycle finds the same. -/
theorem noLoop_alike (alike : g.Alike f on h) (tidy : g.Tidy) :
    noLoop h = (noLoop g).map (Issue.rename f) := by
  have names {id : String} (mem : id ∈ g.findCycle) :
      ((h.lastNode? (f id)).map (·.title)).getD (f id) =
        ((g.lastNode? id).map (·.title)).getD id := by
    have inGraph := tidy.mem_ids_of_accessible (Graph.accessible_of_mem_findCycle mem)
    obtain ⟨n, found⟩ := Graph.lastNode?_of_mem_ids inGraph
    rw [alike.lastNode? id inGraph, found]
    exact alike.retells.title n
  unfold noLoop
  rw [alike.cycle]
  cases cycle : g.findCycle with
  | nil => rfl
  | cons id rest =>
    have named : ((id :: rest).map f).map (fun id => ((h.lastNode? id).map (·.title)).getD id) =
        (id :: rest).map fun id => ((g.lastNode? id).map (·.title)).getD id := by
      rw [List.map_map]
      apply List.map_congr_left
      intro other mem
      exact names (cycle ▸ mem)
    simp only [List.map_cons] at named ⊢
    rw [named]
    rfl

/-- A report on one graph of a flow is the report on the other one. -/
theorem report_alike (alike : g.Alike f on h) (tidy : g.Tidy) (deep : Bool) :
    (report h deep).issues = (report g deep).issues.map (Issue.rename f) := by
  have always : basic h = (basic g).map (Issue.rename f) := by
    unfold basic
    rw [outputExists_alike alike, decisionsBranch_alike alike tidy, noneIsolated_alike alike tidy,
      noneDeadEnd_alike alike tidy, inputExists_alike alike]
    simp only [List.map_append]
  unfold report
  simp only [always, List.map_append]
  congr 1
  cases deep with
  | false => rfl
  | true =>
    simp only [if_true, List.map_append]
    rw [allReachable_alike alike tidy, noLoop_alike alike tidy]

end Check

end Flowchart
