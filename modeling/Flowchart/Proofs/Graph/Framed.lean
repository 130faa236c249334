import Flowchart.Outline.Reader
import Flowchart.Proofs.Graph.Distinct

/-!
# A flow between a start and an end

The graph of a flow with anchors is the graph without them, put between a start and an end. Nothing
leads to the start and nothing leads on from the end, so whatever is looked up about a step is the
same in both graphs, but for edges to the end, which come after the others and are no branches.
-/

set_option autoImplicit false

namespace Flowchart

open Outline (startEdges outputEdges lastEdges)

/-- The start of a flow. -/
def startNode (id : String) : Node where
  id := id
  kind := .start
  title := "Start"

/-- The end of a flow. -/
def endNode (id : String) : Node where
  id := id
  kind := .finish
  title := "End"

/-- The edges to the end. -/
def endEdges (id : String) (nodes : List Node) : List Edge :=
  outputEdges id nodes ++ lastEdges id nodes

/-- The edges from the start lead to nodes, and they are no branches. -/
theorem of_mem_startEdges {id : String} {nodes : List Node} {x : Edge}
    (mem : x ∈ startEdges id nodes) :
    x.source = id ∧ x.target ∈ nodes.map (·.id) ∧ x.branch = none := by
  obtain ⟨first, head, rfl⟩ := Option.map_eq_some_iff.1 (Option.mem_toList.1 mem)
  exact ⟨rfl, List.mem_map_of_mem (List.mem_of_head? head), rfl⟩

/-- The edges to the end come from nodes, and they are no branches. -/
theorem of_mem_endEdges {id : String} {nodes : List Node} {x : Edge}
    (mem : x ∈ endEdges id nodes) :
    x.source ∈ nodes.map (·.id) ∧ x.target = id ∧ x.branch = none := by
  rcases List.mem_append.1 mem with fromOutput | fromLast
  · obtain ⟨n, isOutput, rfl⟩ := List.mem_map.1 fromOutput
    exact ⟨List.mem_map_of_mem (List.mem_of_mem_filter isOutput), rfl, rfl⟩
  · obtain ⟨last, isLast, rfl⟩ := Option.map_eq_some_iff.1 (Option.mem_toList.1 fromLast)
    have node := List.mem_of_getLast? (Option.filter_eq_some_iff.1 isLast).1
    exact ⟨List.mem_map_of_mem node, rfl, rfl⟩

namespace Graph

/-- The graph between a start and an end with the given ids. -/
def framed (g : Graph) (first last : String) : Graph :=
  { g with
    nodes := startNode first :: g.nodes ++ [endNode last]
    edges := startEdges first g.nodes ++ g.edges ++ endEdges last g.nodes }

/-- A graph of steps only, whose edges lead from step to step, and two ids that none of the steps
has. -/
structure Framable (g : Graph) (first last : String) : Prop where
  steps : ∀ n ∈ g.nodes, n.isStep = true
  closed : ∀ x ∈ g.edges, x.source ∈ g.ids ∧ x.target ∈ g.ids
  startNew : first ∉ g.ids
  endNew : last ∉ g.ids
  apart : first ≠ last

variable {g : Graph} {first last : String}

/-- No node has the id of the start. -/
theorem Framable.ne_first (h : g.Framable first last) {id : String} (known : id ∈ g.ids) :
    id ≠ first := by
  rintro rfl
  exact h.startNew known

/-- No node has the id of the end. -/
theorem Framable.ne_last (h : g.Framable first last) {id : String} (known : id ∈ g.ids) :
    id ≠ last := by
  rintro rfl
  exact h.endNew known

/-- All nodes of the graph are steps. -/
theorem Framable.steps_eq (h : g.Framable first last) : g.steps = g.nodes :=
  List.filter_eq_self.2 h.steps

/-- In a graph of steps only, all edges are edges between steps. -/
theorem stepEdges_eq_of_isStep (steps : ∀ n ∈ g.nodes, n.isStep = true) :
    g.stepEdges = g.edges := by
  have none : g.anchorIds = [] := by
    unfold anchorIds
    rw [List.map_eq_nil_iff, List.filter_eq_nil_iff]
    intro n mem
    simpa [Node.isStep] using steps n mem
  unfold stepEdges
  simp [none]

/-- All edges of the graph lead from step to step. -/
theorem Framable.stepEdges_eq (h : g.Framable first last) : g.stepEdges = g.edges :=
  stepEdges_eq_of_isStep h.steps

/-- Whatever is said about the steps of the framed graph is said about the nodes of the graph. -/
theorem filter_isStep_framed (g : Graph) (first last : String) {p q : Node → Bool}
    (same : ∀ n ∈ g.nodes, p n = q n) :
    ((g.framed first last).nodes.filter fun n => p n && n.isStep) =
      g.nodes.filter fun n => q n && n.isStep := by
  have inner : (g.nodes.filter fun n => p n && n.isStep) =
      g.nodes.filter fun n => q n && n.isStep := by
    apply List.filter_congr
    intro n mem
    rw [same n mem]
  unfold framed
  simp only [List.cons_append, List.filter_cons, List.filter_append, inner]
  simp [startNode, endNode, Node.isStep, NodeKind.isAnchor]

/-- The steps of the framed graph are the nodes of the graph. -/
theorem Framable.steps_framed (h : g.Framable first last) :
    (g.framed first last).steps = g.nodes := by
  have whole := filter_isStep_framed g first last (p := fun _ => true) fun _ _ => rfl
  simpa [Graph.steps, List.filter_eq_self.2 h.steps] using whole

/-- The frame adds no nodes of the kinds that steps have. -/
theorem nodesOfKind_framed {kind : NodeKind} (step : kind.isAnchor = false) :
    (g.framed first last).nodesOfKind kind = g.nodesOfKind kind := by
  unfold nodesOfKind framed
  simp only [List.cons_append, List.filter_cons, List.filter_append]
  cases kind with
  | start => simp [NodeKind.isAnchor] at step
  | finish => simp [NodeKind.isAnchor] at step
  | _ => simp [startNode, endNode]

/-- Edges that are picked neither at the start nor at the end are picked from those in between. -/
theorem filter_edges_framed {p : Edge → Bool}
    (starting : ∀ x ∈ startEdges first g.nodes, p x = false)
    (ending : ∀ x ∈ endEdges last g.nodes, p x = false) :
    (g.framed first last).edges.filter p = g.edges.filter p := by
  have noStart : (startEdges first g.nodes).filter p = [] :=
    List.filter_eq_nil_iff.2 fun x mem => by simp [starting x mem]
  have noEnd : (endEdges last g.nodes).filter p = [] :=
    List.filter_eq_nil_iff.2 fun x mem => by simp [ending x mem]
  rw [framed, List.filter_append, List.filter_append, noStart, noEnd, List.nil_append,
    List.append_nil]

/-- The edges between steps of the framed graph are the edges of the graph. -/
theorem Framable.stepEdges_framed (h : g.Framable first last) :
    (g.framed first last).stepEdges = g.edges := by
  have anchors : (g.framed first last).anchorIds = [first, last] := by
    have inner : g.nodes.filter (fun n => n.kind.isAnchor) = [] := by
      rw [List.filter_eq_nil_iff]
      intro n mem
      simpa [Node.isStep] using h.steps n mem
    unfold anchorIds framed
    simp only [List.cons_append, List.filter_cons, List.filter_append, inner]
    simp [startNode, endNode, NodeKind.isAnchor]
  unfold stepEdges
  simp only [anchors]
  rw [filter_edges_framed, List.filter_eq_self]
  · intro x mem
    obtain ⟨source, target⟩ := h.closed x mem
    simp [h.ne_first source, h.ne_last source, h.ne_first target, h.ne_last target]
  · intro x mem
    simp [(of_mem_startEdges mem).1]
  · intro x mem
    simp [(of_mem_endEdges mem).2.1]

/-- A node of the graph is found under its id in the framed graph, if the last one counts. -/
theorem Framable.lastNode?_framed (h : g.Framable first last) {id : String} (known : id ∈ g.ids) :
    (g.framed first last).lastNode? id = g.lastNode? id := by
  unfold lastNode? framed
  simp [startNode, endNode, (h.ne_first known).symm, (h.ne_last known).symm]

/-- A node of the graph is found under its id in the framed graph, if the first one counts. -/
theorem Framable.firstNode?_framed (h : g.Framable first last) {id : String} (known : id ∈ g.ids) :
    (g.framed first last).firstNode? id = g.firstNode? id := by
  unfold firstNode? framed
  simp [startNode, endNode, (h.ne_first known).symm, (h.ne_last known).symm]

/-- The frame adds no branches. -/
theorem branchEdges_framed (g : Graph) (first last : String) :
    (g.framed first last).branchEdges = g.branchEdges := by
  unfold branchEdges
  apply filter_edges_framed
  · intro x mem
    simp [(of_mem_startEdges mem).2.2]
  · intro x mem
    simp [(of_mem_endEdges mem).2.2]

/-- The first edge that leaves an id by a branch is the first such edge among the branches. -/
theorem branchEdge?_eq_find?_branchEdges (g : Graph) (id : String) (b : Branch) :
    g.branchEdge? id b = g.branchEdges.find? fun x => x.source == id && x.branch == some b := by
  unfold branchEdge? branchEdges
  rw [List.find?_filter]
  congr 1
  funext x
  cases x.branch <;> simp [Bool.beq_eq_decide_eq]

/-- The frame puts an id in front of the others and one behind them. -/
theorem ids_framed (g : Graph) (first last : String) :
    (g.framed first last).ids = first :: g.ids ++ [last] := by
  simp [ids, framed, startNode, endNode]

/-- The frame shares its ids with no node. -/
theorem Framable.nodup_framed (h : g.Framable first last) (distinct : g.ids.Nodup) :
    (g.framed first last).ids.Nodup := by
  rw [ids_framed, List.cons_append, List.nodup_cons]
  constructor
  · simp [h.startNew, h.apart]
  · rw [List.nodup_append']
    exact ⟨distinct, List.nodup_singleton last, by simpa using h.endNew⟩

/-- The edges of the framed graph lead from node to node. -/
theorem Framable.closed_framed (h : g.Framable first last) {x : Edge}
    (mem : x ∈ (g.framed first last).edges) :
    x.source ∈ (g.framed first last).ids ∧ x.target ∈ (g.framed first last).ids := by
  simp only [ids_framed, List.cons_append, List.mem_cons, List.mem_append]
  rcases List.mem_append.1 mem with inner | ending
  · rcases List.mem_append.1 inner with starting | own
    · obtain ⟨source, target, -⟩ := of_mem_startEdges starting
      exact ⟨.inl source, .inr (.inl target)⟩
    · obtain ⟨source, target⟩ := h.closed x own
      exact ⟨.inr (.inl source), .inr (.inl target)⟩
  · obtain ⟨source, target, -⟩ := of_mem_endEdges ending
    exact ⟨.inr (.inl source), .inr (.inr (.inl target))⟩

/-! ## Edges that leave an id -/

/-- The edges of the framed graph that leave a step: its own, and then edges to the end. -/
theorem Framable.outgoing_framed (h : g.Framable first last) {id : String} (known : id ∈ g.ids) :
    (g.framed first last).outgoing id =
      g.outgoing id ++ (endEdges last g.nodes).filter fun x => x.source == id := by
  have starting : (startEdges first g.nodes).filter (fun x => x.source == id) = [] := by
    rw [List.filter_eq_nil_iff]
    intro x mem
    simp [(of_mem_startEdges mem).1, (h.ne_first known).symm]
  unfold outgoing framed
  simp only [List.filter_append, starting, List.nil_append]

/-- What leaves the start are the edges from the start. -/
theorem Framable.outgoing_framed_first (h : g.Framable first last) :
    (g.framed first last).outgoing first = startEdges first g.nodes := by
  have starting : (startEdges first g.nodes).filter (fun x => x.source == first) =
      startEdges first g.nodes := by
    rw [List.filter_eq_self]
    intro x mem
    simp [(of_mem_startEdges mem).1]
  have inner : g.edges.filter (fun x => x.source == first) = [] := by
    rw [List.filter_eq_nil_iff]
    intro x mem same
    exact h.startNew (beq_iff_eq.1 same ▸ (h.closed x mem).1)
  have ending : (endEdges last g.nodes).filter (fun x => x.source == first) = [] := by
    rw [List.filter_eq_nil_iff]
    intro x mem same
    exact h.startNew (beq_iff_eq.1 same ▸ (of_mem_endEdges mem).1)
  unfold outgoing framed
  simp only [List.filter_append, starting, inner, ending, List.append_nil]

/-- Nothing leaves the end. -/
theorem Framable.outgoing_framed_last (h : g.Framable first last) :
    (g.framed first last).outgoing last = [] := by
  unfold outgoing framed
  rw [List.filter_eq_nil_iff]
  intro x mem same
  have leaves : x.source = last := beq_iff_eq.1 same
  rcases List.mem_append.1 mem with inner | ending
  · rcases List.mem_append.1 inner with starting | own
    · exact h.apart ((of_mem_startEdges starting).1.symm.trans leaves)
    · exact h.endNew (leaves ▸ (h.closed x own).1)
  · exact h.endNew (leaves ▸ (of_mem_endEdges ending).1)

/-- A list of targets to which the id of the end was added in some places. The other targets are
ids of nodes. -/
inductive Extends (g : Graph) (last : String) : List String → List String → Prop
  | nil : Extends g last [] []
  | skip {own full : List String} (rest : Extends g last own full) :
      Extends g last own (last :: full)
  | keep {own full : List String} {target : String} (known : target ∈ g.ids)
      (rest : Extends g last own full) : Extends g last (target :: own) (target :: full)

/-- Targets with the end behind them are targets to which the end was added. -/
theorem extends_append {own more : List String} (known : ∀ target ∈ own, target ∈ g.ids)
    (ends : ∀ target ∈ more, target = last) : Extends g last own (own ++ more) := by
  induction own with
  | nil =>
    induction more with
    | nil => exact .nil
    | cons target more ih =>
      rw [ends target List.mem_cons_self]
      exact .skip (ih fun other mem => ends other (List.mem_cons_of_mem target mem))
  | cons target own ih =>
    exact .keep (known target List.mem_cons_self)
      (ih fun other mem => known other (List.mem_cons_of_mem target mem))

/-- Edges lead to nodes of the graph. -/
theorem Framable.target_of_mem_targets (h : g.Framable first last) {id target : String}
    (mem : target ∈ g.targets id) : target ∈ g.ids := by
  obtain ⟨x, leaves, rfl⟩ := List.mem_map.1 mem
  exact (h.closed x (List.mem_of_mem_filter leaves)).2

/-- A node of the graph keeps its targets in the framed graph, and the end may come to them. -/
theorem Framable.extends_targets (h : g.Framable first last) {id : String} (known : id ∈ g.ids) :
    Extends g last (g.targets id) ((g.framed first last).targets id) := by
  unfold targets
  rw [h.outgoing_framed known, List.map_append]
  apply extends_append
  · intro target mem
    exact h.target_of_mem_targets mem
  · intro target mem
    obtain ⟨x, ending, rfl⟩ := List.mem_map.1 mem
    exact (of_mem_endEdges (List.mem_of_mem_filter ending)).2.1

/-- The start leads to the first node of the graph. -/
theorem Framable.targets_framed_first (h : g.Framable first last) :
    (g.framed first last).targets first = (g.nodes.take 1).map (·.id) := by
  unfold targets
  rw [h.outgoing_framed_first, startEdges]
  cases g.nodes <;> rfl

/-- The end leads nowhere. -/
theorem Framable.targets_framed_last (h : g.Framable first last) :
    (g.framed first last).targets last = [] := by
  unfold targets
  rw [h.outgoing_framed_last]
  rfl

/-- With inputs, walks start where they start without the frame. -/
theorem startNodes_framed_of_inputs (first last : String) (inputs : g.nodesOfKind .input ≠ []) :
    (g.framed first last).startNodes = g.startNodes := by
  have same : (g.framed first last).nodesOfKind .input = g.nodesOfKind .input :=
    nodesOfKind_framed rfl
  have given : (g.nodesOfKind .input).isEmpty = false := by simpa using inputs
  unfold startNodes
  simp only [same, given]
  rfl

/-- Without inputs, walks start at the start. -/
theorem startNodes_framed_of_no_input (first last : String)
    (none : g.nodesOfKind .input = []) :
    (g.framed first last).startNodes = [startNode first] ∧ g.startNodes = g.nodes.take 1 := by
  have same : (g.framed first last).nodesOfKind .input = g.nodesOfKind .input :=
    nodesOfKind_framed rfl
  unfold startNodes
  simp only [same, none]
  exact ⟨rfl, rfl⟩

end Graph

end Flowchart
