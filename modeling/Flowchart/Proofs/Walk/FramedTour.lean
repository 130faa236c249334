import Flowchart.Proofs.Graph.Framed
import Flowchart.Proofs.Walk.Turns

/-!
# Reading order between a start and an end

The steps of a framed graph are read in the order in which the steps of the graph itself are read.
Anchors are walked through without being listed. The edges to the end come after all others in the
reading order too, since they are no branches, and nothing is listed beyond the end.
-/

set_option autoImplicit false

namespace Flowchart

open Flowchart.Graph (Extends Framable)

variable {g : Graph} {first last : String}

namespace Graph

/-- In reading order too, the edges of the framed graph that leave a step are its own, and then
edges to the end. -/
theorem Framable.extends_targetsInOrder (framable : g.Framable first last) {n : Node}
    (known : n.id ∈ g.ids) :
    Extends g last (g.targetsInOrder n) ((g.framed first last).targetsInOrder n) := by
  let ends := (endEdges last g.nodes).filter fun x => x.source == n.id
  have ofEnds {x : Edge} (mem : x ∈ ends) : x.target = last ∧ x.branch = none :=
    (of_mem_endEdges (List.mem_of_mem_filter mem)).2
  -- The edges to the end are no branches, so even a decision tries them last.
  have edges : (g.framed first last).edgesInOrder n = g.edgesInOrder n ++ ends := by
    have noBranch (b : Branch) : ends.filter (fun x => x.branch == some b) = [] := by
      rw [List.filter_eq_nil_iff]
      intro x mem
      simp [(ofEnds mem).2]
    have plain : ends.filter (fun x => x.branch.isNone) = ends := by
      rw [List.filter_eq_self]
      intro x mem
      simp [(ofEnds mem).2]
    unfold edgesInOrder
    simp only [framable.outgoing_framed known]
    split
    · simp only [List.filter_append, ends] at noBranch plain ⊢
      rw [noBranch, noBranch, plain]
      simp
    · rfl
  unfold targetsInOrder
  rw [edges, List.map_append]
  apply extends_append
  · intro target mem
    obtain ⟨x, leaves, rfl⟩ := List.mem_map.1 mem
    have inGraph : x ∈ g.edges := by
      unfold edgesInOrder outgoing at leaves
      simp only at leaves
      split at leaves
      · simp only [List.mem_append, List.mem_filter] at leaves
        rcases leaves with (yes | no) | neither
        · exact yes.1.1
        · exact no.1.1
        · exact neither.1.1
      · exact List.mem_of_mem_filter leaves
    exact (framable.closed x inGraph).2
  · intro target mem
    obtain ⟨x, ending, rfl⟩ := List.mem_map.1 mem
    exact (ofEnds ending).1

/-- The start leads to the first node of the flow. -/
theorem Framable.targetsInOrder_start (framable : g.Framable first last) :
    (g.framed first last).targetsInOrder (startNode first) = (g.nodes.take 1).map (·.id) := by
  rw [← framable.targets_framed_first]
  rfl

/-- The end leads nowhere. -/
theorem Framable.targetsInOrder_end (framable : g.Framable first last) :
    (g.framed first last).targetsInOrder (endNode last) = [] := by
  rw [← framable.targets_framed_last]
  rfl

/-- The end is found under its id. -/
theorem lastNode?_framed_last (g : Graph) (first last : String) :
    (g.framed first last).lastNode? last = some (endNode last) := by
  simp [lastNode?, framed, endNode]

/-- The start is found under its id. -/
theorem Framable.lastNode?_framed_first (framable : g.Framable first last) :
    (g.framed first last).lastNode? first = some (startNode first) := by
  have others : g.nodes.reverse.find? (fun n => n.id == first) = none := by
    rw [List.find?_eq_none]
    intro n mem same
    have inGraph : n.id ∈ g.ids := List.mem_map_of_mem (List.mem_reverse.1 mem)
    exact framable.startNew (beq_iff_eq.1 same ▸ inGraph)
  simp [lastNode?, framed, endNode, startNode, framable.apart.symm, others]

end Graph

namespace Tour

/-- What is left to try in a graph, and the same in the framed graph, where nothing may be left to
try at some more places. -/
inductive Covers (g : Graph) (last : String) : List (List String) → List (List String) → Prop
  | nil : Covers g last [] []
  | blank {trail framed : List (List String)} (outer : Covers g last trail framed) :
      Covers g last trail ([] :: framed)
  | step {own full : List String} {trail framed : List (List String)}
      (targets : Extends g last own full) (outer : Covers g last trail framed) :
      Covers g last (own :: trail) (full :: framed)

/-- A walk through a graph, and a walk through the framed graph that has come as far. -/
structure Shadows (g : Graph) (last : String) (t framed : Tour) : Prop where
  entered : ∀ id ∈ g.ids, framed.entered.contains id = t.entered.contains id
  listed : framed.listed = t.listed
  trail : Covers g last t.trail framed.trail

variable {t framed : Tour}

/-- Both walks enter a node of the flow alike. -/
theorem enter_shadows (framable : g.Framable first last) {id : String} {n : Node}
    (known : n.id ∈ g.ids) {trail outer : List (List String)} (h : Shadows g last t framed)
    (covers : Covers g last trail outer) :
    Shadows g last (t.enter g id n trail) (framed.enter (g.framed first last) id n outer) where
  entered := by
    intro other inGraph
    simp only [enter, List.contains_cons, h.entered other inGraph]
  listed := by
    simp only [enter, h.listed]
  trail := .step (framable.extends_targetsInOrder known) covers

/-- An anchor is entered without a trace. -/
theorem enter_anchor_shadows {id : String} {n : Node} (other : id ∉ g.ids)
    (anchor : n.isStep = false) {outer : List (List String)}
    (h : Shadows g last t framed)
    (covers : Covers g last t.trail ((g.framed first last).targetsInOrder n :: outer)) :
    Shadows g last t (framed.enter (g.framed first last) id n outer) where
  entered := by
    intro known inGraph
    have apart : known ≠ id := by
      rintro rfl
      exact other inGraph
    rw [enter, List.contains_cons, beq_eq_false_iff_ne.2 apart, Bool.false_or]
    exact h.entered known inGraph
  listed := by
    rw [enter, anchor]
    exact h.listed
  trail := covers

/-- How the turns of two walks go together, the first of which stands at `t`: both end, both go on,
or only the second one goes on. -/
inductive InStep (g : Graph) (last : String) (t : Tour) : Option Tour → Option Tour → Prop
  | ended : InStep g last t none none
  | on {next framed : Tour} (h : Shadows g last next framed) :
      InStep g last t (some next) (some framed)
  | stay {turn : Option Tour} {framed : Tour} (h : Shadows g last t framed) :
      InStep g last t turn (some framed)

/-- Where targets are left to try, the walks go together: the second one looks at the same target as
the first one, or else enters the end. -/
theorem inStep_of_step (framable : g.Framable first last) {entered framedEntered : List String}
    {listed : List Node} {own full : List String} {trail outer : List (List String)}
    (targets : Extends g last own full) (covers : Covers g last trail outer)
    (h : Shadows g last ⟨entered, listed, own :: trail⟩ ⟨framedEntered, listed, full :: outer⟩) :
    InStep g last ⟨entered, listed, own :: trail⟩ (step g ⟨entered, listed, own :: trail⟩)
      (step (g.framed first last) ⟨framedEntered, listed, full :: outer⟩) := by
  cases targets with
  | nil => exact .on ⟨h.entered, rfl, covers⟩
  | @skip own full rest =>
    -- Only the second walk has the end to try, and nothing leads on from there.
    let framed : Tour := ⟨framedEntered, listed, (last :: full) :: outer⟩
    have skipped := Covers.step rest covers
    have turn : framed.step (g.framed first last) =
        if framedEntered.contains last then some { framed with trail := full :: outer }
        else some (enter (g.framed first last) framed last (endNode last) (full :: outer)) := by
      rw [step]
      simp only [framed, Graph.lastNode?_framed_last]
    rw [turn]
    split
    · exact .stay ⟨h.entered, rfl, skipped⟩
    · refine .stay (enter_anchor_shadows framable.endNew rfl h ?_)
      rw [framable.targetsInOrder_end]
      exact .blank skipped
  | @keep own full target inGraph rest =>
    let t : Tour := ⟨entered, listed, (target :: own) :: trail⟩
    let framed : Tour := ⟨framedEntered, listed, (target :: full) :: outer⟩
    have kept := Covers.step rest covers
    have found : (g.framed first last).lastNode? target = g.lastNode? target :=
      framable.lastNode?_framed inGraph
    cases node : g.lastNode? target with
    | none =>
      have turn : t.step g = some { t with trail := own :: trail } := by
        simp only [t, step, node]
      have framedTurn : framed.step (g.framed first last) =
          some { framed with trail := full :: outer } := by
        simp only [framed, step, found, node]
      rw [turn, framedTurn]
      exact .on ⟨h.entered, rfl, kept⟩
    | some n =>
      have turn : t.step g =
          if entered.contains target then some { t with trail := own :: trail }
          else some (enter g t target n (own :: trail)) := by
        simp only [t, step, node]
      have framedTurn : framed.step (g.framed first last) =
          if entered.contains target then some { framed with trail := full :: outer }
          else some (enter (g.framed first last) framed target n (full :: outer)) := by
        simp only [framed, step, found, node, ← h.entered target inGraph]
      rw [turn, framedTurn]
      split
      · exact .on ⟨h.entered, rfl, kept⟩
      · have known : n.id ∈ g.ids := List.mem_map_of_mem (Graph.mem_of_lastNode? node).1
        exact .on (enter_shadows framable known h kept)

/-- Wherever the walks have come as far, their next turns go together. -/
theorem inStep (framable : g.Framable first last) (h : Shadows g last t framed) :
    InStep g last t (t.step g) (framed.step (g.framed first last)) := by
  obtain ⟨entered, listed, trail⟩ := t
  obtain ⟨framedEntered, framedListed, framedTrail⟩ := framed
  obtain rfl : framedListed = listed := h.listed
  cases h.trail with
  | nil => exact .ended
  | blank outer => exact .stay ⟨h.entered, rfl, outer⟩
  | step targets outer => exact inStep_of_step framable targets outer h

/-- Two walks that have come equally far list the same nodes, and enter the same steps. -/
theorem run_framed (framable : g.Framable first last) (h : Shadows g last t framed) :
    Shadows g last (t.run g) (framed.run (g.framed first last)) := by
  -- The second walk also takes the turns at the end, so the induction follows that one.
  induction framed using run.induct (g.framed first last) generalizing t with
  | case1 framed ended =>
    have together := inStep framable h
    rw [ended] at together
    generalize own : t.step g = ownTurn at together
    cases together with
    | ended =>
      rw [run_of_step_none own, run_of_step_none ended]
      exact h
  | case2 framed next turn ih =>
    have together := inStep framable h
    rw [turn] at together
    generalize own : t.step g = ownTurn at together
    rw [run_of_step_some turn]
    cases together with
    | on after =>
      rw [run_of_step_some own]
      exact ih after
    | stay after => exact ih after

/-- Two walks that have not entered anything have come as far. -/
theorem idle_shadows (g : Graph) (last : String) : Shadows g last idle idle :=
  ⟨fun _ _ => rfl, rfl, .nil⟩

/-- With inputs, both walks enter the same node first. -/
theorem run_start_of_inputs (framable : g.Framable first last)
    (inputs : g.nodesOfKind .input ≠ []) :
    Shadows g last ((start g).run g)
      ((start (g.framed first last)).run (g.framed first last)) := by
  apply run_framed framable
  have sameEntry : Graph.entry? (g.framed first last) = g.entry? := by
    unfold Graph.entry?
    rw [Graph.startNodes_framed_of_inputs first last inputs]
  unfold start
  rw [sameEntry]
  cases entry : g.entry? with
  | none => exact idle_shadows g last
  | some n =>
    have inGraph : n.id ∈ g.ids := Graph.id_of_mem_startNodes (List.mem_of_head? entry)
    simp only [Option.bind_some, framable.lastNode?_framed inGraph]
    cases node : g.lastNode? n.id with
    | none => exact idle_shadows g last
    | some m =>
      have known : m.id ∈ g.ids := List.mem_map_of_mem (Graph.mem_of_lastNode? node).1
      exact enter_shadows framable known (idle_shadows g last) .nil

/-- Without inputs, the walk through the framed graph comes to the first step from the start. -/
theorem run_start_of_no_input (framable : g.Framable first last)
    (noInput : g.nodesOfKind .input = []) :
    Shadows g last ((start g).run g)
      ((start (g.framed first last)).run (g.framed first last)) := by
  obtain ⟨framedStarts, starts⟩ := Graph.startNodes_framed_of_no_input first last noInput
  have entered : start (g.framed first last) =
      ⟨[first], [], [(g.nodes.take 1).map (·.id)]⟩ := by
    rw [← framable.targetsInOrder_start, start, Graph.entry?, framedStarts]
    simp only [List.head?_cons, Option.bind_some]
    rw [show (startNode first).id = first from rfl, framable.lastNode?_framed_first]
    rfl
  rw [entered]
  have before : ∀ id ∈ g.ids, [first].contains id = idle.entered.contains id := by
    intro id inGraph
    rw [List.contains_cons, beq_eq_false_iff_ne.2 (framable.ne_first inGraph)]
    rfl
  cases nodes : g.nodes with
  | nil =>
    have idles : start g = idle := by
      rw [start, Graph.entry?, starts, nodes]
      rfl
    rw [idles]
    exact run_framed framable ⟨before, rfl, .blank .nil⟩
  | cons n rest =>
    have mem : n ∈ g.nodes := nodes ▸ List.mem_cons_self
    have inGraph : n.id ∈ g.ids := List.mem_map_of_mem mem
    obtain ⟨m, node⟩ := Graph.lastNode?_of_mem_ids inGraph
    obtain ⟨known, same⟩ := Graph.mem_of_lastNode? node
    have started : start g = idle.enter g n.id m [] := by
      rw [start, Graph.entry?, starts, nodes]
      simp [node, same]
    have turn : step (g.framed first last) ⟨[first], [], [[n.id]]⟩ =
        some (enter (g.framed first last) ⟨[first], [], []⟩ n.id m [[]]) := by
      simp [step, framable.lastNode?_framed inGraph, node, framable.ne_first inGraph, enter]
    simp only [List.take_succ_cons, List.take_zero, List.map_cons, List.map_nil]
    rw [run_of_step_some turn, started]
    apply run_framed framable
    exact enter_shadows framable (List.mem_map_of_mem known) ⟨before, rfl, .nil⟩ (.blank .nil)

end Tour

/-- The steps of a framed graph are read in the same order. -/
theorem Graph.Framable.inReadingOrder_framed (framable : g.Framable first last) :
    (g.framed first last).inReadingOrder = g.inReadingOrder := by
  have together : Tour.Shadows g last ((Tour.start g).run g)
      ((Tour.start (g.framed first last)).run (g.framed first last)) := by
    by_cases noInput : g.nodesOfKind .input = []
    · exact Tour.run_start_of_no_input framable noInput
    · exact Tour.run_start_of_inputs framable noInput
  unfold inReadingOrder
  simp only
  rw [together.listed]
  congr 1
  apply filter_isStep_framed
  intro n mem
  rw [together.entered n.id (List.mem_map_of_mem mem)]

end Flowchart
