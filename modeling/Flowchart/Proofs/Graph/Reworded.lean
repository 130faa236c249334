import Flowchart.Document.Graph
import Flowchart.Graph.Lookup
import Flowchart.Proofs.Walk.Turns
import Mathlib.Data.List.Forall2

/-!
# Other words on the anchors

Two graphs that differ in the titles and descriptions of their anchors only. The steps are the same,
and so are the edges; a lookup finds a node in one graph where it finds the same node in the other,
perhaps with other words. A walk sees ids and kinds, so it goes the same way through both graphs,
and they are read in the same order.
-/

set_option autoImplicit false

namespace Flowchart

/-- The second node is the first one, or the same anchor with another title and another
description. -/
inductive Node.Reworded : Node → Node → Prop
  | same (n : Node) : Reworded n n
  | anchor {n : Node} (isAnchor : n.isStep = false) {title : String} (titled : isTitle title)
      (description : Option String) : Reworded n { n with title, description }

namespace Node.Reworded

variable {n m : Node}

/-- A reworded node keeps its id. -/
theorem id (h : Reworded n m) : m.id = n.id := by
  cases h <;> rfl

/-- A reworded node keeps its kind. -/
theorem kind (h : Reworded n m) : m.kind = n.kind := by
  cases h <;> rfl

/-- A reworded node is a step exactly if the node is. -/
theorem isStep (h : Reworded n m) : m.isStep = n.isStep := by
  cases h <;> rfl

/-- A step keeps its words. -/
theorem eq_of_isStep (h : Reworded n m) (step : n.isStep = true) : m = n := by
  cases h with
  | same => rfl
  | anchor isAnchor => simp [isAnchor] at step

end Node.Reworded

/-- The second graph is the first one, but for the titles and descriptions of its anchors. -/
structure Graph.Reworded (g h : Graph) : Prop where
  title : h.title = g.title
  description : h.description = g.description
  edges : h.edges = g.edges
  nodes : List.Forall₂ Node.Reworded g.nodes h.nodes

namespace Graph

variable {g h : Graph}

/-- What is looked up by something that rewording keeps is found reworded, or not found in both. -/
theorem find?_reworded {p : Node → Bool} (kept : ∀ n m, Node.Reworded n m → p m = p n)
    {nodes others : List Node} (reworded : List.Forall₂ Node.Reworded nodes others) :
    Option.Rel Node.Reworded (nodes.find? p) (others.find? p) := by
  induction reworded with
  | nil => exact .none
  | @cons n m nodes others first rest ih =>
    rw [List.find?_cons, List.find?_cons, kept n m first]
    cases p n with
    | true => exact .some first
    | false => exact ih

/-- A lookup in both graphs finds nothing, or a node and the same node reworded. -/
theorem cases_reworded {found other : Option Node} (rel : Option.Rel Node.Reworded found other) :
    (found = none ∧ other = none) ∨
      ∃ n m, found = some n ∧ other = some m ∧ Node.Reworded n m := by
  cases rel with
  | none => exact .inl ⟨rfl, rfl⟩
  | @some n m reworded => exact .inr ⟨n, m, rfl, rfl, reworded⟩

/-- Steps that are picked by something that rewording keeps are the same. -/
theorem filter_reworded {p : Node → Bool} (kept : ∀ n m, Node.Reworded n m → p m = p n)
    (steps : ∀ n, p n = true → n.isStep = true) {nodes others : List Node}
    (reworded : List.Forall₂ Node.Reworded nodes others) : others.filter p = nodes.filter p := by
  induction reworded with
  | nil => rfl
  | @cons n m nodes others first rest ih =>
    rw [List.filter_cons, List.filter_cons, kept n m first, ih]
    split
    · rename_i picked
      rw [first.eq_of_isStep (steps n picked)]
    · rfl

namespace Reworded

/-- Both graphs have the same steps. -/
theorem steps (r : g.Reworded h) : h.steps = g.steps :=
  filter_reworded (fun _ _ reworded => reworded.isStep) (fun _ step => step) r.nodes

/-- The first node with an id is the same in both graphs, perhaps with other words. -/
theorem firstNode? (r : g.Reworded h) (id : String) :
    Option.Rel Node.Reworded (g.firstNode? id) (h.firstNode? id) :=
  find?_reworded (fun _ _ reworded => by rw [reworded.id]) r.nodes

/-- The last node with an id is the same in both graphs, perhaps with other words. -/
theorem lastNode? (r : g.Reworded h) (id : String) :
    Option.Rel Node.Reworded (g.lastNode? id) (h.lastNode? id) :=
  find?_reworded (fun _ _ reworded => by rw [reworded.id]) (List.rel_reverse r.nodes)

/-- The same edges leave an id in both graphs. -/
theorem outgoing (r : g.Reworded h) (id : String) : h.outgoing id = g.outgoing id := by
  unfold Graph.outgoing
  rw [r.edges]

/-- The same edge is found for a branch in both graphs. -/
theorem branchEdge? (r : g.Reworded h) (id : String) (b : Branch) :
    h.branchEdge? id b = g.branchEdge? id b := by
  unfold Graph.branchEdge?
  rw [r.edges]

/-- Both graphs have the same inputs. -/
theorem inputs (r : g.Reworded h) : h.nodesOfKind .input = g.nodesOfKind .input := by
  refine filter_reworded (fun _ _ reworded => by rw [reworded.kind]) ?_ r.nodes
  intro n input
  rw [Node.isStep, beq_iff_eq.1 input]
  rfl

/-- The entry is the same node in both graphs, perhaps with other words. -/
theorem entry? (r : g.Reworded h) : Option.Rel Node.Reworded g.entry? h.entry? := by
  have first : ∀ nodes others : List Node, List.Forall₂ Node.Reworded nodes others →
      Option.Rel Node.Reworded (nodes.take 1).head? (others.take 1).head? := by
    intro nodes others reworded
    cases reworded with
    | nil => exact .none
    | cons first rest => exact .some first
  unfold Graph.entry? startNodes
  simp only [r.inputs]
  split
  · exact first g.nodes h.nodes r.nodes
  · cases (g.nodesOfKind .input).head? with
    | none => exact .none
    | some n => exact .some (.same n)

end Reworded

end Graph

/-! ## The reading order -/

namespace Tour

variable {g h : Graph}

/-- A reworded node leads where the node leads, in the same order. -/
theorem targetsInOrder_reworded (r : g.Reworded h) {n m : Node} (reworded : Node.Reworded n m) :
    h.targetsInOrder m = g.targetsInOrder n := by
  unfold Graph.targetsInOrder Graph.edgesInOrder
  rw [reworded.id, reworded.kind, r.outgoing]

/-- A walk enters reworded nodes as it enters the nodes themselves. -/
theorem enter_reworded (r : g.Reworded h) {n m : Node} (reworded : Node.Reworded n m) (t : Tour)
    (id : String) (trail : List (List String)) : t.enter h id m trail = t.enter g id n trail := by
  unfold enter
  rw [targetsInOrder_reworded r reworded, reworded.isStep]
  split
  · rename_i step
    rw [reworded.eq_of_isStep step]
  · rfl

/-- Every turn is the same in both graphs. -/
theorem step_reworded (r : g.Reworded h) (t : Tour) : t.step h = t.step g := by
  unfold step
  split
  · rfl
  · rfl
  · rename_i target untried outer trail
    rcases Graph.cases_reworded (r.lastNode? target) with
      ⟨missing, missingToo⟩ | ⟨n, m, found, foundToo, reworded⟩
    · simp only [missing, missingToo]
    · simp only [found, foundToo, enter_reworded r reworded]

/-- The walk starts alike in both graphs. -/
theorem start_reworded (r : g.Reworded h) : start h = start g := by
  unfold start
  rcases Graph.cases_reworded r.entry? with ⟨missing, missingToo⟩ |
    ⟨n, m, found, foundToo, reworded⟩
  · rw [missing, missingToo]
    rfl
  · simp only [found, foundToo, Option.bind_some, reworded.id]
    rcases Graph.cases_reworded (r.lastNode? n.id) with
      ⟨missing, missingToo⟩ | ⟨last, lastToo, foundLast, foundLastToo, rewordedLast⟩
    · simp only [missing, missingToo]
    · simp only [foundLast, foundLastToo, rewordedLast.id, enter_reworded r rewordedLast]

/-- So the walk comes to the same in both graphs. -/
theorem run_reworded (r : g.Reworded h) (t : Tour) : t.run h = t.run g := by
  induction t using run.induct g with
  | case1 t ended => rw [run_of_step_none ended, run_of_step_none ((step_reworded r t).trans ended)]
  | case2 t next turn ih =>
    rw [run_of_step_some turn, run_of_step_some ((step_reworded r t).trans turn), ih]

end Tour

/-- Anchors are not listed, so it does not matter what they say. -/
theorem Graph.Reworded.inReadingOrder {g h : Graph} (r : g.Reworded h) :
    h.inReadingOrder = g.inReadingOrder := by
  unfold Graph.inReadingOrder
  simp only [Tour.start_reworded r, Tour.run_reworded r]
  congr 1
  apply Graph.filter_reworded _ _ r.nodes
  · intro n m reworded
    rw [reworded.id, reworded.isStep]
  · intro n picked
    exact (Bool.and_eq_true_iff.1 picked).2

end Flowchart
