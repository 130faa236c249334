import Flowchart.Graph.Lookup

/-!
# Edges still to be followed

What bounds a walk through a graph. An edge is pending while its source has not been visited. To
visit an id takes exactly the edges that leave it off the pending ones, so a walk that puts each of
those edges on its list at that moment never has more than all edges on it.
-/

set_option autoImplicit false

namespace Flowchart.Graph

/-- The number of edges whose source is not among the visited ids. -/
def pending (g : Graph) (visited : List String) : Nat :=
  g.edges.countP fun e => !visited.contains e.source

/-- Visiting a new id takes the edges that leave it off the pending ones. -/
theorem pending_cons (g : Graph) {visited : List String} {id : String}
    (new : visited.contains id = false) :
    g.pending (id :: visited) + (g.outgoing id).length = g.pending visited := by
  unfold pending outgoing
  induction g.edges with
  | nil => rfl
  | cons e rest ih =>
    by_cases here : e.source = id
    · subst here
      simp only [List.countP_cons, List.filter_cons, List.contains_cons, new, BEq.rfl,
        Bool.true_or, Bool.not_true, Bool.not_false, if_true, List.length_cons] at ih ⊢
      simp only [Bool.false_eq_true, if_false]
      omega
    · simp only [List.countP_cons, List.filter_cons, List.contains_cons,
        beq_eq_false_iff_ne.2 here, Bool.false_or, Bool.false_eq_true, if_false] at ih ⊢
      omega

/-- An id has as many targets as edges that leave it. -/
theorem length_targets (g : Graph) (id : String) :
    (g.targets id).length = (g.outgoing id).length := by
  simp [targets]

end Flowchart.Graph
