import Flowchart.Graph.Ids
import Flowchart.Graph.Lookup
import Mathlib.Data.List.Nodup
import Mathlib.Data.List.Range

/-!
# Distinct ids

A source of ids hands out its stem with the numbers in order, so it hands out no id twice. Every id
of a graph stands for a node, and in a graph in which no two nodes share an id, every node is the
one that its id stands for. What is found when an edge is looked up is such an edge.
-/

set_option autoImplicit false

namespace Flowchart

namespace IdSource

/-- A source numbers its ids, so different numbers make different ids. -/
theorem numbered_injective (source : IdSource) : Function.Injective source.numbered := by
  intro i j same
  have digits := congrArg String.toList same
  simp only [numbered, String.toList_append, List.append_cancel_left_eq, Nat.toList_repr] at digits
  have numbers := congrArg (fun cs => Nat.ofDigitChars 10 cs 0) digits
  simpa using numbers

/-- The ids that a source hands out next are its stem with the next numbers. -/
theorem take_eq (source : IdSource) (count : Nat) :
    (source.take count).1 = (List.range' (source.issued + 1) count).map source.numbered ∧
      (source.take count).2 = { source with issued := source.issued + count } := by
  induction count generalizing source with
  | zero => exact ⟨rfl, rfl⟩
  | succ count ih =>
    obtain ⟨ids, after⟩ := ih source.next.2
    constructor
    · have first : (source.take (count + 1)).1 =
          source.numbered (source.issued + 1) :: (source.next.2.take count).1 := rfl
      rw [first, ids, List.range'_succ, List.map_cons]
      rfl
    · have last : (source.take (count + 1)).2 = (source.next.2.take count).2 := rfl
      rw [last, after]
      simp only [next]
      rw [Nat.add_right_comm, Nat.add_assoc]

/-- A source hands out as many ids as it is asked for. -/
theorem length_take (source : IdSource) (count : Nat) : (source.take count).1.length = count := by
  rw [(source.take_eq count).1]
  simp

/-- What a source hands out next are its ids with the next numbers. -/
theorem mem_take_iff {source : IdSource} {count : Nat} {id : String} :
    id ∈ (source.take count).1 ↔
      ∃ k, source.issued < k ∧ k ≤ source.issued + count ∧ source.numbered k = id := by
  rw [(source.take_eq count).1, List.mem_map]
  constructor
  · rintro ⟨k, mem, rfl⟩
    rw [List.mem_range'_1] at mem
    exact ⟨k, by omega, by omega, rfl⟩
  · rintro ⟨k, low, high, rfl⟩
    exact ⟨k, List.mem_range'_1.2 (by omega), rfl⟩

/-- A source hands out no id twice. -/
theorem nodup_take (source : IdSource) (count : Nat) : (source.take count).1.Nodup := by
  rw [(source.take_eq count).1]
  exact List.Nodup.map source.numbered_injective List.nodup_range'

end IdSource

namespace Graph

/-- With distinct ids, the first node with the id of a node is that node. -/
theorem firstNode?_of_mem {g : Graph} (distinct : g.ids.Nodup) {n : Node} (mem : n ∈ g.nodes) :
    g.firstNode? n.id = some n := by
  have found : ∀ nodes : List Node, (nodes.map (·.id)).Nodup → n ∈ nodes →
      nodes.find? (fun m => m.id == n.id) = some n := by
    intro nodes
    induction nodes with
    | nil => simp
    | cons first rest ih =>
      intro distinct mem
      rw [List.map_cons, List.nodup_cons] at distinct
      rcases List.mem_cons.1 mem with rfl | later
      · simp
      · have other : first.id ≠ n.id := by
          intro same
          exact distinct.1 (same ▸ List.mem_map.2 ⟨n, later, rfl⟩)
        rw [List.find?_cons_of_neg (by simpa using other)]
        exact ih distinct.2 later
  exact found g.nodes distinct mem

/-- The first node with an id is a node of the graph with this id. -/
theorem mem_of_firstNode? {g : Graph} {id : String} {n : Node} (h : g.firstNode? id = some n) :
    n ∈ g.nodes ∧ n.id = id :=
  ⟨List.mem_of_find?_eq_some h, by simpa using List.find?_some h⟩

/-- The last node with an id is a node of the graph with this id. -/
theorem mem_of_lastNode? {g : Graph} {id : String} {n : Node} (h : g.lastNode? id = some n) :
    n ∈ g.nodes ∧ n.id = id :=
  ⟨List.mem_reverse.1 (List.mem_of_find?_eq_some h), by simpa using List.find?_some h⟩

/-- Only the ids of nodes stand for nodes. -/
theorem mem_ids_of_lastNode? {g : Graph} {id : String} {n : Node} (h : g.lastNode? id = some n) :
    id ∈ g.ids := by
  obtain ⟨mem, rfl⟩ := mem_of_lastNode? h
  exact List.mem_map_of_mem mem

/-- Every id of the graph stands for a node, if the first one counts. -/
theorem firstNode?_of_mem_ids {g : Graph} {id : String} (mem : id ∈ g.ids) :
    ∃ n, g.firstNode? id = some n := by
  obtain ⟨n, inGraph, rfl⟩ := List.mem_map.1 mem
  rw [← Option.isSome_iff_exists, firstNode?, List.find?_isSome]
  exact ⟨n, inGraph, by simp⟩

/-- Every id of the graph stands for a node, if the last one counts. -/
theorem lastNode?_of_mem_ids {g : Graph} {id : String} (mem : id ∈ g.ids) :
    ∃ n, g.lastNode? id = some n := by
  obtain ⟨n, inGraph, rfl⟩ := List.mem_map.1 mem
  rw [← Option.isSome_iff_exists, lastNode?, List.find?_isSome]
  exact ⟨n, List.mem_reverse.2 inGraph, by simp⟩

/-- A lookup fails only for what is no id of the graph. -/
theorem lastNode?_eq_none_iff {g : Graph} {id : String} : g.lastNode? id = none ↔ id ∉ g.ids := by
  rw [lastNode?, List.find?_eq_none]
  simp [ids]

/-- Start nodes are nodes of the graph. -/
theorem id_of_mem_startNodes {g : Graph} {n : Node} (mem : n ∈ g.startNodes) : n.id ∈ g.ids := by
  have node : n ∈ g.nodes := by
    unfold startNodes at mem
    simp only at mem
    split at mem
    · exact List.mem_of_mem_take mem
    · exact List.mem_of_mem_filter mem
  exact List.mem_map_of_mem node

/-- The edge that is found for a branch is an edge of the graph that leaves this node by this
branch. -/
theorem of_branchEdge? {g : Graph} {id : String} {b : Branch} {x : Edge}
    (h : g.branchEdge? id b = some x) : x ∈ g.edges ∧ x.source = id ∧ x.branch = some b := by
  have sought := List.find?_some h
  rw [Bool.and_eq_true, beq_iff_eq, beq_iff_eq] at sought
  exact ⟨List.mem_of_find?_eq_some h, sought.1, sought.2⟩

/-- Where an edge leaves a node by a branch, an edge is found for this branch. -/
theorem branchEdge?_of_mem {g : Graph} {b : Branch} {x : Edge} (mem : x ∈ g.edges)
    (branch : x.branch = some b) : ∃ y, g.branchEdge? x.source b = some y := by
  rw [← Option.isSome_iff_exists, branchEdge?, List.find?_isSome]
  exact ⟨x, mem, by simp [branch]⟩

end Graph

end Flowchart
