import Flowchart.Proofs.Graph.Distinct
import Mathlib.Data.List.Basic
import Mathlib.Logic.Function.Basic

/-!
# Other ids

The ids of a graph serve to tell its nodes apart and to tie edges to them. If every id is replaced,
and different ids by different ones, then everything that is looked up by an id is found as before,
under its new id. It does not matter what else becomes of the nodes as long as they keep their
kinds. One such replacement moves the ids of a source on by one.
-/

set_option autoImplicit false

namespace Flowchart

/-- The node under another id. -/
def Node.rename (f : String → String) (n : Node) : Node :=
  { n with id := f n.id }

/-- The edge between the other ids. -/
def Edge.rename (f : String → String) (x : Edge) : Edge :=
  { x with source := f x.source, target := f x.target }

/-- The graph with other ids. -/
def Graph.rename (f : String → String) (g : Graph) : Graph :=
  { g with nodes := g.nodes.map (Node.rename f), edges := g.edges.map (Edge.rename f) }

/-- The graph with changed nodes, whose edges follow the new ids. -/
def Graph.recast (f : String → String) (on : Node → Node) (g : Graph) : Graph :=
  { g with nodes := g.nodes.map on, edges := g.edges.map (Edge.rename f) }

/-- A change of nodes that replaces different ids by different ones and keeps the kinds. -/
structure Node.Recasts (f : String → String) (on : Node → Node) : Prop where
  injective : Function.Injective f
  id : ∀ n, (on n).id = f n.id
  kind : ∀ n, (on n).kind = n.kind

/-- An edge leaves its source under the new id of that. -/
@[simp] theorem Edge.source_rename (f : String → String) (x : Edge) :
    (x.rename f).source = f x.source := rfl

/-- An edge leads to its target under the new id of that. -/
@[simp] theorem Edge.target_rename (f : String → String) (x : Edge) :
    (x.rename f).target = f x.target := rfl

/-- An edge keeps its branch. -/
@[simp] theorem Edge.branch_rename (f : String → String) (x : Edge) :
    (x.rename f).branch = x.branch := rfl

/-- Where every id stays, an edge stays as it is. -/
theorem Edge.rename_id : Edge.rename id = id := rfl

/-- Where every id stays, a graph stays as it is. -/
theorem Graph.rename_id (g : Graph) : g.rename id = g := by
  have nodes : Node.rename id = id := rfl
  unfold Graph.rename
  rw [nodes, Edge.rename_id, List.map_id, List.map_id]

namespace Graph

variable {f : String → String}

/-- A new id is among the new ids exactly if the id was among the ids. -/
theorem contains_map_of_injective (injective : Function.Injective f) (ids : List String)
    (id : String) : (ids.map f).contains (f id) = ids.contains id := by
  rw [Bool.eq_iff_iff, List.contains_iff_mem, List.contains_iff_mem]
  exact List.mem_map_of_injective injective

variable {on : Node → Node} (recasts : Node.Recasts f on)
include recasts

/-- A changed node is a step exactly if the node is. -/
theorem isStep_recast (n : Node) : (on n).isStep = n.isStep := by
  rw [Node.isStep, recasts.kind, Node.isStep]

/-- The steps are the changed steps. -/
theorem steps_recast (g : Graph) : (g.recast f on).steps = g.steps.map on := by
  unfold steps recast
  rw [List.filter_map]
  congr 2
  funext n
  exact isStep_recast recasts n

/-- The nodes of a kind are the changed nodes of this kind. -/
theorem nodesOfKind_recast (g : Graph) (kind : NodeKind) :
    (g.recast f on).nodesOfKind kind = (g.nodesOfKind kind).map on := by
  unfold nodesOfKind recast
  rw [List.filter_map]
  congr 2
  funext n
  rw [Function.comp_apply, recasts.kind]

/-- The start nodes are the changed start nodes. -/
theorem startNodes_recast (g : Graph) : (g.recast f on).startNodes = g.startNodes.map on := by
  unfold startNodes
  simp only [nodesOfKind_recast recasts, List.isEmpty_map]
  split
  · exact List.map_take.symm
  · rfl

/-- The ids of the anchors are their new ids. -/
theorem anchorIds_recast (g : Graph) : (g.recast f on).anchorIds = g.anchorIds.map f := by
  have anchors : (fun n : Node => n.kind.isAnchor) ∘ on = fun n => n.kind.isAnchor := by
    funext n
    rw [Function.comp_apply, recasts.kind]
  unfold anchorIds recast
  rw [List.filter_map, anchors, List.map_map, List.map_map]
  congr 1
  funext n
  exact recasts.id n

/-- Nodes are looked up by their ids. -/
theorem beq_id_recast (id : String) :
    (fun n : Node => n.id == f id) ∘ on = fun n => n.id == id := by
  funext n
  rw [Function.comp_apply, recasts.id, recasts.injective.beq_eq]

/-- The first node that is found under a new id is the changed node of the id. -/
theorem firstNode?_recast (g : Graph) (id : String) :
    (g.recast f on).firstNode? (f id) = (g.firstNode? id).map on := by
  unfold firstNode? recast
  rw [List.find?_map, beq_id_recast recasts]

/-- The last node that is found under a new id is the changed node of the id. -/
theorem lastNode?_recast (g : Graph) (id : String) :
    (g.recast f on).lastNode? (f id) = (g.lastNode? id).map on := by
  unfold lastNode? recast
  rw [← List.map_reverse, List.find?_map, beq_id_recast recasts]

/-- What leaves a new id are the edges that leave the id, between the new ids. -/
theorem outgoing_recast (g : Graph) (id : String) :
    (g.recast f on).outgoing (f id) = (g.outgoing id).map (Edge.rename f) := by
  unfold outgoing recast
  rw [List.filter_map]
  congr 2
  funext x
  exact recasts.injective.beq_eq

/-- A new id leads to the new ids of the targets. -/
theorem targets_recast (g : Graph) (id : String) :
    (g.recast f on).targets (f id) = (g.targets id).map f := by
  unfold targets
  rw [outgoing_recast recasts, List.map_map, List.map_map]
  rfl

/-- The edges between steps are the same edges, between the new ids. -/
theorem stepEdges_recast (g : Graph) :
    (g.recast f on).stepEdges = g.stepEdges.map (Edge.rename f) := by
  unfold stepEdges
  simp only [anchorIds_recast recasts]
  rw [recast, List.filter_map]
  congr 2
  funext x
  simp only [Function.comp_apply, Edge.source_rename, Edge.target_rename,
    contains_map_of_injective recasts.injective]

end Graph

/-! ## Moving ids on -/

namespace IdSource

/-- The number of an id of the source. -/
def number (source : IdSource) (id : String) : Nat :=
  Nat.ofDigitChars 10 (id.toList.drop (source.stem.length + 1)) 0

/-- The id that the source hands out after a given one. A text that is no id of the source is left
as it is. -/
def following (source : IdSource) (id : String) : String :=
  if source.numbered (source.number id) = id then source.numbered (source.number id + 1) else id

/-- The number of an id of the source is the one that it was made with. -/
theorem number_numbered (source : IdSource) (k : Nat) : source.number (source.numbered k) = k := by
  have digits : (source.numbered k).toList.drop (source.stem.length + 1) = Nat.toDigits 10 k := by
    have front : (source.numbered k).toList =
      (source.stem.toList ++ ['_']) ++ Nat.toDigits 10 k := by
      simp [numbered]
    rw [front]
    exact List.drop_left' (by simp [String.length_toList])
  rw [number, digits]
  simp

/-- To move an id of the source on is to make the id with the next number. -/
theorem following_numbered (source : IdSource) (k : Nat) :
    source.following (source.numbered k) = source.numbered (k + 1) := by
  rw [following, number_numbered, if_pos rfl]

/-- What is no id of the source is not moved. -/
theorem following_of_other {source : IdSource} {id : String}
    (other : source.numbered (source.number id) ≠ id) : source.following id = id :=
  if_neg other

/-- Moving ids on keeps different ids different. -/
theorem following_injective (source : IdSource) : Function.Injective source.following := by
  have apart {a b : String} (own : source.numbered (source.number a) = a)
      (other : source.numbered (source.number b) ≠ b) :
      source.following a ≠ source.following b := by
    intro same
    rw [following_of_other other, ← own, following_numbered] at same
    rw [← same, number_numbered] at other
    exact other rfl
  intro a b same
  by_cases ownA : source.numbered (source.number a) = a
  · by_cases ownB : source.numbered (source.number b) = b
    · rw [← ownA, ← ownB, following_numbered, following_numbered] at same
      have numbers := source.numbered_injective same
      rw [← ownA, ← ownB, Nat.succ.inj numbers]
    · exact absurd same (apart ownA ownB)
  · by_cases ownB : source.numbered (source.number b) = b
    · exact absurd same.symm (apart ownB ownA)
    · rw [following_of_other ownA, following_of_other ownB] at same
      exact same

end IdSource

end Flowchart
