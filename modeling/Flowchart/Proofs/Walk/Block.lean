import Flowchart.Proofs.Walk.Around
import Flowchart.Proofs.Walk.Turns

/-!
# What is read at a stretch

Once a walk in reading order has some targets to try, it works them off before it tries anything
else, and what it enters meanwhile is known beforehand: exactly what these targets reach around the
ids that had been entered. The nodes it enters are therefore one block of the reading order. This
holds of the targets of a node as well as of some of them, such as those of one branch.
-/

set_option autoImplicit false

namespace Flowchart

open Relation (ReflTransGen)

namespace Graph

variable {g : Graph}

/-- In reading order too, the edges that leave a node lead where its edges lead. -/
theorem mem_targetsInOrder_iff {n : Node} {target : String} :
    target ∈ g.targetsInOrder n ↔ g.Leads n.id target := by
  have edges (x : Edge) : x ∈ g.edgesInOrder n ↔ x ∈ g.outgoing n.id := by
    unfold edgesInOrder
    simp only
    split
    · rcases branch : x.branch with _ | _ | _ <;> simp [branch]
    · rfl
  simp [targetsInOrder, edges, outgoing, Leads, and_assoc]

/-- Some nodes with different ids that are all that is reached from some starts around the barred
ids. -/
structure IsBlock (g : Graph) (barred starts : List String) (block : List Node) : Prop where
  nodes : ∀ n ∈ block, g.lastNode? n.id = some n
  distinct : (block.map (·.id)).Nodup
  mem_iff : ∀ id, id ∈ block.map (·.id) ↔ g.ReachedAround barred starts id

/-- Nothing is a block for no targets. -/
theorem isBlock_nil (g : Graph) (barred : List String) : g.IsBlock barred [] [] where
  nodes := by simp
  distinct := List.nodup_nil
  mem_iff id := by simpa using not_reachedAround_nil

/-- A start that is no node, or that is barred, adds nothing to a block. -/
theorem IsBlock.cons_of_blocked {barred starts : List String} {block : List Node}
    (h : g.IsBlock barred starts block) {target : String}
    (blocked : target ∉ g.ids ∨ target ∈ barred) : g.IsBlock barred (target :: starts) block where
  nodes := h.nodes
  distinct := h.distinct
  mem_iff id := (h.mem_iff id).trans (reachedAround_cons_of_blocked blocked).symm

/-- The ids that are entered once a block was read. -/
theorem IsBlock.mem_entered_iff {barred starts : List String} {block : List Node}
    (h : g.IsBlock barred starts block) (id : String) :
    id ∈ (block.map (·.id)).reverse ++ barred ↔
      id ∈ barred ∨ g.ReachedAround barred starts id := by
  rw [List.mem_append, List.mem_reverse, h.mem_iff, or_comm]

/-- The block of a node and others: the node, what its targets reach around it, and what the others
reach around all that. -/
theorem IsBlock.cons {barred starts : List String} {n : Node} {inner rest : List Node}
    (found : g.lastNode? n.id = some n) (new : n.id ∉ barred)
    (h : g.IsBlock (n.id :: barred) (g.targetsInOrder n) inner)
    (h' : g.IsBlock ((inner.map (·.id)).reverse ++ n.id :: barred) starts rest) :
    g.IsBlock barred (n.id :: starts) (n :: (inner ++ rest)) where
  nodes := by
    intro m mem
    rcases List.mem_cons.1 mem with rfl | later
    · exact found
    · exact (List.mem_append.1 later).elim (h.nodes m) (h'.nodes m)
  distinct := by
    have before {id : String} (mem : id ∈ rest.map (·.id)) :
        id ∉ (inner.map (·.id)).reverse ++ n.id :: barred :=
      ((h'.mem_iff id).1 mem).free
    rw [List.map_cons, List.map_append, List.nodup_cons, List.mem_append, List.nodup_append]
    refine ⟨?_, h.distinct, h'.distinct, ?_⟩
    · rintro (inInner | inRest)
      · exact ((h.mem_iff n.id).1 inInner).free List.mem_cons_self
      · exact before inRest (List.mem_append_right _ List.mem_cons_self)
    · rintro id inInner other inRest rfl
      exact before inRest (List.mem_append_left _ (List.mem_reverse.2 inInner))
  mem_iff := by
    intro id
    have isNode : n.id ∈ g.ids := List.mem_map_of_mem (mem_of_lastNode? found).1
    rw [reachedAround_cons_iff isNode new fun _ => mem_targetsInOrder_iff,
      reachedAround_append_iff h.mem_entered_iff, ← h.mem_iff, ← h'.mem_iff, List.map_cons,
      List.map_append, List.mem_cons, List.mem_append]

end Graph

namespace Tour

variable {g : Graph}

/-- The walk after it went through a block of nodes. -/
def after (t : Tour) (block : List Node) (trail : List (List String)) : Tour where
  entered := (block.map (·.id)).reverse ++ t.entered
  listed := (block.filter Node.isStep).reverse ++ t.listed
  trail := trail

/-- Two blocks that are entered one after the other are one block. -/
theorem after_after (t : Tour) (block more : List Node) (trail later : List (List String)) :
    (t.after block trail).after more later = t.after (block ++ more) later := by
  simp [after]

/-- Entering a node puts a block of this one node down. -/
theorem enter_eq_after (t : Tour) (n : Node) (trail : List (List String)) :
    t.enter g n.id n trail = t.after [n] (g.targetsInOrder n :: trail) := by
  by_cases isStep : n.isStep = true <;> simp [enter, after, isStep]

/-- A walk that has some targets to try goes through the block of what they reach around the ids
that were entered, and then tries what comes after them. -/
theorem exists_block (t : Tour) (starts later : List String) (outer : List (List String))
    (path : t.trail = (starts ++ later) :: outer) :
    ∃ block, g.IsBlock t.entered starts block ∧
      ReflTransGen (Move g) t (t.after block (later :: outer)) := by
  -- Every move lowers the measure, so what a node leads to can be worked off by induction before
  -- the targets after it are.
  induction size : t.measure g using Nat.strong_induction_on generalizing t starts later outer with
  | _ size ih =>
    obtain ⟨entered, listed, trail⟩ := t
    obtain rfl : trail = (starts ++ later) :: outer := path
    obtain rfl := size
    cases starts with
    | nil => exact ⟨[], g.isBlock_nil entered, .refl⟩
    | cons target rest =>
      by_cases blocked : target ∉ g.ids ∨ target ∈ entered
      · have move : Move g ⟨entered, listed, (target :: rest ++ later) :: outer⟩
            ⟨entered, listed, (rest ++ later) :: outer⟩ := .skip blocked
        obtain ⟨block, isBlock, moves⟩ := ih _ (measure_lt_of_move move) _ rest later outer rfl rfl
        exact ⟨block, isBlock.cons_of_blocked blocked, moves.head move⟩
      · rw [not_or, not_not] at blocked
        obtain ⟨isNode, new⟩ := blocked
        obtain ⟨n, found⟩ := Graph.lastNode?_of_mem_ids isNode
        obtain rfl := id_of_lastNode? found
        let t : Tour := ⟨entered, listed, (n.id :: rest ++ later) :: outer⟩
        have enters : Move g t (t.enter g n.id n ((rest ++ later) :: outer)) := .enter found new
        rw [enter_eq_after] at enters
        obtain ⟨inner, isInner, innerMoves⟩ := ih _ (measure_lt_of_move enters) _
          (g.targetsInOrder n) [] ((rest ++ later) :: outer) (by simp [after]) rfl
        have leaves : Move g (t.after (n :: inner) ([] :: (rest ++ later) :: outer))
            (t.after (n :: inner) ((rest ++ later) :: outer)) := .leave
        rw [after_after] at innerMoves
        have before := (innerMoves.head enters).tail leaves
        have lower := (measure_lt_of_move leaves).trans_le
          (measure_le_of_moves (innerMoves.head enters))
        obtain ⟨others, isOthers, otherMoves⟩ := ih _ lower
          (t.after (n :: inner) ((rest ++ later) :: outer)) rest later outer rfl rfl
        rw [after_after] at otherMoves
        refine ⟨n :: (inner ++ others), .cons found new ?_ ?_, before.trans otherMoves⟩
        · simpa [after, t] using isInner
        · simpa [after, t] using isOthers

end Tour

end Flowchart
