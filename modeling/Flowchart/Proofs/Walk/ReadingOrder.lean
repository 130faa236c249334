import Flowchart.Proofs.Walk.Block

/-!
# What the reading order is

In reading order every step comes once. First come the steps that can be read on from the entry,
over nodes of any kind, and then the others in declaration order. After a decision, the order goes
through everything that its yes branch leads to before anything else: the nodes that the targets of
the branch reach around what was listed before. Directly after them comes, in the same way, what its
no branch leads to.
-/

set_option autoImplicit false

namespace Flowchart

open Relation (ReflTransGen)

namespace Graph

variable {g : Graph}

/-- A path of edges between nodes leads to the id from the entry. -/
def Readable (g : Graph) (id : String) : Prop :=
  g.ReachedAround [] (g.entry?.map (·.id)).toList id

/-- Where the edges of a branch lead, in declaration order. -/
def targetsBy (g : Graph) (id : String) (b : Branch) : List String :=
  ((g.outgoing id).filter fun x => x.branch == some b).map (·.target)

/-- Among nodes with different ids, a block holds exactly the nodes that are reached. -/
theorem IsBlock.mem_iff_of_nodup {barred starts : List String} {block : List Node}
    (h : g.IsBlock barred starts block) (distinct : g.ids.Nodup) {n : Node} :
    n ∈ block ↔ n ∈ g.nodes ∧ g.ReachedAround barred starts n.id := by
  have inGraph {m : Node} (mem : m ∈ block) : m ∈ g.nodes := (mem_of_lastNode? (h.nodes m mem)).1
  constructor
  · intro mem
    exact ⟨inGraph mem, (h.mem_iff n.id).1 (List.mem_map_of_mem mem)⟩
  · rintro ⟨known, reached⟩
    obtain ⟨m, mem, same⟩ := List.mem_map.1 ((h.mem_iff n.id).2 reached)
    obtain rfl := List.inj_on_of_nodup_map distinct (inGraph mem) known same
    exact mem

end Graph

namespace Tour

variable {g : Graph}

/-! ## The whole walk -/

/-- Where there is an entry, the walk starts by going through the node that its id stands for. -/
theorem start_cases (g : Graph) : g.entry? = none ∧ start g = idle ∨
    ∃ n, g.lastNode? n.id = some n ∧ g.entry?.map (·.id) = some n.id ∧
      start g = idle.after [n] [g.targetsInOrder n] := by
  cases entry : g.entry? with
  | none => exact .inl ⟨rfl, by simp [start, entry]⟩
  | some e =>
    have isNode : e.id ∈ g.ids := Graph.id_of_mem_startNodes (List.mem_of_head? entry)
    obtain ⟨n, found⟩ := Graph.lastNode?_of_mem_ids isNode
    have same : n.id = e.id := id_of_lastNode? found
    refine .inr ⟨n, same ▸ found, by simp [same], ?_⟩
    rw [← enter_eq_after]
    simp [start, entry, found, same]

/-- The walk from the entry goes through one block, and then there is nothing left to try. -/
theorem exists_block_start (g : Graph) :
    ∃ block, g.IsBlock [] (g.entry?.map (·.id)).toList block ∧
      (start g).run g = idle.after block [] := by
  have ended (block : List Node) : (idle.after block []).run g = idle.after block [] :=
    run_of_step_none rfl
  rcases start_cases g with ⟨entry, started⟩ | ⟨n, found, entry, started⟩
  · rw [entry, started]
    exact ⟨[], g.isBlock_nil [], ended []⟩
  · obtain ⟨inner, isInner, moves⟩ := exists_block (g := g) (start g)
      (g.targetsInOrder n) [] [] (by simp [started, after])
    have leaves : Move g ((start g).after inner [[]]) ((start g).after inner []) := .leave
    refine ⟨n :: (inner ++ []), ?_, ?_⟩
    · rw [entry]
      refine .cons found List.not_mem_nil ?_ (g.isBlock_nil _)
      simpa [started, after, idle] using isInner
    · rw [run_of_moves (moves.tail leaves), started, after_after, List.append_nil]
      exact ended (n :: inner)

/-- The walk enters exactly the ids that can be read from the entry. -/
theorem mem_entered_start_iff {id : String} :
    id ∈ ((start g).run g).entered ↔ g.Readable id := by
  obtain ⟨block, isBlock, whole⟩ := exists_block_start g
  rw [whole, Graph.Readable, ← isBlock.mem_iff]
  simp [after, idle]

end Tour

instance (g : Graph) : DecidablePred g.Readable :=
  fun _ => decidable_of_iff _ Tour.mem_entered_start_iff

namespace Graph

variable {g : Graph}

/-- First come the steps that can be read on from the entry, each of them once. -/
theorem exists_inReadingOrder_eq (distinct : g.ids.Nodup) : ∃ front, front.Nodup ∧
    (∀ n, n ∈ front ↔ n ∈ g.steps ∧ g.Readable n.id) ∧
    g.inReadingOrder = front ++ g.steps.filter fun n => ¬ g.Readable n.id := by
  obtain ⟨block, isBlock, whole⟩ := Tour.exists_block_start g
  refine ⟨block.filter Node.isStep, isBlock.distinct.of_map.filter _, ?_, ?_⟩
  · intro n
    rw [List.mem_filter, isBlock.mem_iff_of_nodup distinct, steps, List.mem_filter]
    exact and_right_comm
  · have missed (n : Node) :
        (!((Tour.start g).run g).entered.contains n.id) = decide (¬ g.Readable n.id) := by
      rw [decide_not, ← List.elem_eq_contains, List.elem_eq_mem]
      simp only [Tour.mem_entered_start_iff]
    unfold inReadingOrder steps
    rw [List.filter_filter]
    simp only [missed]
    simp [whole, Tour.after, Tour.idle]

/-- Nothing but steps is listed, even where an anchor and a step share an id. -/
theorem mem_steps_of_mem_inReadingOrder {n : Node} (mem : n ∈ g.inReadingOrder) : n ∈ g.steps := by
  obtain ⟨block, isBlock, whole⟩ := Tour.exists_block_start g
  unfold inReadingOrder at mem
  rw [whole] at mem
  rcases List.mem_append.1 mem with walked | missed
  · have listed : n ∈ block.filter Node.isStep := by
      simpa [Tour.after, Tour.idle] using walked
    obtain ⟨inBlock, isStep⟩ := List.mem_filter.1 listed
    exact List.mem_filter.2 ⟨(mem_of_lastNode? (isBlock.nodes n inBlock)).1, isStep⟩
  · obtain ⟨inGraph, new⟩ := List.mem_filter.1 missed
    exact List.mem_filter.2 ⟨inGraph, (Bool.and_eq_true_iff.1 new).2⟩

/-- What stands in the reading order is a node. -/
theorem mem_nodes_of_mem_inReadingOrder {n : Node} (mem : n ∈ g.inReadingOrder) : n ∈ g.nodes :=
  List.mem_of_mem_filter (mem_steps_of_mem_inReadingOrder mem)

/-- What stands in the reading order is a step. -/
theorem isStep_of_mem_inReadingOrder {n : Node} (mem : n ∈ g.inReadingOrder) : n.isStep = true :=
  (List.mem_filter.1 (mem_steps_of_mem_inReadingOrder mem)).2

/-- Where ids are distinct, no step is listed twice. -/
theorem nodup_steps (distinct : g.ids.Nodup) : g.steps.Nodup :=
  distinct.of_map.filter _

/-- Where ids are distinct, the reading order lists every step once. -/
theorem perm_steps_inReadingOrder (distinct : g.ids.Nodup) : g.inReadingOrder.Perm g.steps := by
  obtain ⟨front, once, mem_front, order⟩ := exists_inReadingOrder_eq distinct
  have readable : front.Perm (g.steps.filter fun n => g.Readable n.id) := by
    rw [List.perm_ext_iff_of_nodup once ((nodup_steps distinct).filter _)]
    simpa using mem_front
  rw [order]
  simpa using (readable.append_right _).trans (List.filter_append_perm _ g.steps)

/-- With different ids, the reading order holds every step once: first those that can be read on
from the entry, and then the others in declaration order. -/
theorem inReadingOrder_of_nodup (distinct : g.ids.Nodup) :
    g.inReadingOrder.Perm g.steps ∧ ∃ front,
      (∀ n, n ∈ front ↔ n ∈ g.steps ∧ g.Readable n.id) ∧
      g.inReadingOrder = front ++ g.steps.filter fun n => ¬ g.Readable n.id := by
  obtain ⟨front, -, mem_front, order⟩ := exists_inReadingOrder_eq distinct
  exact ⟨perm_steps_inReadingOrder distinct, front, mem_front, order⟩

end Graph

/-- A loop that passes through an anchor, a branch that leads to no node, and two steps that are out
of reach, one of them declared before all others. -/
def drillGraph : Graph where
  nodes := [
    { id := "rest", kind := .process, title := "Rest" },
    { id := "start", kind := .start, title := "Start" },
    { id := "call", kind := .input, title := "Call" },
    { id := "ask", kind := .decision, title := "Again?" },
    { id := "over", kind := .output, title := "Over" },
    { id := "note", kind := .process, title := "Note" }]
  edges := [
    { source := "call", target := "start" },
    { source := "start", target := "ask" },
    { source := "ask", target := "over", branch := some .no },
    { source := "ask", target := "ghost", branch := some .yes },
    { source := "ask", target := "call", branch := some .yes },
    { source := "note", target := "rest" }]

/-- Its ids are distinct, so its steps come in an order that starts with what can be read. -/
theorem Graph.inReadingOrder_of_nodup_drillGraph :
    drillGraph.ids.Nodup ∧ drillGraph.inReadingOrder.Perm drillGraph.steps ∧ ∃ front,
      (∀ n, n ∈ front ↔ n ∈ drillGraph.steps ∧ drillGraph.Readable n.id) ∧
      drillGraph.inReadingOrder =
        front ++ drillGraph.steps.filter fun n => ¬ drillGraph.Readable n.id := by
  have distinct : drillGraph.ids.Nodup := by decide
  exact ⟨distinct, inReadingOrder_of_nodup distinct⟩

/-! ## Branches -/

namespace Tour

variable {g : Graph}

/-- What was listed stays listed. -/
theorem listed_suffix_run (t : Tour) : t.listed <:+ (t.run g).listed := by
  induction t using run.induct g with
  | case1 t ended => simp only [run_of_step_none ended, List.suffix_rfl]
  | case2 t next turn ih =>
    rw [run_of_step_some turn]
    refine List.IsSuffix.trans ?_ ih
    cases move_of_step turn with
    | leave => exact List.suffix_rfl
    | skip => exact List.suffix_rfl
    | @enter n =>
      by_cases isStep : n.isStep = true
      · simp [enter, isStep]
      · simp [enter, isStep]

/-- Whatever a walk lists is listed when the walk enters it. -/
theorem exists_enter_of_mem_listed {t : Tour} {n : Node} (mem : n ∈ (t.run g).listed) :
    n ∈ t.listed ∨ ∃ s outer,
      ReflTransGen (Move g) t (after s [n] (g.targetsInOrder n :: outer)) := by
  induction t using run.induct g with
  | case1 t ended =>
    rw [run_of_step_none ended] at mem
    exact .inl mem
  | case2 t next turn ih =>
    rw [run_of_step_some turn] at mem
    rcases ih mem with before | ⟨s, outer, moves⟩
    · cases move_of_step turn with
      | leave => exact .inl before
      | skip => exact .inl before
      | @enter m untried entered listed outer found new =>
        have enters : Move g ⟨entered, listed, (m.id :: untried) :: outer⟩ _ := .enter found new
        rw [enter_eq_after] at before enters
        by_cases here : n = m
        · subst here
          exact .inr ⟨_, _, .single enters⟩
        · refine .inl ((List.mem_append.1 before).resolve_left fun mem => here ?_)
          simpa using List.mem_of_mem_filter (List.mem_reverse.1 mem)
    · exact .inr ⟨s, outer, moves.head (move_of_step turn)⟩

/-- What the walk from the entry lists, it lists when it enters it. -/
theorem exists_enter_of_mem_listed_start {n : Node} (mem : n ∈ ((start g).run g).listed) :
    ∃ s outer, ReflTransGen (Move g) (start g) (after s [n] (g.targetsInOrder n :: outer)) := by
  rcases exists_enter_of_mem_listed mem with before | entered
  · rcases start_cases g with ⟨-, started⟩ | ⟨m, -, -, started⟩
    · simp [started, idle] at before
    · have same : n = m ∧ n.isStep = true := by simpa [started, after, idle] using before
      obtain rfl := same.1
      exact ⟨idle, [], started ▸ .refl⟩
  · exact entered

/-- The walk has listed all that it entered. -/
def ListsAll (t : Tour) : Prop :=
  t.entered = t.listed.map (·.id)

/-- A block of steps that is entered is listed in full. -/
theorem ListsAll.after {t : Tour} (h : t.ListsAll) {block : List Node}
    (steps : ∀ n ∈ block, n.isStep = true) (trail : List (List String)) :
    (t.after block trail).ListsAll := by
  have all : block.filter Node.isStep = block := List.filter_eq_self.2 steps
  unfold ListsAll at h ⊢
  simp [Tour.after, all, h]

/-- Where all nodes are steps, the walk lists all that it enters. -/
theorem listsAll_start (steps : ∀ n ∈ g.nodes, n.isStep = true) : (start g).ListsAll := by
  have idles : idle.ListsAll := rfl
  rcases start_cases g with ⟨-, started⟩ | ⟨n, found, -, started⟩
  · rw [started]
    exact idles
  · rw [started]
    refine idles.after ?_ _
    intro m mem
    rw [List.mem_singleton.1 mem]
    exact steps n (Graph.mem_of_lastNode? found).1

/-- Without anchors, a walk lists all that it enters. -/
theorem listsAll_of_moves (steps : ∀ n ∈ g.nodes, n.isStep = true) {t next : Tour}
    (h : t.ListsAll) (moves : ReflTransGen (Move g) t next) : next.ListsAll := by
  induction moves with
  | refl => exact h
  | tail _ move ih =>
    cases move with
    | leave => exact ih
    | skip => exact ih
    | @enter n untried entered listed outer found new =>
      rw [enter_eq_after]
      refine ih.after ?_ _
      intro m mem
      rw [List.mem_singleton.1 mem]
      exact steps n (Graph.mem_of_lastNode? found).1

/-- When a walk has entered a decision, it goes through the block of its yes branch first, and then
through that of its no branch. -/
theorem exists_branchBlocks (t : Tour) {d : Node} (decision : d.kind = .decision)
    {outer : List (List String)} (path : t.trail = g.targetsInOrder d :: outer) :
    ∃ yes no, g.IsBlock t.entered (g.targetsBy d.id .yes) yes ∧
      g.IsBlock ((yes.map (·.id)).reverse ++ t.entered) (g.targetsBy d.id .no) no ∧
      ((yes ++ no).filter Node.isStep).reverse ++ t.listed <:+ (t.run g).listed := by
  let others := ((g.outgoing d.id).filter fun x => x.branch.isNone).map (·.target)
  have targets : g.targetsInOrder d =
      g.targetsBy d.id .yes ++ (g.targetsBy d.id .no ++ others) := by
    simp [Graph.targetsInOrder, Graph.edgesInOrder, decision, Graph.targetsBy, others]
  rw [targets] at path
  obtain ⟨yes, isYes, yesMoves⟩ := exists_block (g := g) t _ _ outer path
  obtain ⟨no, isNo, noMoves⟩ := exists_block (g := g)
    (t.after yes ((g.targetsBy d.id .no ++ others) :: outer)) _ _ outer rfl
  rw [after_after] at noMoves
  refine ⟨yes, no, isYes, isNo, ?_⟩
  rw [run_of_moves (yesMoves.trans noMoves)]
  exact listed_suffix_run (t.after (yes ++ no) (others :: outer))

/-- Around a decision that the walk from the entry lists, the reading order is what was listed
before, the decision, and the blocks of its branches. -/
theorem exists_order_eq (steps : ∀ n ∈ g.nodes, n.isStep = true) {d : Node}
    (walked : d ∈ ((start g).run g).listed) (decision : d.kind = .decision) :
    ∃ before yes no rest, g.inReadingOrder = before ++ d :: (yes ++ no ++ rest) ∧
      g.IsBlock ((before ++ [d]).map (·.id)).reverse (g.targetsBy d.id .yes) yes ∧
      g.IsBlock ((before ++ d :: yes).map (·.id)).reverse (g.targetsBy d.id .no) no := by
  obtain ⟨s, outer, moves⟩ := exists_enter_of_mem_listed_start walked
  let t := s.after [d] (g.targetsInOrder d :: outer)
  have listed : t.listed = d :: s.listed := by
    simp [t, after, Node.isStep, decision, NodeKind.isAnchor]
  -- What was entered when the walk had just entered the decision is what it had listed by then.
  have entered : t.entered = ((s.listed.reverse ++ [d]).map (·.id)).reverse := by
    rw [listsAll_of_moves steps (listsAll_start steps) moves, listed]
    simp
  obtain ⟨yes, no, isYes, isNo, more, whole⟩ := exists_branchBlocks t decision rfl
  have allSteps : (yes ++ no).filter Node.isStep = yes ++ no := by
    rw [List.filter_eq_self]
    intro n mem
    have found := (List.mem_append.1 mem).elim (isYes.nodes n) (isNo.nodes n)
    exact steps n (Graph.mem_of_lastNode? found).1
  refine ⟨s.listed.reverse, yes, no, more.reverse ++
    g.nodes.filter (fun n => !(t.run g).entered.contains n.id && n.isStep), ?_, ?_, ?_⟩
  · unfold Graph.inReadingOrder
    have runs : (start g).run g = t.run g := run_of_moves moves
    simp only
    rw [runs, ← whole, allSteps, listed]
    simp
  · rw [← entered]
    exact isYes
  · rw [entered] at isNo
    simpa using isNo

end Tour

/-- In a graph of steps with different ids, what the walk from the entry lists directly after a
decision is everything that its yes branch reaches around what was listed up to the decision, and
directly after that everything that its no branch reaches around all this. -/
theorem Graph.branchBlocks_of_decision {g : Graph} (steps : ∀ n ∈ g.nodes, n.isStep = true)
    (distinct : g.ids.Nodup) {d : Node} (walked : d ∈ ((Tour.start g).run g).listed)
    (decision : d.kind = .decision) {before later : List Node}
    (order : g.inReadingOrder = before ++ d :: later) :
    ∃ yes no rest, later = yes ++ no ++ rest ∧
      (∀ n, n ∈ yes ↔ n ∈ g.nodes ∧
        g.ReachedAround ((before ++ [d]).map (·.id)) (g.targetsBy d.id .yes) n.id) ∧
      (∀ n, n ∈ no ↔ n ∈ g.nodes ∧
        g.ReachedAround ((before ++ d :: yes).map (·.id)) (g.targetsBy d.id .no) n.id) := by
  have once : g.inReadingOrder.Nodup := by
    rw [(perm_steps_inReadingOrder distinct).nodup_iff]
    exact nodup_steps distinct
  obtain ⟨front, yes, no, rest, whole, isYes, isNo⟩ := Tour.exists_order_eq steps walked decision
  -- The decision is listed once, so there is one way to split the order at it.
  have notIn {front back : List Node} (split : g.inReadingOrder = front ++ d :: back) :
      d ∉ front ∧ d ∉ back := by
    rw [split, List.nodup_middle, List.nodup_cons, List.mem_append, not_or] at once
    exact once.1
  obtain ⟨rfl, -, rfl⟩ := (List.append_cons_inj_of_notMem (notIn order).1 (notIn order).2).1
    (order.symm.trans whole)
  refine ⟨yes, no, rest, rfl, ?_, ?_⟩
  · intro n
    rw [isYes.mem_iff_of_nodup distinct, reachedAround_congr fun _ => List.mem_reverse]
  · intro n
    rw [isNo.mem_iff_of_nodup distinct, reachedAround_congr fun _ => List.mem_reverse]

/-- The question of the flow below. -/
def repairQuestion : Node where
  id := "ask"
  kind := .decision
  title := "Broken?"

/-- The no branch is declared first, it leads to two steps, and one of them leads on to a step of
the yes branch. The yes branch leads back to the decision, which has an edge of no branch as
well. -/
def repairGraph : Graph where
  nodes := [
    { id := "call", kind := .input, title := "Call" },
    repairQuestion,
    { id := "log", kind := .process, title := "Log" },
    { id := "tell", kind := .process, title := "Tell" },
    { id := "fix", kind := .process, title := "Fix" },
    { id := "bill", kind := .output, title := "Bill" },
    { id := "done", kind := .output, title := "Done" }]
  edges := [
    { source := "call", target := "ask" },
    { source := "ask", target := "log" },
    { source := "ask", target := "tell", branch := some .no },
    { source := "ask", target := "fix", branch := some .yes },
    { source := "ask", target := "done", branch := some .no },
    { source := "fix", target := "ask" },
    { source := "fix", target := "bill" },
    { source := "tell", target := "bill" }]

/-- The question of this flow has its yes branch behind it, and then its no branch. -/
theorem Graph.branchBlocks_of_decision_repairGraph :
    repairGraph.inReadingOrder.map (·.id) =
        ["call", "ask", "fix", "bill", "tell", "done", "log"] ∧
      ∃ before later, repairGraph.inReadingOrder = before ++ repairQuestion :: later ∧
        ∃ yes no rest, later = yes ++ no ++ rest ∧
          (∀ n, n ∈ yes ↔ n ∈ repairGraph.nodes ∧
            repairGraph.ReachedAround ((before ++ [repairQuestion]).map (·.id))
              (repairGraph.targetsBy "ask" .yes) n.id) ∧
          (∀ n, n ∈ no ↔ n ∈ repairGraph.nodes ∧
            repairGraph.ReachedAround ((before ++ repairQuestion :: yes).map (·.id))
              (repairGraph.targetsBy "ask" .no) n.id) := by
  have steps : ∀ n ∈ repairGraph.nodes, n.isStep = true := by decide
  have distinct : repairGraph.ids.Nodup := by decide
  have walked : repairQuestion ∈ ((Tour.start repairGraph).run repairGraph).listed := by
    decide +kernel
  have order : repairGraph.inReadingOrder = repairGraph.inReadingOrder.take 1 ++
      repairQuestion :: repairGraph.inReadingOrder.drop 2 := by
    decide +kernel
  exact ⟨by decide +kernel, _, _, order,
    branchBlocks_of_decision steps distinct walked rfl order⟩

end Flowchart
