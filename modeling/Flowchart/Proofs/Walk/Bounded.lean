import Flowchart.Proofs.Walk.FoundCycle
import Flowchart.Proofs.Walk.ReadingOrder
import Flowchart.Proofs.Walk.Rounds

/-!
# How long the walks take

The three walks end by themselves in every graph, whatever its edges are like, after a number of
rounds that can be told beforehand. The walk along all edges takes one id from its queue in each
round, and no more ids enter the queue than there are start nodes and edges. The other two keep a
stack. In a round they pass over the targets that lead nowhere new, and then put a new id on the
stack or take one off. No id is put on it twice, since what was visited is kept from one start node
to the next.
-/

set_option autoImplicit false

namespace Flowchart

open Relation (ReflTransGen)

/-! ## Passing over -/

/-- What can pass over one item at a time can pass over all that is to be dropped. -/
theorem reflTransGen_dropWhile {α σ : Type} {p : α → Bool} {r : σ → σ → Prop} (state : List α → σ)
    (skip : ∀ x xs, p x = true → r (state (x :: xs)) (state xs)) (xs : List α) :
    ReflTransGen r (state xs) (state (xs.dropWhile p)) := by
  induction xs with
  | nil => exact .refl
  | cons x xs ih =>
    rw [List.dropWhile_cons]
    split
    · rename_i skips
      exact ih.head (skip x xs skips)
    · exact .refl

/-- What comes first once all that is to be dropped was dropped is not to be dropped. -/
theorem eq_false_of_dropWhile_eq_cons {α : Type} {p : α → Bool} {xs rest : List α} {x : α}
    (dropped : xs.dropWhile p = x :: rest) : p x = false := by
  have stays := List.head_dropWhile_not p (l := xs) (by simp [dropped])
  simpa [dropped] using stays

/-! ## The walk along all edges -/

namespace Flood

/-- The walk as a loop, of which a round takes an id from the queue. -/
def round (g : Graph) (f : Flood) : Round Flood Flood :=
  match f.step g with
  | none => .done f
  | some next => .on next

/-- A round of the walk is a turn, so fewer turns are left after it. -/
theorem hasVariant_round (g : Graph) :
    Loop.HasVariant (round g) (fun _ => True) (measure g) (run g) := by
  intro f _
  unfold round
  cases turn : f.step g with
  | none => exact (run_of_step_none turn).symm
  | some next => exact ⟨trivial, (run_of_step_some turn).symm, measure_step_lt g turn⟩

/-- Before the first turn, as many turns are left as there are start nodes and edges. -/
theorem measure_start (g : Graph) :
    (start g).measure g = g.startNodes.length + g.edges.length := by
  simp [measure, start, Graph.pending, Nat.add_comm]

end Flood

/-! ## The search for a cycle -/

/-- The ids that occur in a graph: those of its nodes, and those that its edges name. -/
def Graph.knownIds (g : Graph) : List String :=
  g.ids ++ g.edges.flatMap fun e => [e.source, e.target]

/-- An id that can be reached occurs in the graph. -/
theorem Graph.mem_knownIds_of_accessible {g : Graph} {id : String} (h : g.Accessible id) :
    id ∈ g.knownIds := by
  obtain ⟨n, isStart, path⟩ := h
  unfold knownIds
  rw [List.mem_append, List.mem_flatMap]
  cases path with
  | refl => exact .inl (id_of_mem_startNodes isStart)
  | tail _ leads =>
    obtain ⟨x, mem, -, rfl⟩ := leads
    exact .inr ⟨x, mem, by simp⟩

namespace Search

/-- The search after it passed over what leads nowhere new: start ids that were visited before and,
on a path, targets that were visited before and are not on the path. -/
def skipped (s : Search) : Search :=
  match s.trail with
  | [] => { s with starts := s.starts.dropWhile s.visited.contains }
  | ⟨id, untried⟩ :: outer =>
    { s with trail := ⟨id, untried.dropWhile fun target =>
        s.visited.contains target && !s.path.contains target⟩ :: outer }

/-- The search as a loop. A round takes a new start id, or it goes through the targets of the last
id of the path until one of them closes a cycle or is new; if none is, the id leaves the path. -/
def round (g : Graph) (s : Search) : Round Search (List String) :=
  match s.skipped.step g with
  | .found cycle => .last cycle
  | .exhausted => .done []
  | .on next => .on next

/-- The stack of the search is its path. -/
def standing (s : Search) : Standing :=
  ⟨s.visited, s.trail.length, s.trail.head?.map (·.id)⟩

/-- Skipping targets changes neither the visited ids nor the length of the path. -/
theorem standing_skipped (s : Search) : s.skipped.standing = s.standing := by
  obtain ⟨starts, visited, _ | ⟨entry, outer⟩⟩ := s <;> rfl

/-- Skipping targets takes moves of the walk. -/
theorem moves_skipped (g : Graph) (s : Search) : ReflTransGen (Move g) s s.skipped := by
  obtain ⟨starts, visited, _ | ⟨⟨id, untried⟩, outer⟩⟩ := s
  · let state (starts : List String) : Search := ⟨starts, visited, []⟩
    have skip (id : String) (later : List String) (old : visited.contains id = true) :
        Move g (state (id :: later)) (state later) := .skipStart (by simpa using old)
    exact reflTransGen_dropWhile state skip starts
  · let state (untried : List String) : Search := ⟨starts, visited, ⟨id, untried⟩ :: outer⟩
    have skip (target : String) (later : List String)
        (old : (visited.contains target && !(state untried).path.contains target) = true) :
        Move g (state (target :: later)) (state later) := by
      simp only [Bool.and_eq_true, Bool.not_eq_true'] at old
      exact .skip (mt mem_path_iff.2 (by simpa using old.2)) (by simpa using old.1)
    exact reflTransGen_dropWhile state skip untried

/-- A start id that comes first once others were passed over is new. -/
theorem new_of_skipped {s : Search} {id : String} {starts visited : List String}
    (whole : s.skipped = ⟨id :: starts, visited, []⟩) : id ∉ visited := by
  obtain ⟨given, seen, _ | ⟨entry, outer⟩⟩ := s
  · obtain ⟨dropped, rfl, -⟩ := Search.mk.inj whole
    simpa using eq_false_of_dropWhile_eq_cons dropped
  · exact absurd (congrArg Search.trail whole) (List.cons_ne_nil _ _)

/-- A target that comes first once others were passed over is new, or it is on the path. -/
theorem mem_path_of_skipped {s : Search} {id target : String}
    {starts visited untried : List String} {outer : List PathEntry}
    (whole : s.skipped = ⟨starts, visited, ⟨id, target :: untried⟩ :: outer⟩)
    (old : target ∈ visited) : target ∈ id :: outer.map (·.id) := by
  obtain ⟨given, seen, _ | ⟨entry, inner⟩⟩ := s
  · exact absurd (congrArg Search.trail whole).symm (List.cons_ne_nil _ _)
  · obtain ⟨-, rfl, trail⟩ := Search.mk.inj whole
    obtain ⟨first, rfl⟩ := List.cons.inj trail
    obtain ⟨rfl, dropped⟩ := PathEntry.mk.inj first
    have stays := eq_false_of_dropWhile_eq_cons dropped
    exact mem_path_iff.1 (by simpa [old] using stays)

/-- No moves lead a walk out of what can be reached. -/
theorem inside_moves {g : Graph} {s next : Search} (h : Inside g s)
    (moves : ReflTransGen (Move g) s next) : Inside g next := by
  induction moves with
  | refl => exact h
  | tail _ move ih => exact inside_move ih move

/-- A move that passes nothing over puts a new id on the path, or takes the last one off it. -/
theorem step_of_move_skipped {g : Graph} {s next : Search} (inside : Inside g s.skipped)
    (move : Move g s.skipped next) : Standing.Step g.knownIds s.standing next.standing := by
  rw [← standing_skipped s]
  generalize whole : s.skipped = skipped at move inside
  -- After all was passed over that leads nowhere new, no move passes over anything.
  cases move with
  | skipStart old => exact absurd old (new_of_skipped whole)
  | @takeStart id starts visited new =>
    have known := Graph.mem_knownIds_of_accessible (inside.starts id List.mem_cons_self)
    exact .push known new
  | leave => exact .pop
  | skip off old => exact absurd (mem_path_of_skipped whole old) off
  | @descend id target starts visited untried outer off new =>
    have known := Graph.mem_knownIds_of_accessible
      (inside.untried _ List.mem_cons_self target List.mem_cons_self)
    exact .push known new

/-- A round puts a new id on the path, or takes the last one off it; a round that finds a cycle has
a path to find it on. -/
theorem isStackWalk_round (g : Graph) :
    Loop.IsStackWalk (round g) (Inside g) standing g.knownIds (run g) := by
  intro s inside
  have skips := moves_skipped g s
  have runs := run_of_moves skips
  unfold round
  cases turn : s.skipped.step g with
  | found cycle =>
    obtain ⟨id, target, untried, outer, trail, -, -⟩ := closing_of_step_found turn
    refine ⟨(runs.trans (run_of_step_found turn)).symm, ?_⟩
    rw [← standing_skipped s]
    simp [standing, trail]
  | exhausted => exact (runs.trans (run_of_step_exhausted turn)).symm
  | on next =>
    have move := move_of_step turn
    have insideSkipped := inside_moves inside skips
    exact ⟨inside_move insideSkipped move, (run_of_moves (skips.tail move)).symm,
      step_of_move_skipped insideSkipped move⟩

/-- The ids that the search puts on its path in its first rounds, in order. -/
def pushes (g : Graph) (rounds : Nat) : List String :=
  Loop.pushes (round g) standing rounds (start g)

/-- Before the first round, two rounds are left for every id that occurs in the graph. -/
theorem roundsLeft_start (g : Graph) :
    (start g).standing.roundsLeft g.knownIds = 2 * g.knownIds.toFinset.card := by
  simp [standing, start, Standing.roundsLeft, unentered]

end Search

/-! ## The walk in reading order -/

namespace Tour

/-- The target is not to be entered: it is no node, or it was entered before. -/
def blocked (g : Graph) (entered : List String) (target : String) : Bool :=
  !g.ids.contains target || entered.contains target

/-- A target is blocked if no node has this id or if it was entered before. -/
theorem blocked_iff {g : Graph} {entered : List String} {target : String} :
    blocked g entered target = true ↔ target ∉ g.ids ∨ target ∈ entered := by
  simp [blocked]

/-- The walk after it passed over the targets of the innermost node that are not to be entered. -/
def skipped (g : Graph) (t : Tour) : Tour :=
  { t with trail := t.trail.modifyHead (·.dropWhile (blocked g t.entered)) }

/-- What is left of a path once all nodes were left from which nothing is to be entered. -/
def unwound (g : Graph) (entered : List String) : List (List String) → List (List String)
  | [] => []
  | untried :: outer =>
    match untried.dropWhile (blocked g entered) with
    | [] => unwound g entered outer
    | target :: rest => (target :: rest) :: outer

/-- The walk after it left all nodes from which nothing is to be entered. -/
def settled (g : Graph) (t : Tour) : Tour :=
  { t with trail := unwound g t.entered t.trail }

/-- The walk as a loop, of which a round passes over something and then takes a turn. -/
def roundAfter (g : Graph) (passed : Tour → Tour) (t : Tour) : Round Tour Tour :=
  match (passed t).step g with
  | none => .done (passed t)
  | some next => .on next

/-- The walk as a loop. A round goes through the targets of the innermost node until one of them is
to be entered; if none is, the walk leaves the node. -/
def round (g : Graph) : Tour → Round Tour Tour := roundAfter g (skipped g)

/-- The walk as a loop of which every round enters a node. -/
def entering (g : Graph) : Tour → Round Tour Tour := roundAfter g (settled g)

/-- The stack of the walk is its path. There are no ids on that, and the one entered last stands for
its top. -/
def standing (t : Tour) : Standing := ⟨t.entered, t.trail.length, t.entered.head?⟩

/-- After something was passed over, the walk is over, or a round makes one more move and the walk
comes to the same as before. -/
theorem roundAfter_cases {g : Graph} {passed : Tour → Tour} {t : Tour}
    (passes : ReflTransGen (Move g) t (passed t)) :
    roundAfter g passed t = .done (t.run g) ∨
      ∃ next, roundAfter g passed t = .on next ∧ next.run g = t.run g ∧ Move g (passed t) next := by
  unfold roundAfter
  cases turn : (passed t).step g with
  | none =>
    have runs := (run_of_moves passes).trans (run_of_step_none turn)
    exact .inl (congrArg Round.done runs.symm)
  | some next =>
    have move := move_of_step turn
    exact .inr ⟨next, rfl, (run_of_moves (passes.tail move)).symm, move⟩

/-- Dropping blocked targets takes moves of the walk. -/
theorem moves_dropWhile (g : Graph) (entered : List String) (listed : List Node)
    (untried : List String) (outer : List (List String)) :
    ReflTransGen (Move g) ⟨entered, listed, untried :: outer⟩
      ⟨entered, listed, untried.dropWhile (blocked g entered) :: outer⟩ := by
  let state (untried : List String) : Tour := ⟨entered, listed, untried :: outer⟩
  have skip (target : String) (later : List String) (isBlocked : blocked g entered target = true) :
      Move g (state (target :: later)) (state later) := .skip (blocked_iff.1 isBlocked)
  exact reflTransGen_dropWhile state skip untried

/-- Skipping blocked targets takes moves of the walk. -/
theorem moves_skipped (g : Graph) (t : Tour) : ReflTransGen (Move g) t (t.skipped g) := by
  obtain ⟨entered, listed, _ | ⟨untried, outer⟩⟩ := t
  · exact .refl
  · exact moves_dropWhile g entered listed untried outer

/-- Leaving the nodes from which nothing is to be entered takes moves of the walk. -/
theorem moves_settled (g : Graph) (t : Tour) : ReflTransGen (Move g) t (t.settled g) := by
  obtain ⟨entered, listed, trail⟩ := t
  induction trail with
  | nil => exact .refl
  | cons untried outer ih =>
    have skips := moves_dropWhile g entered listed untried outer
    simp only [settled, unwound] at ih ⊢
    cases rest : untried.dropWhile (blocked g entered) with
    | nil =>
      rw [rest] at skips
      exact skips.trans (ih.head .leave)
    | cons target later =>
      rw [rest] at skips
      exact skips

/-- Skipping targets changes neither the entered ids nor the length of the path. -/
theorem standing_skipped (g : Graph) (t : Tour) : (t.skipped g).standing = t.standing := by
  obtain ⟨entered, listed, _ | ⟨untried, outer⟩⟩ := t <;> rfl

/-- A target that comes first once others were passed over is to be entered. -/
theorem free_of_skipped {g : Graph} {t : Tour} {entered untried : List String} {listed : List Node}
    {target : String} {outer : List (List String)}
    (whole : t.skipped g = ⟨entered, listed, (target :: untried) :: outer⟩) :
    blocked g entered target = false := by
  obtain ⟨known, seen, _ | ⟨given, inner⟩⟩ := t
  · exact absurd (congrArg Tour.trail whole).symm (List.cons_ne_nil _ _)
  · obtain ⟨rfl, -, trail⟩ := Tour.mk.inj whole
    exact eq_false_of_dropWhile_eq_cons (List.cons.inj trail).1

/-- A round puts a new node on the path, or takes the innermost one off it. -/
theorem isStackWalk_round (g : Graph) :
    Loop.IsStackWalk (round g) (fun _ => True) standing g.ids (run g) := by
  intro t _
  rcases roundAfter_cases (moves_skipped g t) with done | ⟨next, on, same, move⟩
  · rw [round, done]
  · rw [round, on]
    refine ⟨trivial, same, ?_⟩
    rw [← standing_skipped g t]
    generalize whole : t.skipped g = skipped at move
    cases move with
    | leave => exact .pop
    | skip isBlocked => exact absurd (blocked_iff.2 isBlocked) (by simp [free_of_skipped whole])
    | enter found new => exact .push (Graph.mem_ids_of_lastNode? found) new

/-- Where all nodes were left from which nothing is to be entered, something is to be entered from
the innermost one that remains. -/
theorem free_of_unwound {g : Graph} {entered untried : List String}
    {trail outer : List (List String)}
    (path : unwound g entered trail = untried :: outer) :
    ∃ target rest, untried = target :: rest ∧ blocked g entered target = false := by
  induction trail with
  | nil => simp [unwound] at path
  | cons given inner ih =>
    rw [unwound] at path
    split at path
    · exact ih path
    · rename_i target rest dropped
      obtain ⟨rfl, -⟩ := List.cons.inj path
      exact ⟨target, rest, rfl, eq_false_of_dropWhile_eq_cons dropped⟩

/-- Every round enters a new node. -/
theorem hasVariant_entering (g : Graph) :
    Loop.HasVariant (entering g) (fun _ => True) (fun t => unentered g.ids t.entered) (run g) := by
  intro t _
  rcases roundAfter_cases (moves_settled g t) with done | ⟨next, on, same, move⟩
  · rw [entering, done]
  · rw [entering, on]
    refine ⟨trivial, same, ?_⟩
    show unentered g.ids next.entered < unentered g.ids (t.settled g).entered
    obtain ⟨before, seen, trail⟩ := t
    generalize whole : settled g ⟨before, seen, trail⟩ = left at move ⊢
    cases move with
    | leave =>
      obtain ⟨-, -, path⟩ := Tour.mk.inj whole
      obtain ⟨target, rest, nothing, -⟩ := free_of_unwound path
      simp at nothing
    | skip isBlocked =>
      obtain ⟨rfl, -, path⟩ := Tour.mk.inj whole
      obtain ⟨target, rest, first, free⟩ := free_of_unwound path
      obtain ⟨rfl, rfl⟩ := List.cons.inj first
      exact absurd (blocked_iff.2 isBlocked) (by simp [free])
    | enter found new =>
      have fewer := unentered_cons (Graph.mem_ids_of_lastNode? found) new
      exact Nat.lt_of_succ_le fewer.le

/-- The ids that the walk from the entry enters up to the end of its first rounds: the entry, before
the first round, and what the rounds put on the path. -/
def entries (g : Graph) (rounds : Nat) : List String :=
  (start g).entered ++ Loop.pushes (round g) standing rounds (start g)

/-- No id is entered twice, and every id that is entered belongs to a node. -/
theorem entries_spec (g : Graph) (rounds : Nat) :
    (entries g rounds).Nodup ∧ entries g rounds ⊆ g.ids := by
  obtain ⟨distinct, apart, within⟩ :=
    (isStackWalk_round g).pushes_spec rounds (s := start g) trivial
  have entry : (start g).entered.Nodup ∧ (start g).entered ⊆ g.ids := by
    rcases start_cases g with ⟨-, started⟩ | ⟨n, found, -, started⟩
    · simp [started, idle]
    · simp [started, after, idle, Graph.mem_ids_of_lastNode? found]
  exact ⟨entry.1.append distinct apart.symm, List.append_subset.2 ⟨entry.2, within⟩⟩

/-- Before the first round, at most two rounds are left for every id of a node. -/
theorem roundsLeft_start (g : Graph) :
    (start g).standing.roundsLeft g.ids ≤ 2 * g.ids.toFinset.card := by
  rcases start_cases g with ⟨-, started⟩ | ⟨n, found, -, started⟩
  · simp [started, idle, standing, Standing.roundsLeft, unentered]
  · have fewer := unentered_cons (Graph.mem_ids_of_lastNode? found) List.not_mem_nil
    have all := unentered_le g.ids []
    simp only [started, after, idle, standing, Standing.roundsLeft, List.map_cons, List.map_nil,
      List.reverse_singleton, List.append_nil, List.length_singleton]
    omega

end Tour

/-! ## All three -/

/-- How long the walks through a graph take. Each of them ends by itself: with fewer rounds than it
takes it is cut off, and with any more it comes to the same. -/
structure Graph.BoundsWalks (g : Graph) : Prop where
  /-- The walk along all edges takes at most as many ids from its queue as there are start nodes and
  edges. -/
  flood : ∃ rounds ≤ g.startNodes.length + g.edges.length,
    Loop.EndsAfter (Flood.round g) rounds (Flood.start g) ((Flood.start g).run g)
  /-- The search for a cycle puts no id on its path twice, over all start nodes. -/
  pushedOnce : ∀ rounds, (Search.pushes g rounds).Nodup
  /-- It takes at most two rounds for each id that occurs in the graph. -/
  search : ∃ rounds ≤ 2 * g.knownIds.toFinset.card,
    Loop.EndsAfter (Search.round g) rounds (Search.start g) g.findCycle
  /-- The walk in reading order enters only ids of nodes, and none of them twice. -/
  enteredOnce : ∀ rounds, (Tour.entries g rounds).Nodup ∧ Tour.entries g rounds ⊆ g.ids
  /-- It takes at most one round for each of these ids if every round enters a node. -/
  tourByEntries : ∃ rounds ≤ g.ids.toFinset.card,
    Loop.EndsAfter (Tour.entering g) rounds (Tour.start g) ((Tour.start g).run g)
  /-- It takes at most two if a round enters a node or leaves one. -/
  tour : ∃ rounds ≤ 2 * g.ids.toFinset.card,
    Loop.EndsAfter (Tour.round g) rounds (Tour.start g) ((Tour.start g).run g)

/-- In every graph, whatever its ids and edges are like, the walks end by themselves in time. -/
theorem Graph.boundsWalks (g : Graph) : g.BoundsWalks where
  flood := by
    rw [← Flood.measure_start]
    exact (Flood.hasVariant_round g).exists_endsAfter trivial
  pushedOnce := fun rounds =>
    ((Search.isStackWalk_round g).pushes_spec rounds (Search.inside_start g)).1
  search := by
    rw [← Search.roundsLeft_start]
    exact (Search.isStackWalk_round g).hasVariant.exists_endsAfter (Search.inside_start g)
  enteredOnce := Tour.entries_spec g
  tourByEntries := by
    obtain ⟨rounds, fits, ends⟩ :=
      (Tour.hasVariant_entering g).exists_endsAfter (s := Tour.start g) trivial
    exact ⟨rounds, fits.trans (unentered_le _ _), ends⟩
  tour := by
    obtain ⟨rounds, fits, ends⟩ :=
      (Tour.isStackWalk_round g).hasVariant.exists_endsAfter (s := Tour.start g) trivial
    exact ⟨rounds, fits.trans (Tour.roundsLeft_start g), ends⟩

/-- With two parallel edges to an id that leads nowhere on, the walk along all edges and the search
take as many rounds as they can. -/
example :
    let g : Graph := {
      nodes := [
        { id := "a", kind := .input, title := "Ask" },
        { id := "b", kind := .output, title := "Tell" }]
      edges := [{ source := "a", target := "b" }, { source := "a", target := "b" }] }
    Loop.cutOff (Flood.round g) 2 (Flood.start g) = none ∧
      Loop.cutOff (Flood.round g) 3 (Flood.start g) = some ⟨[], ["b", "a"]⟩ ∧
      Loop.cutOff (Search.round g) 3 (Search.start g) = none ∧
      Loop.cutOff (Search.round g) 4 (Search.start g) = some [] := by
  decide +kernel

end Flowchart
