import Flowchart.Proofs.Graph.Distinct
import Flowchart.Walk.Cycle
import Flowchart.Walk.Reach
import Flowchart.Walk.ReadingOrder
import Mathlib.Logic.Relation

/-!
# Runs, turn by turn

A walk comes to what it comes to after its next turn. For the search for a cycle and for the walk in
reading order, `Move` says what a turn can do, so that what every turn keeps is proved move by move.
-/

set_option autoImplicit false

namespace Flowchart

namespace Flood

/-- Where no turn is left, the walk stands where it ends. -/
theorem run_of_step_none {g : Graph} {f : Flood} (ended : f.step g = none) : f.run g = f := by
  rw [run]
  split
  · rfl
  · rename_i next turn
    exact absurd (ended.symm.trans turn) (by simp)

/-- The walk ends where it ends after its next turn. -/
theorem run_of_step_some {g : Graph} {f next : Flood} (turn : f.step g = some next) :
    f.run g = next.run g := by
  rw [run]
  split
  · rename_i ended
    exact absurd (ended.symm.trans turn) (by simp)
  · rename_i other again
    rw [Option.some.inj (turn.symm.trans again)]

end Flood

namespace Search

/-- A turn that finds a cycle settles the search. -/
theorem run_of_step_found {g : Graph} {s : Search} {cycle : List String}
    (turn : s.step g = .found cycle) : s.run g = cycle := by
  rw [run]
  split
  · rename_i other again
    exact (Turn.found.inj (turn.symm.trans again)).symm
  · rename_i ended
    exact absurd (turn.symm.trans ended) (by simp)
  · rename_i next again
    exact absurd (turn.symm.trans again) (by simp)

/-- A search with nothing left to look at finds no cycle. -/
theorem run_of_step_exhausted {g : Graph} {s : Search} (turn : s.step g = .exhausted) :
    s.run g = [] := by
  rw [run]
  split
  · rename_i cycle again
    exact absurd (turn.symm.trans again) (by simp)
  · rfl
  · rename_i next again
    exact absurd (turn.symm.trans again) (by simp)

/-- The search finds what it finds after its next turn. -/
theorem run_of_step_on {g : Graph} {s next : Search} (turn : s.step g = .on next) :
    s.run g = next.run g := by
  rw [run]
  split
  · rename_i cycle again
    exact absurd (turn.symm.trans again) (by simp)
  · rename_i ended
    exact absurd (turn.symm.trans ended) (by simp)
  · rename_i other again
    rw [Turn.on.inj (turn.symm.trans again)]

/-- What a turn after which the walk goes on can do. -/
inductive Move (g : Graph) : Search → Search → Prop
  /-- A start id that was visited before is not tried again. -/
  | skipStart {id : String} {starts visited : List String} (old : id ∈ visited) :
      Move g ⟨id :: starts, visited, []⟩ ⟨starts, visited, []⟩
  /-- A new start id begins a path. -/
  | takeStart {id : String} {starts visited : List String} (new : id ∉ visited) :
      Move g ⟨id :: starts, visited, []⟩ ⟨starts, id :: visited, [⟨id, g.targets id⟩]⟩
  /-- An id with nothing left to try leaves the path. -/
  | leave {id : String} {starts visited : List String} {outer : List PathEntry} :
      Move g ⟨starts, visited, ⟨id, []⟩ :: outer⟩ ⟨starts, visited, outer⟩
  /-- A target that was visited before, and is not on the path, is not tried again. -/
  | skip {id target : String} {starts visited untried : List String} {outer : List PathEntry}
      (off : target ∉ id :: outer.map (·.id)) (old : target ∈ visited) :
      Move g ⟨starts, visited, ⟨id, target :: untried⟩ :: outer⟩
        ⟨starts, visited, ⟨id, untried⟩ :: outer⟩
  /-- A new target is put at the end of the path. -/
  | descend {id target : String} {starts visited untried : List String} {outer : List PathEntry}
      (off : target ∉ id :: outer.map (·.id)) (new : target ∉ visited) :
      Move g ⟨starts, visited, ⟨id, target :: untried⟩ :: outer⟩
        ⟨starts, target :: visited, ⟨target, g.targets target⟩ :: ⟨id, untried⟩ :: outer⟩

/-- The ids on the path are those of the trail. -/
theorem mem_path_iff {id target : String} {starts visited untried : List String}
    {outer : List PathEntry} :
    target ∈ path ⟨starts, visited, ⟨id, untried⟩ :: outer⟩ ↔ target ∈ id :: outer.map (·.id) := by
  simp [path, or_comm]

/-- A turn after which the search goes on is one of the moves. -/
theorem move_of_step {g : Graph} {s next : Search} (turn : s.step g = .on next) :
    Move g s next := by
  obtain ⟨starts, visited, trail⟩ := s
  unfold step at turn
  split at turn
  · rename_i atStart
    obtain rfl := atStart
    split at turn
    · simp at turn
    · rename_i id rest given
      obtain rfl := given
      split at turn
      · rename_i old
        obtain rfl := Turn.on.inj turn
        exact .skipStart (by simpa using old)
      · rename_i new
        obtain rfl := Turn.on.inj turn
        exact .takeStart (by simpa using new)
  · rename_i id outer path
    obtain rfl := path
    obtain rfl := Turn.on.inj turn
    exact .leave
  · rename_i id target untried outer path
    obtain rfl := path
    split at turn
    · simp at turn
    · rename_i off
      have offPath : target ∉ id :: outer.map (·.id) := mt mem_path_iff.2 (by simpa using off)
      split at turn
      · rename_i old
        obtain rfl := Turn.on.inj turn
        exact .skip offPath (by simpa using old)
      · rename_i new
        obtain rfl := Turn.on.inj turn
        exact .descend offPath (by simpa using new)

/-- Every move is a turn after which the search goes on. -/
theorem step_of_move {g : Graph} {s next : Search} (move : Move g s next) :
    s.step g = .on next := by
  cases move with
  | skipStart old => simp [step, old]
  | takeStart new => simp [step, enter, new]
  | leave => rfl
  | skip off old => simp [step, mem_path_iff, off, old, -List.mem_cons]
  | descend off new => simp [step, enter, mem_path_iff, off, new, -List.mem_cons]

/-- A walk comes to what it comes to after some moves. -/
theorem run_of_moves {g : Graph} {s next : Search} (moves : Relation.ReflTransGen (Move g) s next) :
    s.run g = next.run g := by
  induction moves with
  | refl => rfl
  | tail _ move ih => rw [ih, run_of_step_on (step_of_move move)]

/-- A cycle is found where a target that is to be tried next is on the path. -/
theorem closing_of_step_found {g : Graph} {s : Search} {cycle : List String}
    (turn : s.step g = .found cycle) : ∃ id target untried outer,
      s.trail = ⟨id, target :: untried⟩ :: outer ∧ target ∈ s.path ∧ cycle = s.closing target := by
  unfold step at turn
  split at turn
  · split at turn
    · simp at turn
    · split at turn <;> simp at turn
  · simp at turn
  · rename_i id target untried outer trail
    split at turn
    · rename_i onPath
      exact ⟨id, target, untried, outer, trail, by simpa using onPath, (Turn.found.inj turn).symm⟩
    · split at turn <;> simp at turn

/-- Nothing is left to look at only when all start ids were tried and the path is empty. -/
theorem ended_of_step_exhausted {g : Graph} {s : Search} (turn : s.step g = .exhausted) :
    s.starts = [] ∧ s.trail = [] := by
  unfold step at turn
  split at turn
  · rename_i atStart
    split at turn
    · rename_i noStart
      exact ⟨noStart, atStart⟩
    · split at turn <;> simp at turn
  · simp at turn
  · split at turn
    · simp at turn
    · split at turn <;> simp at turn

end Search

namespace Tour

/-- Where no turn is left, the walk stands where it ends. -/
theorem run_of_step_none {g : Graph} {t : Tour} (ended : t.step g = none) : t.run g = t := by
  rw [run]
  split
  · rfl
  · rename_i next turn
    exact absurd (ended.symm.trans turn) (by simp)

/-- The walk ends where it ends after its next turn. -/
theorem run_of_step_some {g : Graph} {t next : Tour} (turn : t.step g = some next) :
    t.run g = next.run g := by
  rw [run]
  split
  · rename_i ended
    exact absurd (ended.symm.trans turn) (by simp)
  · rename_i other again
    rw [Option.some.inj (turn.symm.trans again)]

/-- What a turn can do. -/
inductive Move (g : Graph) : Tour → Tour → Prop
  /-- A node with nothing left to try leaves the path. -/
  | leave {entered : List String} {listed : List Node} {outer : List (List String)} :
      Move g ⟨entered, listed, [] :: outer⟩ ⟨entered, listed, outer⟩
  /-- A target that is no node, or that was entered before, is not tried. -/
  | skip {target : String} {untried entered : List String} {listed : List Node}
      {outer : List (List String)} (blocked : target ∉ g.ids ∨ target ∈ entered) :
      Move g ⟨entered, listed, (target :: untried) :: outer⟩ ⟨entered, listed, untried :: outer⟩
  /-- A new node is entered. -/
  | enter {n : Node} {untried entered : List String} {listed : List Node}
      {outer : List (List String)} (found : g.lastNode? n.id = some n) (new : n.id ∉ entered) :
      Move g ⟨entered, listed, (n.id :: untried) :: outer⟩
        (Tour.enter g ⟨entered, listed, (n.id :: untried) :: outer⟩ n.id n (untried :: outer))

/-- A turn is one of the moves. -/
theorem move_of_step {g : Graph} {t next : Tour} (turn : t.step g = some next) : Move g t next := by
  obtain ⟨entered, listed, trail⟩ := t
  unfold step at turn
  split at turn
  · simp at turn
  · rename_i outer path
    obtain rfl := path
    obtain rfl := Option.some.inj turn
    exact .leave
  · rename_i target untried outer path
    obtain rfl := path
    split at turn
    · rename_i unknown
      obtain rfl := Option.some.inj turn
      exact .skip (.inl (Graph.lastNode?_eq_none_iff.1 unknown))
    · rename_i n found
      obtain rfl := id_of_lastNode? found
      split at turn
      · rename_i old
        obtain rfl := Option.some.inj turn
        exact .skip (.inr (by simpa using old))
      · rename_i new
        obtain rfl := Option.some.inj turn
        exact .enter found (by simpa using new)

/-- Every move is a turn. -/
theorem step_of_move {g : Graph} {t next : Tour} (move : Move g t next) :
    t.step g = some next := by
  cases move with
  | leave => rfl
  | @skip target untried entered listed outer blocked =>
    cases found : g.lastNode? target with
    | none => simp [step, found]
    | some n =>
      have old : target ∈ entered := by
        refine blocked.resolve_left fun unknown => ?_
        rw [← Graph.lastNode?_eq_none_iff, found] at unknown
        simp at unknown
      simp [step, found, old]
  | enter found new => simp [step, found, new]

/-- Every move makes the number of turns that are left smaller. -/
theorem measure_lt_of_move {g : Graph} {t next : Tour} (move : Move g t next) :
    next.measure g < t.measure g :=
  measure_step_lt g (step_of_move move)

/-- A walk comes to what it comes to after some moves. -/
theorem run_of_moves {g : Graph} {t next : Tour} (moves : Relation.ReflTransGen (Move g) t next) :
    t.run g = next.run g := by
  induction moves with
  | refl => rfl
  | tail _ move ih => rw [ih, run_of_step_some (step_of_move move)]

/-- Moves never make the number of turns that are left larger. -/
theorem measure_le_of_moves {g : Graph} {t next : Tour}
    (moves : Relation.ReflTransGen (Move g) t next) : next.measure g ≤ t.measure g := by
  induction moves with
  | refl => exact le_refl _
  | tail _ move ih => exact (measure_lt_of_move move).le.trans ih

end Tour

end Flowchart
