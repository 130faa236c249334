import Mathlib.Data.Finset.Card

/-!
# Loops that are cut off

A loop may be given a number of rounds that it must not exceed. If it needs more, it comes to
nothing; otherwise it comes to its result, and giving it more rounds changes nothing. Where a number
goes down with every round, this number is enough.

A walk that keeps a stack has such a number. Every round puts a new id on the stack or takes one
off, so each id that there is stands for at most two rounds: one in which it is put on the stack,
and one in which it is taken off.
-/

set_option autoImplicit false

namespace Flowchart

/-- What a loop comes to from a state. -/
inductive Round (σ ρ : Type) where
  /-- The loop is over, and no further round is made. -/
  | done (result : ρ)
  /-- A round is made that leaves the loop. -/
  | last (result : ρ)
  /-- A round is made, and the loop goes on. -/
  | on (next : σ)

namespace Loop

variable {σ ρ : Type} {loop : σ → Round σ ρ} {s next : σ} {result : ρ}

/-- A loop that may make so many rounds and no more: its result, or nothing if it needs another
round. -/
def cutOff (loop : σ → Round σ ρ) : Nat → σ → Option ρ
  | 0, s =>
    match loop s with
    | .done result => some result
    | .last _ => none
    | .on _ => none
  | rounds + 1, s =>
    match loop s with
    | .done result => some result
    | .last result => some result
    | .on next => cutOff loop rounds next

/-- The loop ends by itself after exactly so many rounds: with fewer it comes to nothing, and with
these or any more to its result. -/
def EndsAfter (loop : σ → Round σ ρ) (rounds : Nat) (s : σ) (result : ρ) : Prop :=
  ∀ given, cutOff loop given s = if rounds ≤ given then some result else none

/-- A loop that is over ends after no rounds. -/
theorem endsAfter_of_done (ended : loop s = .done result) : EndsAfter loop 0 s result := by
  intro given
  cases given <;> simp [cutOff, ended]

/-- A loop whose next round leaves it ends after this round. -/
theorem endsAfter_of_last (ended : loop s = .last result) : EndsAfter loop 1 s result := by
  intro given
  cases given <;> simp [cutOff, ended]

/-- A loop that goes on after a round ends one round later than from there. -/
theorem endsAfter_of_on {rounds : Nat} (turn : loop s = .on next)
    (h : EndsAfter loop rounds next result) : EndsAfter loop (rounds + 1) s result := by
  intro given
  cases given with
  | zero => simp [cutOff, turn]
  | succ given => simpa [cutOff, turn] using h given

/-- A number goes down with every round of a loop, and a result is changed by none, in states with a
property that every round keeps. -/
def HasVariant (loop : σ → Round σ ρ) (kept : σ → Prop) (bound : σ → Nat) (result : σ → ρ) : Prop :=
  ∀ s, kept s →
    match loop s with
    | .done r => r = result s
    | .last r => r = result s ∧ 0 < bound s
    | .on next => kept next ∧ result next = result s ∧ bound next < bound s

/-- What goes down with every round bounds the number of rounds. -/
theorem HasVariant.exists_endsAfter {kept : σ → Prop} {bound : σ → Nat} {result : σ → ρ}
    (h : HasVariant loop kept bound result) (holds : kept s) :
    ∃ rounds ≤ bound s, EndsAfter loop rounds s (result s) := by
  -- The rounds are no data, so the induction is on the number that they lower.
  induction size : bound s using Nat.strong_induction_on generalizing s with
  | _ size ih =>
    subst size
    have follows := h s holds
    cases turn : loop s with
    | done r =>
      rw [turn] at follows
      exact ⟨0, Nat.zero_le _, endsAfter_of_done (follows ▸ turn)⟩
    | last r =>
      rw [turn] at follows
      obtain ⟨same, positive⟩ := follows
      exact ⟨1, positive, endsAfter_of_last (same ▸ turn)⟩
    | on next =>
      rw [turn] at follows
      obtain ⟨holdsNext, same, lower⟩ := follows
      obtain ⟨rounds, fits, ends⟩ := ih (bound next) lower holdsNext rfl
      rw [same] at ends
      exact ⟨rounds + 1, fits.trans_lt lower, endsAfter_of_on turn ends⟩

end Loop

/-! ## Walks that keep a stack -/

/-- The number of different ids that have not been entered. -/
def unentered (ids entered : List String) : Nat :=
  (ids.toFinset \ entered.toFinset).card

/-- There are at most as many ids left as there are ids. -/
theorem unentered_le (ids entered : List String) : unentered ids entered ≤ ids.toFinset.card :=
  Finset.card_le_card Finset.sdiff_subset

/-- Entering a new id leaves one id less. -/
theorem unentered_cons {ids entered : List String} {id : String} (known : id ∈ ids)
    (new : id ∉ entered) : unentered ids (id :: entered) + 1 = unentered ids entered := by
  unfold unentered
  rw [List.toFinset_cons, Finset.sdiff_insert]
  exact Finset.card_erase_add_one (by simp [known, new])

/-- Where a walk that keeps a stack stands: the ids that it has put on the stack so far, how many of
them it has not taken off yet, and the one at the top. -/
structure Standing where
  entered : List String
  depth : Nat
  top : Option String

namespace Standing

/-- What a round of such a walk can do. -/
inductive Step (ids : List String) : Standing → Standing → Prop
  /-- A new id is put on the stack. -/
  | push {id : String} {entered : List String} {depth : Nat} {top : Option String}
      (known : id ∈ ids) (new : id ∉ entered) :
      Step ids ⟨entered, depth, top⟩ ⟨id :: entered, depth + 1, some id⟩
  /-- The id at the top is taken off. -/
  | pop {entered : List String} {depth : Nat} {top below : Option String} :
      Step ids ⟨entered, depth + 1, top⟩ ⟨entered, depth, below⟩

/-- What a round puts on the stack: the id at the top, if the stack got deeper. -/
def pushed (before after : Standing) : List String :=
  if before.depth < after.depth then after.top.toList else []

/-- How many rounds there can still be: two for each id that was not entered, and one for each that
is on the stack. -/
def roundsLeft (ids : List String) (stand : Standing) : Nat :=
  2 * unentered ids stand.entered + stand.depth

/-- Every round leaves fewer rounds: one more id on the stack is one id less to enter. -/
theorem Step.roundsLeft_lt {ids : List String} {before after : Standing}
    (step : Step ids before after) : after.roundsLeft ids < before.roundsLeft ids := by
  cases step with
  | @push id entered depth top known new =>
    have fewer := unentered_cons known new
    simp only [roundsLeft]
    omega
  | pop =>
    simp only [roundsLeft]
    omega

end Standing

namespace Loop

variable {σ ρ : Type} {loop : σ → Round σ ρ} {kept : σ → Prop} {standing : σ → Standing}
  {ids : List String} {result : σ → ρ} {s : σ}

/-- The ids that a loop puts on its stack in its first rounds, in order. -/
def pushes (loop : σ → Round σ ρ) (standing : σ → Standing) : Nat → σ → List String
  | 0, _ => []
  | rounds + 1, s =>
    match loop s with
    | .done _ => []
    | .last _ => []
    | .on next => (standing s).pushed (standing next) ++ pushes loop standing rounds next

/-- A loop is a walk over some ids with a stack: every round after which it goes on puts a new id on
the stack or takes one off, and only while something is on the stack can a round leave the loop. -/
def IsStackWalk (loop : σ → Round σ ρ) (kept : σ → Prop) (standing : σ → Standing)
    (ids : List String) (result : σ → ρ) : Prop :=
  ∀ s, kept s →
    match loop s with
    | .done r => r = result s
    | .last r => r = result s ∧ 0 < (standing s).depth
    | .on next =>
      kept next ∧ result next = result s ∧ Standing.Step ids (standing s) (standing next)

/-- The rounds that are left go down with every round of a walk that keeps a stack. -/
theorem IsStackWalk.hasVariant (h : IsStackWalk loop kept standing ids result) :
    HasVariant loop kept (fun s => (standing s).roundsLeft ids) result := by
  intro s holds
  have follows := h s holds
  cases turn : loop s with
  | done r =>
    rw [turn] at follows
    exact follows
  | last r =>
    rw [turn] at follows
    exact ⟨follows.1, Nat.lt_of_lt_of_le follows.2 (Nat.le_add_left _ _)⟩
  | on next =>
    rw [turn] at follows
    exact ⟨follows.1, follows.2.1, follows.2.2.roundsLeft_lt⟩

/-- A walk with a stack puts no id on it twice, none that was entered before, and none but those it
is a walk over. -/
theorem IsStackWalk.pushes_spec (h : IsStackWalk loop kept standing ids result) (rounds : Nat)
    (holds : kept s) :
    (pushes loop standing rounds s).Nodup ∧
      (pushes loop standing rounds s).Disjoint (standing s).entered ∧
      pushes loop standing rounds s ⊆ ids := by
  induction rounds generalizing s with
  | zero => simp [pushes]
  | succ rounds ih =>
    have follows := h s holds
    cases turn : loop s with
    | done r => simp [pushes, turn]
    | last r => simp [pushes, turn]
    | on next =>
      rw [turn] at follows
      obtain ⟨holdsNext, -, step⟩ := follows
      obtain ⟨distinct, apart, within⟩ := ih holdsNext
      simp only [pushes, turn]
      -- The ids of the later rounds are apart from what was entered by then, and that has grown by
      -- the id of this round.
      generalize standing s = before at step ⊢
      generalize standing next = after at step apart ⊢
      cases step with
      | @push id entered depth top known new =>
        rw [List.disjoint_cons_right] at apart
        simp only [Standing.pushed, Nat.lt_succ_self, if_true, Option.toList_some,
          List.singleton_append]
        exact ⟨List.nodup_cons.2 ⟨apart.1, distinct⟩, List.disjoint_cons_left.2 ⟨new, apart.2⟩,
          List.cons_subset.2 ⟨known, within⟩⟩
      | pop =>
        simp only [Standing.pushed, Nat.not_lt.2 (Nat.le_succ _), if_false, List.nil_append]
        exact ⟨distinct, apart, within⟩

end Loop

end Flowchart
