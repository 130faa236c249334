import Flowchart.Proofs.Walk.Reach

/-!
# What is reached around barred ids

Paths of nodes that keep clear of some barred ids. Such a path may start at any of several ids, and
an id counts as reached only if it is itself a node and not barred. Two facts carry a walk that goes
into the depth. To pass through an id is to bar it and to start from where its edges lead as well.
And what some starts and some others reach is what the former reach, and what the latter reach
around that.
-/

set_option autoImplicit false

namespace Flowchart.Graph

/-- A path of edges leads to the id from one of the starts, all of it over nodes that are not
barred. -/
inductive ReachedAround (g : Graph) (barred starts : List String) : String → Prop
  | start {id : String} (isStart : id ∈ starts) (known : id ∈ g.ids) (free : id ∉ barred) :
      ReachedAround g barred starts id
  | onward {source target : String} (path : ReachedAround g barred starts source)
      (leads : g.Leads source target) (known : target ∈ g.ids) (free : target ∉ barred) :
      ReachedAround g barred starts target

variable {g : Graph} {barred others starts more : List String} {id target : String}

/-- What is reached around barred ids is not barred. -/
theorem ReachedAround.free (h : g.ReachedAround barred starts id) : id ∉ barred := by
  cases h <;> assumption

/-- More is reached from more starts and with less barred. -/
theorem ReachedAround.mono (h : g.ReachedAround barred starts id) (fewer : others ⊆ barred)
    (moreStarts : starts ⊆ more) : g.ReachedAround others more id := by
  induction h with
  | start isStart known free =>
    exact .start (moreStarts isStart) known fun bars => free (fewer bars)
  | onward _ leads known free ih => exact .onward ih leads known fun bars => free (fewer bars)

/-- Only which ids are barred counts. -/
theorem reachedAround_congr (same : ∀ other, other ∈ barred ↔ other ∈ others) :
    g.ReachedAround barred starts id ↔ g.ReachedAround others starts id :=
  ⟨fun h => h.mono (fun _ bars => (same _).2 bars) fun _ isStart => isStart,
    fun h => h.mono (fun _ bars => (same _).1 bars) fun _ isStart => isStart⟩

/-- Nothing is reached from no starts. -/
theorem not_reachedAround_nil : ¬ g.ReachedAround barred [] id := by
  intro h
  induction h with
  | start isStart => simp at isStart
  | onward _ _ _ _ ih => exact ih

/-- Nothing is reached from a start that is no node, or that is barred. -/
theorem reachedAround_cons_of_blocked (blocked : target ∉ g.ids ∨ target ∈ barred) :
    g.ReachedAround barred (target :: starts) id ↔ g.ReachedAround barred starts id := by
  constructor
  · intro h
    induction h with
    | @start id isStart known free =>
      have other : id ≠ target := by
        rintro rfl
        exact blocked.elim (fun unknown => unknown known) free
      exact .start ((List.mem_cons.1 isStart).resolve_left other) known free
    | onward _ leads known free ih => exact .onward ih leads known free
  · intro h
    exact h.mono (fun _ bars => bars) (List.subset_cons_self target starts)

/-- What is reached from a start, and from others, is that start, and what is reached around it from
where its edges lead, and from the others. -/
theorem reachedAround_cons_iff (isNode : target ∈ g.ids) (isFree : target ∉ barred)
    {onward : List String} (follows : ∀ other, other ∈ onward ↔ g.Leads target other) :
    g.ReachedAround barred (target :: starts) id ↔
      id = target ∨ g.ReachedAround (target :: barred) (onward ++ starts) id := by
  have first : g.ReachedAround barred (target :: starts) target :=
    .start List.mem_cons_self isNode isFree
  constructor
  · intro h
    -- A path that comes back to the target can be cut off there, and so it need not come back.
    induction h with
    | @start id isStart known free =>
      by_cases here : id = target
      · exact .inl here
      · have isOther : id ∈ starts := (List.mem_cons.1 isStart).resolve_left here
        exact .inr (.start (List.mem_append_right onward isOther) known (by simp [here, free]))
    | @onward source id _ leads known free ih =>
      by_cases here : id = target
      · exact .inl here
      · have around : id ∉ target :: barred := by simp [here, free]
        rcases ih with rfl | path
        · exact .inr (.start (List.mem_append_left starts ((follows id).2 leads)) known around)
        · exact .inr (.onward path leads known around)
  · rintro (rfl | h)
    · exact first
    · induction h with
      | @start id isStart known free =>
        have notBarred : id ∉ barred := fun bars => free (List.mem_cons_of_mem target bars)
        rcases List.mem_append.1 isStart with isOnward | isOther
        · exact .onward first ((follows id).1 isOnward) known notBarred
        · exact .start (List.mem_cons_of_mem target isOther) known notBarred
      | onward _ leads known free ih =>
        exact .onward ih leads known fun bars => free (List.mem_cons_of_mem target bars)

/-- What some starts and some others reach is what the former reach, and what the latter reach
around that. -/
theorem reachedAround_append_iff
    (bars : ∀ other, other ∈ others ↔ other ∈ barred ∨ g.ReachedAround barred starts other) :
    g.ReachedAround barred (starts ++ more) id ↔
      g.ReachedAround barred starts id ∨ g.ReachedAround others more id := by
  -- An id that the former do not reach is not barred for the latter.
  have free_of_missed {id : String} (free : id ∉ barred)
      (missed : ¬ g.ReachedAround barred starts id) : id ∉ others := by
    rw [bars]
    exact fun h => h.elim free missed
  constructor
  · intro h
    induction h with
    | @start id isStart known free =>
      by_cases found : g.ReachedAround barred starts id
      · exact .inl found
      · rcases List.mem_append.1 isStart with former | latter
        · exact .inl (.start former known free)
        · exact .inr (.start latter known (free_of_missed free found))
    | @onward source id _ leads known free ih =>
      by_cases found : g.ReachedAround barred starts id
      · exact .inl found
      · rcases ih with former | latter
        · exact .inl (.onward former leads known free)
        · exact .inr (.onward latter leads known (free_of_missed free found))
  · rintro (former | latter)
    · exact former.mono (fun _ bars => bars) (List.subset_append_left starts more)
    · exact latter.mono (fun other barredBefore => (bars other).2 (.inl barredBefore))
        (List.subset_append_right starts more)

end Flowchart.Graph
