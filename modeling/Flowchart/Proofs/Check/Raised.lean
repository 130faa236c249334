import Flowchart.Check.Battery

/-!
# What a report can hold

Every issue of a report was raised by one of the checks, and says what that check has seen; and what
a check can raise is in the report. `Raised` has one case for each kind of finding, so that a fact
about all issues is proved finding by finding and no check has to be opened for it again.
-/

set_option autoImplicit false

namespace Flowchart.Check

/-- An issue that a check of a graph can raise. -/
inductive Raised (g : Graph) : Issue → Prop
  | noOutput (absent : ∀ n ∈ g.steps, n.kind ≠ .output) : Raised g { finding := .noOutput }
  | missingBranches {d : Node} (step : d ∈ g.steps) (decision : d.kind = .decision)
      (lacks : lacking g d ≠ []) :
      Raised g { finding := .missingBranches d.question (lacking g d), node := some d.id }
  | danglingBranch {d : Node} {b : Branch} {x : Edge} (step : d ∈ g.steps)
      (decision : d.kind = .decision) (edge : g.branchEdge? d.id b = some x)
      (lost : x.target ∉ g.ids) :
      Raised g { finding := .danglingBranch d.question b x.target, node := some d.id }
  | isolated {n : Node} (step : n ∈ g.steps) (alone : n.id ∉ connectedIds g) :
      Raised g { finding := .isolated (nameOf n), node := some n.id }
  | deadEnd {n : Node} (step : n ∈ g.steps) (inner : n.kind ≠ .output)
      (ends : ∀ x ∈ g.stepEdges, x.source ≠ n.id) :
      Raised g { finding := .deadEnd (nameOf n), node := some n.id }
  | noInput (absent : ∀ n ∈ g.steps, n.kind ≠ .input) : Raised g { finding := .noInput }
  | unreachable {id : String} {n : Node} (left : id ∈ g.unreachable)
      (found : g.lastNode? id = some n) :
      Raised g { finding := .unreachable (nameOf n), node := some id }
  | loop {id : String} {rest : List String} (cycle : g.findCycle = id :: rest) :
      Raised g {
        finding := .loop ((id :: rest).map fun id => ((g.lastNode? id).map (·.title)).getD id)
        node := some id }

/-- Whether only a deep check looks for a finding. -/
def Finding.isDeep : Finding → Bool
  | .unreachable _ | .loop _ => true
  | _ => false

variable {g : Graph} {i : Issue}

/-! ## One check at a time -/

/-- A check that holds back its one issue if all is well. -/
theorem mem_unless_iff {fine : Bool} {issue : Issue} :
    i ∈ (if fine then [] else [issue]) ↔ fine = false ∧ i = issue := by
  cases fine <;> simp

/-- The check for an output raises its issue where no step is an output. -/
theorem mem_outputExists_iff :
    i ∈ outputExists g ↔ (∀ n ∈ g.steps, n.kind ≠ .output) ∧ i = { finding := .noOutput } := by
  rw [outputExists, mem_unless_iff]
  simp

/-- The check for an input raises its issue where no step is an input. -/
theorem mem_inputExists_iff :
    i ∈ inputExists g ↔ (∀ n ∈ g.steps, n.kind ≠ .input) ∧ i = { finding := .noInput } := by
  rw [inputExists, mem_unless_iff]
  simp

/-- A branch dangles if its first edge leads to no node. -/
theorem danglingIssue?_eq_some_iff {d : Node} {b : Branch} :
    danglingIssue? g d b = some i ↔ ∃ x, g.branchEdge? d.id b = some x ∧ x.target ∉ g.ids ∧
      i = ⟨.danglingBranch d.question b x.target, some d.id⟩ := by
  unfold danglingIssue?
  cases g.branchEdge? d.id b with
  | none => simp
  | some x => by_cases known : x.target ∈ g.ids <;> simp [known, eq_comm]

/-- A decision is at issue for the branches that it lacks, together, and for each branch that
dangles. -/
theorem mem_decisionIssues_iff {d : Node} :
    i ∈ decisionIssues g d ↔
      (lacking g d ≠ [] ∧ i = ⟨.missingBranches d.question (lacking g d), some d.id⟩) ∨
        ∃ b x, g.branchEdge? d.id b = some x ∧ x.target ∉ g.ids ∧
          i = ⟨.danglingBranch d.question b x.target, some d.id⟩ := by
  simp only [decisionIssues, List.mem_append, mem_unless_iff, List.mem_filterMap]
  apply or_congr
  · simp
  · constructor
    · rintro ⟨b, -, issue⟩
      exact ⟨b, danglingIssue?_eq_some_iff.1 issue⟩
    · rintro ⟨b, issue⟩
      exact ⟨b, by cases b <;> decide, danglingIssue?_eq_some_iff.2 issue⟩

/-- The check of the branches raises the issues of all decisions. -/
theorem mem_decisionsBranch_iff :
    i ∈ decisionsBranch g ↔ ∃ d ∈ g.steps, d.kind = .decision ∧ i ∈ decisionIssues g d := by
  simp [decisionsBranch, and_assoc]

/-- A step is isolated if no edge between steps touches it. -/
theorem mem_noneIsolated_iff :
    i ∈ noneIsolated g ↔
      ∃ n ∈ g.steps, n.id ∉ connectedIds g ∧ i = ⟨.isolated (nameOf n), some n.id⟩ := by
  simp [noneIsolated, and_assoc, @eq_comm _ i]

/-- A step is a dead end if it is no output and no edge between steps leaves it. -/
theorem mem_noneDeadEnd_iff :
    i ∈ noneDeadEnd g ↔ ∃ n ∈ g.steps, n.kind ≠ .output ∧ (∀ x ∈ g.stepEdges, x.source ≠ n.id) ∧
      i = ⟨.deadEnd (nameOf n), some n.id⟩ := by
  simp [noneDeadEnd, and_assoc, @eq_comm _ i]

/-- A step is reported as out of reach if no walk from the start nodes finds it. -/
theorem mem_allReachable_iff :
    i ∈ allReachable g ↔ ∃ id ∈ g.unreachable, ∃ n, g.lastNode? id = some n ∧
      i = ⟨.unreachable (nameOf n), some id⟩ := by
  simp [allReachable, @eq_comm _ i]

/-- A loop is reported with the names of the ids of the cycle that was found, at the first of them.
-/
theorem mem_noLoop_iff :
    i ∈ noLoop g ↔ ∃ id rest, g.findCycle = id :: rest ∧
      i = ⟨.loop ((id :: rest).map fun id => ((g.lastNode? id).map (·.title)).getD id),
        some id⟩ := by
  unfold noLoop
  split
  · rename_i none
    simp [none]
  · rename_i id rest cycle
    rw [List.mem_singleton]
    constructor
    · rintro rfl
      exact ⟨id, rest, cycle, rfl⟩
    · rintro ⟨first, others, same, rfl⟩
      obtain ⟨rfl, rfl⟩ := List.cons.inj (cycle.symm.trans same)
      rfl

/-! ## All checks -/

/-- The checks that are always made raise the findings that are not deep. -/
theorem mem_basic_iff : i ∈ basic g ↔ Raised g i ∧ i.finding.isDeep = false := by
  simp only [basic, List.mem_append, mem_outputExists_iff, mem_decisionsBranch_iff,
    mem_decisionIssues_iff, mem_noneIsolated_iff, mem_noneDeadEnd_iff, mem_inputExists_iff]
  constructor
  · rintro ((((output | branches) | isolated) | deadEnd) | input)
    · obtain ⟨absent, rfl⟩ := output
      exact ⟨.noOutput absent, rfl⟩
    · obtain ⟨d, step, decision, ⟨lacks, rfl⟩ | ⟨b, x, edge, lost, rfl⟩⟩ := branches
      · exact ⟨.missingBranches step decision lacks, rfl⟩
      · exact ⟨.danglingBranch step decision edge lost, rfl⟩
    · obtain ⟨n, step, alone, rfl⟩ := isolated
      exact ⟨.isolated step alone, rfl⟩
    · obtain ⟨n, step, inner, ends, rfl⟩ := deadEnd
      exact ⟨.deadEnd step inner ends, rfl⟩
    · obtain ⟨absent, rfl⟩ := input
      exact ⟨.noInput absent, rfl⟩
  · rintro ⟨raised, shallow⟩
    cases raised with
    | noOutput absent => exact .inl (.inl (.inl (.inl ⟨absent, rfl⟩)))
    | @missingBranches d step decision lacks =>
      exact .inl (.inl (.inl (.inr ⟨d, step, decision, .inl ⟨lacks, rfl⟩⟩)))
    | @danglingBranch d b x step decision edge lost =>
      exact .inl (.inl (.inl (.inr ⟨d, step, decision, .inr ⟨b, x, edge, lost, rfl⟩⟩)))
    | @isolated n step alone => exact .inl (.inl (.inr ⟨n, step, alone, rfl⟩))
    | @deadEnd n step inner ends => exact .inl (.inr ⟨n, step, inner, ends, rfl⟩)
    | noInput absent => exact .inr ⟨absent, rfl⟩
    | unreachable => simp [Finding.isDeep] at shallow
    | loop => simp [Finding.isDeep] at shallow

/-- The other two raise the deep ones. -/
theorem mem_deep_iff :
    i ∈ allReachable g ++ noLoop g ↔ Raised g i ∧ i.finding.isDeep = true := by
  rw [List.mem_append, mem_allReachable_iff, mem_noLoop_iff]
  constructor
  · rintro (⟨id, left, n, found, rfl⟩ | ⟨id, rest, cycle, rfl⟩)
    · exact ⟨.unreachable left found, rfl⟩
    · exact ⟨.loop cycle, rfl⟩
  · rintro ⟨raised, deeper⟩
    cases raised with
    | @unreachable id n left found => exact .inl ⟨id, left, n, found, rfl⟩
    | @loop id rest cycle => exact .inr ⟨id, rest, cycle, rfl⟩
    | _ => simp [Finding.isDeep] at deeper

/-- A report holds what the checks can raise, and what the deep ones raise only if they were asked
for. -/
theorem mem_report_iff {deep : Bool} :
    i ∈ (report g deep).issues ↔ Raised g i ∧ (i.finding.isDeep = true → deep = true) := by
  have parts : i ∈ (report g deep).issues ↔
      i ∈ basic g ∨ deep = true ∧ i ∈ allReachable g ++ noLoop g := by
    cases deep <;> simp [report]
  rw [parts, mem_basic_iff, mem_deep_iff]
  cases depth : i.finding.isDeep with
  | false => simp
  | true => simp [and_comm]

/-- Where all edges lead to nodes, no branch is found dangling. -/
theorem code_ne_of_closed (closed : ∀ x ∈ g.edges, x.target ∈ g.ids) {deep : Bool}
    (mem : i ∈ (report g deep).issues) : i.code ≠ "DANGLING_BRANCH" := by
  cases (mem_report_iff.1 mem).1 with
  | danglingBranch _ _ edge lost => exact absurd (closed _ (List.mem_of_find?_eq_some edge)) lost
  | _ => simp [Issue.code, Finding.code]

end Flowchart.Check
