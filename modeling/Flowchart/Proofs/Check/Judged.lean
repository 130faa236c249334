import Flowchart.Document.Graph
import Flowchart.Proofs.Check.Raised
import Flowchart.Proofs.Walk.Reach

/-!
# What the issues of a report are about

Anchors are not judged, and neither are ids that no node has: whatever a check finds is about a step
or about no node at all. The check for loops is the exception. It goes along all edges and blames
the id at which its walk has entered the loop, and nothing keeps that from being the id of an anchor
or of no node.
-/

set_option autoImplicit false

namespace Flowchart.Check

/-- The issue is about a step, unless it is about no node. -/
def AboutStep (g : Graph) (i : Issue) : Prop :=
  ∀ id ∈ i.node, ∃ n ∈ g.steps, n.id = id

/-- An issue that names a step is about a step. -/
theorem aboutStep_some {g : Graph} {finding : Finding} {n : Node} (step : n ∈ g.steps) :
    AboutStep g { finding, node := some n.id } := by
  intro id about
  exact ⟨n, step, Option.some.inj about⟩

/-- Every issue is about a step or about no node, except a loop, which is about the first id of the
cycle that was found. -/
theorem aboutStep_or_loop {g : Graph} {i : Issue} (raised : Raised g i) :
    i.code ≠ "CYCLE_DETECTED" ∧ AboutStep g i ∨
      i.code = "CYCLE_DETECTED" ∧ i.finding.isDeep = true ∧ i.node = g.findCycle.head? := by
  cases raised with
  | noOutput => exact .inl ⟨by decide, by simp [AboutStep]⟩
  | missingBranches step => exact .inl ⟨by simp [Issue.code, Finding.code], aboutStep_some step⟩
  | danglingBranch step => exact .inl ⟨by simp [Issue.code, Finding.code], aboutStep_some step⟩
  | isolated step => exact .inl ⟨by simp [Issue.code, Finding.code], aboutStep_some step⟩
  | deadEnd step => exact .inl ⟨by simp [Issue.code, Finding.code], aboutStep_some step⟩
  | noInput => exact .inl ⟨by decide, by simp [AboutStep]⟩
  | unreachable left =>
    obtain ⟨-, n, step, rfl⟩ := Graph.mem_unreachable_iff.1 left
    exact .inl ⟨by simp [Issue.code, Finding.code], aboutStep_some step⟩
  | loop cycle => exact .inr ⟨rfl, rfl, by rw [cycle]; rfl⟩

/-- All issues but a loop are about steps, and a loop is about one exactly if the walk that found it
entered it at a step. -/
theorem aboutStep_iff (g : Graph) (deep : Bool) :
    (∀ i ∈ (report g deep).issues, i.code ≠ "CYCLE_DETECTED" → AboutStep g i) ∧
      ((∀ i ∈ (report g deep).issues, AboutStep g i) ↔
        (deep = true → ∀ id ∈ g.findCycle.head?, ∃ n ∈ g.steps, n.id = id)) := by
  refine ⟨?_, ?_, ?_⟩
  · intro i mem other
    rcases aboutStep_or_loop (mem_report_iff.1 mem).1 with ⟨-, about⟩ | ⟨loop, -⟩
    · exact about
    · exact absurd loop other
  · intro about asked id entered
    obtain ⟨rest, cycle⟩ := List.head?_eq_some_iff.1 entered
    exact about _ (mem_report_iff.2 ⟨.loop cycle, fun _ => asked⟩) id rfl
  · intro entry i mem
    obtain ⟨raised, asked⟩ := mem_report_iff.1 mem
    rcases aboutStep_or_loop raised with ⟨-, about⟩ | ⟨-, deeper, node⟩
    · exact about
    · rw [AboutStep, node]
      exact entry (asked deeper)

/-- A flow that leads back to its start. -/
def againGraph : Graph where
  nodes := [
    { id := "start", kind := .start, title := "Start" },
    { id := "work", kind := .process, title := "Work" },
    { id := "done", kind := .output, title := "Done" }]
  edges := [
    { source := "start", target := "work" },
    { source := "work", target := "start" },
    { source := "work", target := "done" }]

/-- The loop is found from the start on, so the start is what the issue is about. -/
theorem report_againGraph : againGraph.HasTitles ∧
    ∃ i ∈ (report againGraph true).issues, i.node = some "start" ∧
      ∀ n ∈ againGraph.steps, n.id ≠ "start" := by
  refine ⟨?_, ⟨.loop ["Start", "Work", "Start"], some "start"⟩, ?_, rfl, ?_⟩
  · unfold Graph.HasTitles isTitle
    decide
  · decide +kernel
  · decide

end Flowchart.Check
