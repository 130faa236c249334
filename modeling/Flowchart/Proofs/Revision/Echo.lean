import Flowchart.Proofs.Outline.RoundTrip
import Flowchart.Proofs.Outline.Unwrapped
import Flowchart.Revision

/-!
# Answers that repeat a flow

A model that is asked to change or to correct a flow, and answers with the outline of the flow as it
is, changes nothing: the same outline is read again, and the new graph says what the old one said.
The outline may be all of the answer, or stand in a block among other words.
-/

set_option autoImplicit false

namespace Flowchart

namespace Revision

/-- The answers that repeat an outline. A block may have words behind its opening marks, and words
without a backtick around it. -/
inductive Echo (outline : String) : String → Prop
  | bare : Echo outline outline
  | block {before words after : String} (quietBefore : '\x60' ∉ before.toList)
      (oneLine : '\n' ∉ words.toList) (quietAfter : '\x60' ∉ after.toList) :
      Echo outline
        (before ++ "\x60\x60\x60" ++ words ++ "\n" ++ outline ++ "\n\x60\x60\x60" ++ after)

/-- An outline is taken out of the answers that repeat it. -/
theorem unwrap_echo {g : Graph} (legible : ∀ sig ∈ Outline.signature g, sig.Legible)
    (steps : Outline.signature g ≠ []) {answer : String} (echo : Echo (Outline.write g) answer) :
    Fence.unwrap answer = Outline.write g := by
  rw [Fence.unwrap, ← String.toList_inj, String.toList_ofList]
  cases echo with
  | bare => exact Outline.unwrapChars_write legible steps
  | @block before words after quietBefore oneLine quietAfter =>
    rw [Fence.toList_block]
    exact Outline.unwrapChars_block_write legible steps quietBefore oneLine quietAfter

/-- What was read from the outline of a flow with its title and description. -/
structure Repeats (g : Graph) (r : Revision) : Prop where
  outline : r.outline = Outline.write g
  signature : Outline.signature r.graph = Outline.signature g
  title : r.graph.title = if g.title = "" then untitled else g.title
  description : r.graph.description = g.description

/-- Reading an answer that repeats a flow repeats the flow. -/
theorem receive_echo {g : Graph} (legible : ∀ sig ∈ Outline.signature g, sig.Legible)
    (steps : Outline.signature g ≠ []) {answer : String} (echo : Echo (Outline.write g) answer)
    (mode : Outline.Mode) :
    ∃ r, Repeats g r ∧ receive mode (some g.title) g.description answer = .ok r := by
  obtain ⟨reading, isRead, same⟩ :=
    Outline.signature_read_write mode (some g.title) g.description legible
  refine ⟨⟨Outline.write g, reading⟩, ⟨rfl, same, ?_, ?_⟩, ?_⟩
  · obtain ⟨s, -, rfl⟩ := Outline.read_eq_ok_iff.1 isRead
    by_cases untitledToo : g.title = ""
    · simp [graph, Outline.readingOf, untitledToo, Option.filter]
    · simp [graph, Outline.readingOf, untitledToo, Option.filter]
  · obtain ⟨s, -, rfl⟩ := Outline.read_eq_ok_iff.1 isRead
    rfl
  · rw [receive, ofAnswer, unwrap_echo legible steps echo, ofOutline, isRead]
    rfl

/-- A refinement keeps the title and the description of the flow. -/
theorem receive_refine (mode : Outline.Mode) (history : List Chat.Message) (g : Graph)
    (wish : String) :
    (refine mode history g wish).receive = receive mode (some g.title) g.description := by
  rw [Revision.refine]

/-- So does a correction. -/
theorem receive_correct (mode : Outline.Mode) (temperature : Json) (g : Graph) :
    (correct mode temperature g).receive = receive mode (some g.title) g.description := by
  rw [Revision.correct]

/-- A model that repeats a flow leaves it as it is, whether it was asked to change the flow or to
correct it, and whatever it was told. -/
theorem repeats_of_echo {g : Graph} (valid : g.HasTitles) (steps : g.steps ≠ [])
    (writable : ∀ n ∈ g.steps, Outline.Writable n) {answer : String}
    (echo : Echo (Outline.write g) answer) (mode : Outline.Mode) :
    ∃ r, Repeats g r ∧
      (∀ history wish model, model (refine mode history g wish).request = .ok answer →
        (refine mode history g wish).ask model = .ok r) ∧
      ∀ temperature model, model (correct mode temperature g).request = .ok answer →
        (correct mode temperature g).ask model = .ok r := by
  have legible := (Outline.legible_signature_iff valid).2 writable
  have stepsShown : Outline.signature g ≠ [] := by
    intro none
    exact steps (List.map_eq_nil_iff.1 none)
  obtain ⟨r, repeated, received⟩ := receive_echo legible stepsShown echo mode
  refine ⟨r, repeated, ?_, ?_⟩
  · intro history wish model answered
    rw [Chat.Exchange.ask, answered, Chat.Exchange.settle, receive_refine, received]
  · intro temperature model answered
    rw [Chat.Exchange.ask, answered, Chat.Exchange.settle, receive_correct, received]

/-- A flow with marks in the title of a step and at the end of a description. -/
def quotingGraph : Graph where
  nodes := [
    { id := "a", kind := .process, title := "\x60\x60\x60 Quote",
      description := some "in \x60\x60\x60" },
    { id := "b", kind := .output, title := "Done" }]
  edges := [{ source := "a", target := "b" }]

/-- An answer with the outline of that flow in a block. -/
def quotingAnswer : String :=
  "Here it is: \x60\x60\x60text\n" ++ Outline.write quotingGraph ++
    "\n\x60\x60\x60\nNothing to change."

/-- This flow comes back unchanged from a model that repeats it in a block, marks and all. -/
theorem repeats_of_echo_quotingGraph :
    quotingGraph.HasTitles ∧ quotingGraph.steps ≠ [] ∧
      (∀ n ∈ quotingGraph.steps, Outline.Writable n) ∧
      Echo (Outline.write quotingGraph) quotingAnswer ∧
      ∃ r, Repeats quotingGraph r ∧
        (∀ history wish model,
          model (refine {} history quotingGraph wish).request = .ok quotingAnswer →
          (refine {} history quotingGraph wish).ask model = .ok r) ∧
        ∀ temperature model,
          model (correct {} temperature quotingGraph).request = .ok quotingAnswer →
          (correct {} temperature quotingGraph).ask model = .ok r := by
  have valid : quotingGraph.HasTitles := by
    unfold Graph.HasTitles isTitle
    decide
  have steps : quotingGraph.steps ≠ [] := by decide
  have writable : ∀ n ∈ quotingGraph.steps, Outline.Writable n := by
    have titles : ∀ n ∈ quotingGraph.steps,
        (n.title.toList.all fun c => c != '|' && !Text.isLineBreak c) = true := by
      decide
    have descriptions : ∀ n ∈ quotingGraph.steps,
        ∀ d ∈ n.distinctDescription?, Text.trimmed d = d ∧ Text.OneLine d := by
      decide
    intro n mem
    refine ⟨?_, descriptions n mem⟩
    intro c inTitle
    simpa using List.all_eq_true.1 (titles n mem) c inTitle
  have echo : Echo (Outline.write quotingGraph) quotingAnswer := by
    have answer : quotingAnswer = "Here it is: " ++ "\x60\x60\x60" ++ "text" ++ "\n" ++
        Outline.write quotingGraph ++ "\n\x60\x60\x60" ++ "\nNothing to change." := by
      decide +kernel
    rw [answer]
    exact .block (by decide) (by decide) (by decide)
  exact ⟨valid, steps, writable, echo, repeats_of_echo valid steps writable echo {}⟩

end Revision

end Flowchart
