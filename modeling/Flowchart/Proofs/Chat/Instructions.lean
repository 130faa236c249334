import Flowchart.Chat.Instructions
import Flowchart.Proofs.Outline.RoundTrip
import Flowchart.Proofs.Outline.Unwrapped
import Flowchart.Proofs.Text.Words

/-!
# Outlines in instructions

The instructions for changing and for correcting an outline quote it in a fenced block, as it is.
What the block holds is taken out of the instructions again: no backtick stands before the block, no
line of an outline starts with one, and of several blocks the first one counts, so the example that
shows the rules at work is never taken for the outline.
-/

set_option autoImplicit false

namespace Flowchart.Chat

/-! ## Quoted texts -/

/-- A text that is fenced below a heading stands in a block of its own, with words before it and
behind it. -/
theorem sections_fencedBelow (before : List String) (heading text next : String)
    (rest : List String) :
    sections (before ++ fencedBelow heading text :: next :: rest) =
      (sections (before ++ [heading]) ++ "\n") ++ "\x60\x60\x60" ++ "" ++ "\n" ++ text ++
        "\n\x60\x60\x60" ++ ("\n\n" ++ sections (next :: rest)) := by
  have split : before ++ fencedBelow heading text :: next :: rest =
      (before ++ [fencedBelow heading text]) ++ next :: rest := by simp
  have below : fencedBelow heading text =
      heading ++ ("\n" ++ "\x60\x60\x60" ++ "\n" ++ text ++ "\n\x60\x60\x60") := by
    simp [fencedBelow, ← String.toList_inj]
  unfold sections
  rw [split, String.intercalate_append_of_ne_nil (by simp) (by simp), below,
    Text.intercalate_concat_append]
  simp only [String.append_assoc, String.empty_append]

/-- Sections that are set among others can be taken for sections of the whole. -/
theorem sections_sections {first : String} {inner after : List String} (hasInner : inner ≠ [])
    (hasAfter : after ≠ []) :
    sections (first :: sections inner :: after) = sections (first :: (inner ++ after)) :=
  Text.intercalate_intercalate (List.cons_ne_nil first []) hasInner hasAfter

/-- A fixed text has no backtick in it if its characters say so. -/
theorem quiet_ofList {cs : List Char} (quiet : '\x60' ∉ cs) :
    '\x60' ∉ (String.ofList cs).toList := by
  rwa [String.toList_ofList]

/-- No character but a line feed comes between sections. -/
theorem quiet_sections {texts : List String} (quiet : ∀ text ∈ texts, '\x60' ∉ text.toList) :
    '\x60' ∉ (sections texts).toList := by
  intro mem
  rcases Text.mem_toList_intercalate mem with between | ⟨text, known, inside⟩
  · exact absurd between (by decide)
  · exact quiet text known inside

/-- A text is taken out of the sections that quote it. -/
theorem unwrap_sections (before : List String) {heading text next : String} {rest : List String}
    (quiet : ∀ text ∈ before ++ [heading], '\x60' ∉ text.toList)
    (visible : Text.allBlank heading = false) (nonempty : text ≠ "")
    (unfenced : Fence.Unfenced text.toList) :
    Fence.unwrap (sections (before ++ fencedBelow heading text :: next :: rest)) =
      Text.trimmed text := by
  rw [sections_fencedBelow]
  apply Fence.unwrap_block_within _ _ (by decide) nonempty unfenced
  · exact Fence.clear_of_quiet (by simpa using quiet_sections quiet)
  · have last : sections (before ++ [heading]) = sections (before ++ [""]) ++ heading := by
      rw [sections, sections, ← Text.intercalate_concat_append, String.empty_append]
    rw [Text.allBlank] at visible ⊢
    rw [last, String.toList_append, String.toList_append, List.all_append, List.all_append, visible,
      Bool.and_false, Bool.false_and]

/-- The first block in the instructions for a correction is the text to be corrected. -/
theorem unwrap_correctionInstructions {text : String} (nonempty : text ≠ "")
    (unfenced : Fence.Unfenced text.toList) :
    Fence.unwrap (correctionInstructions text) = Text.trimmed text := by
  refine unwrap_sections [_] ?_ (by decide) nonempty unfenced
  simp only [List.cons_append, List.nil_append, List.forall_mem_cons, List.not_mem_nil,
    false_imp_iff, implies_true, and_true]
  and_intros <;> exact quiet_ofList (by decide)

/-- The first block in the instructions for writing a flow is the flow that is to be changed. -/
theorem unwrap_writingInstructions {text : String} (nonempty : text ≠ "")
    (unfenced : Fence.Unfenced text.toList) :
    Fence.unwrap (writingInstructions (some text)) = Text.trimmed text := by
  have given : (some text).filter (· != "") = some text :=
    Option.filter_some_pos (by simpa using nonempty)
  simp only [writingInstructions, outlineTask, given]
  rw [sections_sections (List.cons_ne_nil _ _) (List.cons_ne_nil _ _)]
  refine unwrap_sections [_, _] ?_ (by decide) nonempty unfenced
  simp only [List.cons_append, List.nil_append, List.forall_mem_cons, List.not_mem_nil,
    false_imp_iff, implies_true, and_true, String.toList_append, List.mem_append, not_or]
  and_intros <;> exact quiet_ofList (by decide)

/-! ## Quoted outlines -/

/-- An outline is taken out of the instructions for correcting it, and out of those for changing it,
as it went in. -/
theorem unwrap_instructions {g : Graph} (valid : g.HasTitles) (steps : g.steps ≠ [])
    (writable : ∀ n ∈ g.steps, Outline.Writable n) :
    Fence.unwrap (correctionInstructions (Outline.write g)) = Outline.write g ∧
      Fence.unwrap (writingInstructions (some (Outline.write g))) = Outline.write g := by
  have legible := (Outline.legible_signature_iff valid).2 writable
  have stepsShown : Outline.signature g ≠ [] := by simpa [Outline.signature] using steps
  have unfenced := Outline.unfenced_write legible
  have trimmed : Text.trimmed (Outline.write g) = Outline.write g :=
    Text.trimmed_eq_self_iff.2 (Outline.trim_write legible stepsShown)
  have nonempty : Outline.write g ≠ "" := Outline.write_ne_empty stepsShown
  constructor
  · rw [unwrap_correctionInstructions nonempty unfenced, trimmed]
  · rw [unwrap_writingInstructions nonempty unfenced, trimmed]

/-- A flow about fences: marks start a title that a branch leads to, and end a description. -/
def fenceGraph : Graph where
  nodes := [
    { id := "a", kind := .decision, title := "\x60a\x60 fenced?",
      description := some "in \x60\x60\x60" },
    { id := "b", kind := .output, title := "\x60\x60\x60 out" }]
  edges := [
    { source := "a", target := "b", branch := some .yes },
    { source := "a", target := "a", branch := some .no }]

/-- The outline of this flow is found in both, though its title holds backticks. -/
theorem unwrap_instructions_fenceGraph : fenceGraph.HasTitles ∧ fenceGraph.steps ≠ [] ∧
    (∀ n ∈ fenceGraph.steps, Outline.Writable n) ∧
      Fence.unwrap (correctionInstructions (Outline.write fenceGraph)) = Outline.write fenceGraph ∧
      Fence.unwrap (writingInstructions (some (Outline.write fenceGraph))) =
        Outline.write fenceGraph := by
  have valid : fenceGraph.HasTitles := by
    unfold Graph.HasTitles isTitle
    decide
  have steps : fenceGraph.steps ≠ [] := by decide
  have writable : ∀ n ∈ fenceGraph.steps, Outline.Writable n := by decide
  exact ⟨valid, steps, writable, unwrap_instructions valid steps writable⟩

end Flowchart.Chat
