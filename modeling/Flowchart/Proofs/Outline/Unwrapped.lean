import Flowchart.Proofs.Fence.Block
import Flowchart.Proofs.Outline.Written

/-!
# Outlines inside an answer

An outline comes out of an answer as it went in, whatever the titles in it are. Its lines start with
a keyword or with blanks and never with a backtick, so no fence begins in it; it starts with a
keyword and ends in a title or a description, so there is nothing to trim.
-/

set_option autoImplicit false

namespace Flowchart.Outline

namespace StepSignature

/-- A keyword starts with neither a blank nor a backtick. -/
theorem exists_keyword_eq (kind : NodeKind) :
    ∃ c rest, kind.keyword.toList = c :: rest ∧ Text.isBlank c = false ∧ c ≠ '\x60' := by
  cases kind <;> exact ⟨_, _, rfl, by decide, by decide⟩

/-- No line about a step starts with a backtick. -/
theorem not_backtick_of_mem_lines {s : StepSignature} {line : String} (mem : line ∈ s.lines) :
    ∃ c rest, line.toList = c :: rest ∧ c ≠ '\x60' := by
  rcases List.mem_cons.1 mem with rfl | isBranch
  · obtain ⟨c, rest, keyword, -, other⟩ := exists_keyword_eq s.kind
    exact ⟨c, _, by rw [toList_step, keyword]; rfl, other⟩
  · obtain ⟨b, -, shown⟩ := List.mem_filterMap.1 isBranch
    obtain ⟨target, -, rfl⟩ := Option.map_eq_some_iff.1 shown
    exact ⟨' ', (" " ++ b.keyword ++ " -> " ++ target).toList, by simp [branchLine], by decide⟩

/-- The lines about a step end in a title or a description. -/
theorem Legible.isBlank_getLast {s : StepSignature} (h : s.Legible) {line : String}
    (mem : line ∈ s.lines) : ∀ c ∈ line.toList.getLast?, Text.isBlank c = false := by
  rcases List.mem_cons.1 mem with rfl | isBranch
  · have trimmed := (trim_step h.kind h.label).trans (toList_step s.kind s.label).symm
    exact (Text.trim_eq_self_iff.1 trimmed).2
  · obtain ⟨b, -, shown⟩ := List.mem_filterMap.1 isBranch
    obtain ⟨target, leads, rfl⟩ := Option.map_eq_some_iff.1 shown
    obtain ⟨given, -⟩ := Option.filter_eq_some_iff.1 leads
    obtain ⟨titled, -⟩ := h.target b target given
    obtain ⟨-, last⟩ := Text.trim_eq_self_iff.1 titled.trim_toList
    rw [branchLine, String.toList_append, List.getLast?_append_of_ne_nil _ titled.toList_ne_nil]
    exact last

end StepSignature

variable {g : Graph}

/-- The lines of an outline are the lines about its steps. -/
theorem mem_outlineLines_iff {line : String} :
    line ∈ outlineLines g ↔ ∃ sig ∈ signature g, line ∈ sig.lines := by
  rw [outlineLines_eq, List.mem_flatMap]

/-- No fence begins in the outline of a graph with a legible signature. -/
theorem unfenced_write (legible : ∀ sig ∈ signature g, sig.Legible) :
    Fence.Unfenced (write g).toList := by
  apply Fence.unfenced_unlines
  intro line mem
  obtain ⟨sig, inSignature, ofStep⟩ := mem_outlineLines_iff.1 mem
  obtain ⟨-, oneLine⟩ := (legible sig inSignature).ne_empty_and_oneLine ofStep
  refine ⟨?_, StepSignature.not_backtick_of_mem_lines ofStep⟩
  intro feed
  exact absurd (oneLine '\n' feed) (by decide)

/-- The outline of a flow with steps starts with a keyword. -/
theorem exists_write_eq (steps : signature g ≠ []) :
    ∃ c rest, (write g).toList = c :: rest ∧ Text.isBlank c = false ∧ c ≠ '\x60' := by
  obtain ⟨sig, others, cut⟩ := List.exists_cons_of_ne_nil steps
  obtain ⟨c, rest, keyword, visible, other⟩ := StepSignature.exists_keyword_eq sig.kind
  let line := sig.kind.keyword ++ ": " ++ sig.label.shown
  have chars : line.toList = c :: (rest ++ ':' :: ' ' :: sig.label.shown.toList) := by
    rw [toList_step, keyword]
    rfl
  obtain ⟨more, linesOf⟩ : ∃ more, outlineLines g = line :: more := by
    rw [outlineLines_eq, cut]
    exact ⟨_, rfl⟩
  have first : (write g).toList.head? = some c := by
    rw [write, linesOf, Text.head?_unlines (by simp [← String.toList_inj, chars]), chars]
    rfl
  obtain ⟨tail, whole⟩ := List.head?_eq_some_iff.1 first
  exact ⟨c, tail, whole, visible, other⟩

/-- The outline of a flow with steps is trimmed. -/
theorem trim_write (legible : ∀ sig ∈ signature g, sig.Legible) (steps : signature g ≠ []) :
    Text.trim (write g).toList = (write g).toList := by
  obtain ⟨c, rest, whole, visible, -⟩ := exists_write_eq steps
  apply Text.trim_unlines
  · rw [← write, whole]
    simpa using visible
  · intro line mem
    obtain ⟨sig, inSignature, ofStep⟩ := mem_outlineLines_iff.1 mem
    have lineLegible := legible sig inSignature
    exact ⟨(lineLegible.ne_empty_and_oneLine ofStep).1, lineLegible.isBlank_getLast ofStep⟩

/-- The outline of a graph with a step is not empty. -/
theorem write_ne_empty (steps : signature g ≠ []) : write g ≠ "" := by
  obtain ⟨c, rest, whole, -, -⟩ := exists_write_eq steps
  intro empty
  simp [empty] at whole

/-- An outline without any wrapping is taken as it is. -/
theorem unwrapChars_write (legible : ∀ sig ∈ signature g, sig.Legible) (steps : signature g ≠ []) :
    Fence.unwrapChars (write g).toList = (write g).toList := by
  obtain ⟨c, rest, whole, -, other⟩ := exists_write_eq steps
  have trimmed := trim_write legible steps
  rw [Fence.unwrapChars_of_unfenced, trimmed]
  · rw [trimmed, whole]
    simpa using other
  · rw [trimmed]
    exact unfenced_write legible

/-- An outline in a block is taken out of the words around the block. -/
theorem unwrapChars_block_write (legible : ∀ sig ∈ signature g, sig.Legible)
    (steps : signature g ≠ []) {before words after : List Char} (quietBefore : '\x60' ∉ before)
    (oneLine : '\n' ∉ words) (quietAfter : '\x60' ∉ after) :
    Fence.unwrapChars (before ++ Fence.block words (write g).toList ++ after) =
      (write g).toList := by
  have nonempty : (write g).toList ≠ [] := by simpa using write_ne_empty steps
  rw [Fence.unwrapChars_block quietBefore oneLine nonempty (unfenced_write legible) quietAfter]
  exact trim_write legible steps

end Flowchart.Outline
