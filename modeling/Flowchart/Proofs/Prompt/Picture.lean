import Flowchart.Proofs.Diagram.Lines
import Flowchart.Proofs.Fence.FirstBlock
import Flowchart.Proofs.Prompt.Lines

/-!
# The diagram in a prompt

A prompt with a diagram quotes it in a fenced block. The texts of the graph stand above the block as
they are, with all their line feeds and backticks, but where none of them has a fence in it, the
lines made from them have none either: what a line puts next to a text is no backtick. A diagram has
no backtick at all. So the first block of the prompt is the diagram, from its first character to its
last.
-/

set_option autoImplicit false

namespace Flowchart.Prompt

open Fence (marks Clear clear_of_quiet clear_concat)

variable {g : Graph}

/-! ## Lines without marks -/

/-- No marks begin in the head of a step. -/
theorem clear_stepHead (unmarked : ∀ text ∈ g.texts, ¬ marks <:+: text.toList) {n : Node}
    (mem : n ∈ g.nodes) (number : Nat) : Clear ((stepHead number n).toList ++ ['\n']) := by
  obtain ⟨opening, line, -, quiet⟩ := exists_stepHead_eq number n
  have title : Clear (n.title.toList ++ ['\n']) :=
    clear_concat (unmarked _ (mem_texts_of_node mem (by simp))) (by decide)
  rw [line, String.toList_append, List.append_assoc]
  exact (clear_of_quiet quiet).append title

/-- No marks begin in a line beside the steps if none are in the texts of the graph. -/
theorem Aside.clear {line : String} (aside : Aside g line)
    (unmarked : ∀ text ∈ g.texts, ¬ marks <:+: text.toList) : Clear (line.toList ++ ['\n']) := by
  have feed : Clear ['\n'] := clear_of_quiet (by decide)
  cases aside with
  | fixed words =>
    rw [String.toList_ofList]
    exact (clear_of_quiet words.2.1).append feed
  | remark words _ own =>
    rw [String.toList_append, String.toList_ofList, List.append_assoc]
    exact (clear_of_quiet words.2.1).append (clear_concat (unmarked _ own) (by decide))
  | @branch b source target ownSource ownTarget =>
    -- Each of the two names is taken together with the quote that follows it.
    have parts : ("- **" ++ b.keyword ++ ":** \"" ++ source ++ "\" → \"" ++ target ++
        "\"").toList ++ ['\n'] = ("- **" ++ b.keyword ++ ":** \"").toList ++
          ((source.toList ++ ['\x22']) ++ (" → \"".toList ++
            ((target.toList ++ ['\x22']) ++ ['\n']))) := by
      simp
    have opening : Clear ("- **" ++ b.keyword ++ ":** \"").toList := by
      apply clear_of_quiet
      cases b <;> decide
    have arrow : Clear " → \"".toList := clear_of_quiet (by decide)
    have first : Clear (source.toList ++ ['\x22']) :=
      clear_concat (unmarked _ ownSource) (by decide)
    have second : Clear (target.toList ++ ['\x22']) :=
      clear_concat (unmarked _ ownTarget) (by decide)
    rw [parts]
    exact opening.append (first.append (arrow.append (second.append feed)))

/-- No marks begin in any line of the prompt. -/
theorem Line.clear {line : String} (isLine : Line g line)
    (unmarked : ∀ text ∈ g.texts, ¬ marks <:+: text.toList) : Clear (line.toList ++ ['\n']) := by
  cases isLine with
  | step number mem => exact clear_stepHead unmarked mem number
  | aside aside => exact aside.clear unmarked

/-! ## The lines above the diagram -/

/-- The lines of a prompt above its diagram. -/
def linesAbove (g : Graph) (o : Options) : List String :=
  roleLines o ++ overviewLines g ++ flowLines g ++ branchLines g ++ detailLines o ++
    instructionLines o ++ ["", "## DIAGRAM"]

/-- The lines above the diagram are lines of a prompt. -/
theorem line_linesAbove (o : Options) : ∀ line ∈ linesAbove g o, Line g line := by
  have ofAsides {lines : List String} (asides : ∀ line ∈ lines, Aside g line) :
      ∀ line ∈ lines, Line g line := fun line mem => .aside (asides line mem)
  have steps := line_numberedSteps (fun _ => Graph.mem_nodes_of_mem_inReadingOrder (g := g)) 1
  simp only [linesAbove, flowLines, List.forall_mem_append, List.forall_mem_cons,
    List.not_mem_nil, false_imp_iff, implies_true, and_true]
  exact ⟨⟨⟨⟨⟨⟨ofAsides (aside_roleLines o), ofAsides aside_overviewLines⟩,
    ⟨.aside (.fixed (by decide)), .aside (.fixed (by decide))⟩, steps⟩,
    ofAsides aside_branchLines⟩, ofAsides (aside_detailLines o)⟩,
    ofAsides (aside_instructionLines o)⟩, .aside (.fixed (by decide)), .aside (.fixed (by decide))⟩

/-- So no marks begin above the diagram. -/
theorem clear_linesAbove (unmarked : ∀ text ∈ g.texts, ¬ marks <:+: text.toList) (o : Options) :
    Clear ((Text.unlines (linesAbove g o)).toList ++ ['\n']) :=
  Fence.clear_unlines fun line mem => (line_linesAbove o line mem).clear unmarked

/-- What stands above the diagram is not blank. -/
theorem visible_linesAbove (g : Graph) (o : Options) (cs : List Char) :
    ((Text.unlines (linesAbove g o)).toList ++ cs).dropWhile Text.isBlank ≠ [] := by
  have first : (Text.unlines (linesAbove g o)).toList.head? = some 'Y' := by
    simp only [linesAbove, roleLines, List.cons_append]
    rw [Text.head?_unlines (by decide)]
    decide
  obtain ⟨rest, whole⟩ := List.head?_eq_some_iff.1 first
  have visible : Text.isBlank 'Y' = false := by decide
  rw [whole, List.cons_append, List.dropWhile_cons_of_neg (by simp [visible])]
  exact List.cons_ne_nil _ _

/-! ## Prompts with a diagram -/

/-- A prompt with a diagram is what stands above it, the diagram as a block, and the constraints. -/
theorem toList_render {o : Options} (picture : o.withDiagram = true) :
    (render g o).toList = (Text.unlines (linesAbove g o)).toList ++
      '\n' :: Fence.block "mermaid".toList (Diagram.render g Diagram.topDown).toList ++
        '\n' :: (Text.unlines constraintLines).toList := by
  have split : parts g o = linesAbove g o ++
      "\x60\x60\x60mermaid" :: Diagram.render g Diagram.topDown :: "\x60\x60\x60" ::
        constraintLines := by
    simp [parts, linesAbove, diagramLines, picture]
  have above : linesAbove g o ≠ [] := by simp [linesAbove]
  rw [render, split, Text.unlines_append above (List.cons_ne_nil _ _)]
  simp [Text.unlines_cons_cons, constraintLines, Fence.block, marks]

/-- Where no text of a graph has a fence in it, the first block of a prompt with a diagram is the
diagram: no marks stand above the block or in it, and it is what is taken out of the prompt. -/
theorem unwrap_render {o : Options} (picture : o.withDiagram = true)
    (unmarked : ∀ text ∈ g.texts, ¬ marks <:+: text.toList) :
    Fence.unwrap (render g o) = Diagram.render g Diagram.topDown ∧
      ∃ above below, (render g o).toList = above ++
          '\n' :: Fence.block "mermaid".toList (Diagram.render g Diagram.topDown).toList ++
            '\n' :: below ∧
        ¬ marks <:+: above ∧ ¬ marks <:+: (Diagram.render g Diagram.topDown).toList := by
  have whole := toList_render (g := g) picture
  have clear := clear_linesAbove unmarked o
  have noBacktick : '\x60' ∉ (Diagram.render g Diagram.topDown).toList :=
    Diagram.not_mem_render g (by decide) (by decide) (by decide)
  have unmarkedDiagram := (clear_of_quiet noBacktick).unmarked
  have unfenced := Fence.unfenced_of_unmarked unmarkedDiagram
  have nonempty : (Diagram.render g Diagram.topDown).toList ≠ [] := by
    simpa using Diagram.render_ne_empty g Diagram.topDown
  constructor
  · have parts : (render g o).toList = ((Text.unlines (linesAbove g o)).toList ++ ['\n']) ++
        Fence.block "mermaid".toList (Diagram.render g Diagram.topDown).toList ++
          '\n' :: (Text.unlines constraintLines).toList := by
      simp [whole]
    rw [Fence.unwrap, parts, Fence.unwrapChars_block_within clear (visible_linesAbove g o _)
      (by decide) nonempty unfenced, ← Text.trimmed, Diagram.trimmed_render g (by decide)]
  · have unmarkedAbove : ¬ marks <:+: (Text.unlines (linesAbove g o)).toList :=
      fun marked => clear.unmarked (marked.trans (List.prefix_append _ _).isInfix)
    exact ⟨_, _, whole, unmarkedAbove, unmarkedDiagram⟩

/-- A flow about quoting: one and two backticks stand at the ends of all kinds of texts, also next
to line feeds. -/
def quoteGraph : Graph where
  title := "\x60\x60Quoting"
  description := some "\x60\x60\n\x60 and \x60\x60"
  nodes := [
    { id := "a", kind := .decision, title := "\x60\x60quoted\x60\x60",
      description := some "in\n\x60\x60mermaid\n", condition := some "\x60\x60" },
    { id := "\x60\x60", kind := .output, title := "\x60" }]
  edges := [
    { source := "a", target := "\x60\x60", branch := some .yes },
    { source := "a", target := "\x60b\x60\x60", branch := some .no }]

/-- The diagram of this flow is taken out of its prompt as it was drawn. -/
theorem unwrap_render_quoteGraph : (∀ text ∈ quoteGraph.texts, ¬ marks <:+: text.toList) ∧
    Fence.unwrap (render quoteGraph { withDiagram := true, withInstructions := true }) =
      "flowchart TD\n  a\x7b\"#96;#96;quoted#96;#96;\"\x7d\n  __([\"#96;\"])\n  a -->|YES| __" := by
  have unmarked : ∀ text ∈ quoteGraph.texts, ¬ marks <:+: text.toList := by decide +kernel
  obtain ⟨taken, -⟩ :=
    unwrap_render (o := { withDiagram := true, withInstructions := true }) rfl unmarked
  refine ⟨unmarked, ?_⟩
  rw [taken]
  decide +kernel

end Flowchart.Prompt
