import Flowchart.Proofs.Fence.Block

/-!
# The first of several blocks

Where a text holds several blocks, the content of the first one is taken, with one exception. A text
that starts with a block and ends in marks passes for one block as a whole, since only its two ends
are looked at, and what is taken out of it goes on to the last marks. So the first block is found
exactly when the text does not begin and end with marks that belong to different blocks.
-/

set_option autoImplicit false

namespace Flowchart.Fence

/-- A text without marks in it makes no fence. -/
theorem unfenced_of_unmarked {cs : List Char} (unmarked : ¬ marks <:+: cs) : Unfenced cs := by
  intro part suffix
  by_contra starts
  have fence : '\n' :: marks <+: part := by
    rw [← List.isPrefixOf_iff_prefix]
    simpa [startsWithFence] using starts
  have inner : marks <:+: '\n' :: marks := (List.suffix_cons _ _).isInfix
  exact unmarked (inner.trans (fence.isInfix.trans suffix.isInfix))

/-- Trimming leaves marks in place. -/
theorem marks_infix_trim {cs : List Char} (marked : marks <:+: cs) : marks <:+: Text.trim cs := by
  obtain ⟨before, after, rfl⟩ := marked
  rw [Text.trim_around (by decide) (by decide)]
  exact List.infix_append _ _ _

/-- Trimming makes no marks. -/
theorem not_marks_infix_trim {cs : List Char} (unmarked : ¬ marks <:+: cs) :
    ¬ marks <:+: Text.trim cs := by
  intro marked
  have part : Text.trim cs <:+: cs :=
    (Text.prefix_trimEnd _).isInfix.trans (List.dropWhile_suffix _).isInfix
  exact unmarked (marked.trans part)

/-- Dropping a line feed at the end leaves marks in place. -/
theorem marks_infix_dropFinalBreak {cs : List Char} (marked : marks <:+: cs) :
    marks <:+: dropFinalBreak cs := by
  unfold dropFinalBreak
  split
  · rename_i feed
    obtain ⟨rest, rfl⟩ := List.getLast?_eq_some_iff.1 feed
    rw [List.dropLast_concat]
    rcases List.infix_concat_iff.1 marked with atEnd | inner
    · -- Marks do not end in a line feed.
      obtain ⟨front, whole⟩ := atEnd
      have last := congrArg List.getLast? whole
      have mark : marks.getLast? = some '\x60' := rfl
      rw [List.getLast?_append, mark, List.getLast?_concat] at last
      exact absurd (Option.some.inj last) (by decide)
    · exact inner
  · exact marked

/-- Marks are dropped at the end of texts that end in them, and only there. -/
theorem dropFinalMarks?_eq_some_iff {cs rest : List Char} :
    dropFinalMarks? cs = some rest ↔ cs = rest ++ marks := by
  constructor
  · intro dropped
    obtain ⟨reversed, marked, rfl⟩ := Option.map_eq_some_iff.1 dropped
    have whole := congrArg List.reverse (dropMarks?_eq_some marked)
    rw [List.reverse_reverse, List.reverse_append] at whole
    exact whole
  · rintro rfl
    exact dropFinalMarks?_append rest

/-- A text ends in marks if a line of it does and goes on behind a line feed. -/
theorem dropFinalMarks?_eq_none {front after : List Char} (feed : after.head? = some '\n')
    (unmarked : ¬ marks <:+ after) : dropFinalMarks? (front ++ after) = none := by
  rw [Option.eq_none_iff_forall_ne_some]
  intro rest dropped
  have whole := dropFinalMarks?_eq_some_iff.1 dropped
  have atEnd : marks <:+ front ++ after := ⟨rest, whole.symm⟩
  rcases List.suffix_or_suffix_of_suffix atEnd (List.suffix_append front after) with
    marked | inMarks
  · exact unmarked marked
  · have noFeed : '\n' ∉ marks := by decide
    exact noFeed (inMarks.subset (List.mem_of_head? feed))

/-- The content of the first block is taken, unless the text starts with the block and ends in other
marks. -/
theorem unwrapChars_firstBlock_iff {before words content after : List Char}
    (quiet : '\x60' ∉ before) (oneLine : '\n' ∉ words) (nonempty : content ≠ [])
    (unmarked : ¬ marks <:+: content) (apart : after = [] ∨ after.head? = some '\n') :
    unwrapChars (before ++ block words content ++ after) = Text.trim content ↔
      ¬ (before.dropWhile Text.isBlank = [] ∧ marks <:+ Text.trimEnd after) := by
  constructor
  · rintro taken ⟨bare, rest, ends⟩
    have trimmed :=
      Text.trim_around (by simp [block, marks]) (trim_block words content) before after
    rw [bare, List.nil_append, ← ends] at trimmed
    have whole : whole? (block words content ++ (rest ++ marks)) =
        some (dropFinalBreak (content ++ '\n' :: marks ++ rest)) := by
      rw [whole?_block_append oneLine, ← List.append_assoc, dropFinalMarks?_append,
        Option.map_some]
    simp only [unwrapChars, trimmed, whole] at taken
    -- The marks at the end of the first block would be among what was taken.
    have marked : marks <:+: content ++ '\n' :: marks ++ rest := by
      have split : content ++ '\n' :: marks ++ rest = (content ++ ['\n']) ++ marks ++ rest := by
        simp
      rw [split]
      exact List.infix_append _ _ _
    have stays := marks_infix_trim (marks_infix_dropFinalBreak marked)
    rw [taken] at stays
    exact not_marks_infix_trim unmarked stays
  · intro notWrapped
    apply unwrapChars_block_append (clear_of_quiet quiet) oneLine nonempty
      (unfenced_of_unmarked unmarked)
    intro bare ends
    have unmarkedEnd : ¬ marks <:+ Text.trimEnd after := fun marked => notWrapped ⟨bare, marked⟩
    have feed : (Text.trimEnd after).head? = some '\n' := by
      obtain ⟨c, rest, cut⟩ := List.exists_cons_of_ne_nil ends
      obtain ⟨blanks, whole⟩ := Text.prefix_trimEnd after
      rcases apart with rfl | starts
      · exact absurd rfl ends
      · rw [← whole, cut] at starts
        rw [cut]
        exact starts
    exact dropFinalMarks?_eq_none feed unmarkedEnd

/-- The content of the first block in a text is taken, if and only if the text does not both start
with this block and end in marks behind it. -/
theorem unwrap_firstBlock_iff {before words content after : String} (quiet : '\x60' ∉ before.toList)
    (oneLine : '\n' ∉ words.toList) (nonempty : content ≠ "")
    (unmarked : ¬ marks <:+: content.toList)
    (apart : after = "" ∨ after.toList.head? = some '\n') :
    unwrap (before ++ "\x60\x60\x60" ++ words ++ "\n" ++ content ++ "\n\x60\x60\x60" ++ after) =
        Text.trimmed content ↔
      ¬ (Text.allBlank before = true ∧ marks <:+ Text.trimEnd after.toList) := by
  have chars : (before ++ "\x60\x60\x60" ++ words ++ "\n" ++ content ++ "\n\x60\x60\x60" ++
      after).toList = before.toList ++ block words.toList content.toList ++ after.toList := by
    simp [block, marks]
  rw [unwrap, chars, Text.trimmed, String.ofList_inj, ← dropWhile_isBlank_eq_nil_iff]
  apply unwrapChars_firstBlock_iff quiet oneLine _ unmarked (by simpa using apart)
  simpa using nonempty

/-- A remark stands in front of two blocks, and there are backticks in the content of the first. -/
theorem unwrap_firstBlock_iff_twoFlows :
    ¬ Text.allBlank "Either " = true ∧
      unwrap ("Either " ++ "\x60\x60\x60" ++ "text" ++ "\n" ++ " INPUT: \x60\x60a\x60 " ++
        "\n\x60\x60\x60" ++ "\nor\n\x60\x60\x60\nINPUT: b\n\x60\x60\x60") =
          Text.trimmed " INPUT: \x60\x60a\x60 " := by
  have remark : ¬ Text.allBlank "Either " = true := by decide
  refine ⟨remark, ?_⟩
  have unmarked : ¬ marks <:+: " INPUT: \x60\x60a\x60 ".toList := by decide +kernel
  have feed : "\nor\n\x60\x60\x60\nINPUT: b\n\x60\x60\x60".toList.head? = some '\n' := by
    decide +kernel
  apply (unwrap_firstBlock_iff (by decide) (by decide) (by decide) unmarked (.inr feed)).2
  exact fun wrapped => remark wrapped.1

/-- Without the remark, everything up to the last marks is taken. -/
theorem unwrap_twoFlows :
    unwrap ("\x60\x60\x60\nINPUT: a\n\x60\x60\x60\nor\n\x60\x60\x60\nINPUT: b\n\x60\x60\x60") =
      "INPUT: a\n\x60\x60\x60\nor\n\x60\x60\x60\nINPUT: b" := by
  decide +kernel

end Flowchart.Fence
