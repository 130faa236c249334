import Flowchart.Proofs.Text.Lines
import Flowchart.Text.Blank
import Mathlib.Data.List.Basic

/-!
# The words of a text

Words hold no blank characters, so in a text that is set as its words with spaces between them, the
space is the only blank character. Such a text is one line, whatever it was before, because all
characters that end lines are blank.
-/

set_option autoImplicit false

namespace Flowchart.Text

/-- The characters that end lines are blank. -/
theorem isBlank_of_isLineBreak {c : Char} (h : isLineBreak c = true) : isBlank c = true := by
  simp only [isLineBreak, isBlank, Bool.or_eq_true, Bool.and_eq_true, decide_eq_true_eq,
    beq_iff_eq] at h ⊢
  omega

/-- The pieces between separators hold no separators. -/
theorem eq_false_of_mem_splitOnP {p : Char → Bool} {cs piece : List Char}
    (mem : piece ∈ cs.splitOnP p) {c : Char} (inPiece : c ∈ piece) : p c = false := by
  induction cs generalizing piece with
  | nil =>
    rw [List.splitOnP_nil, List.mem_singleton] at mem
    simp [mem] at inPiece
  | cons d rest ih =>
    rw [List.splitOnP_cons_eq_if_modifyHead] at mem
    split at mem
    · rcases List.mem_cons.1 mem with rfl | later
      · simp at inPiece
      · exact ih later inPiece
    · rename_i inside
      obtain ⟨first, others, split⟩ := List.exists_cons_of_ne_nil (List.splitOnP_ne_nil p rest)
      rw [split, List.modifyHead_cons] at mem
      rcases List.mem_cons.1 mem with rfl | later
      · rcases List.mem_cons.1 inPiece with rfl | inFirst
        · simpa using inside
        · exact ih (split ▸ List.mem_cons_self) inFirst
      · exact ih (split ▸ List.mem_cons_of_mem first later) inPiece

/-- No character of a word is blank. -/
theorem isBlank_eq_false_of_mem_words {cs word : List Char} (mem : word ∈ words cs) {c : Char}
    (inWord : c ∈ word) : isBlank c = false :=
  eq_false_of_mem_splitOnP (List.mem_of_mem_filter mem) inWord

/-- What stands in texts that are set one after the other stands in one of them or between them. -/
theorem mem_intercalate {sep : List Char} {texts : List (List Char)} {c : Char}
    (mem : c ∈ sep.intercalate texts) : c ∈ sep ∨ ∃ text ∈ texts, c ∈ text := by
  induction texts with
  | nil => simp at mem
  | cons text rest ih =>
    cases rest with
    | nil => exact .inr ⟨text, List.mem_cons_self, by simpa using mem⟩
    | cons next rest =>
      rw [List.intercalate_cons_cons, List.mem_append, List.mem_append] at mem
      rcases mem with (inText | between) | later
      · exact .inr ⟨text, List.mem_cons_self, inText⟩
      · exact .inl between
      · exact (ih later).imp_right fun ⟨found, known, inside⟩ =>
          ⟨found, List.mem_cons_of_mem text known, inside⟩

/-- A text that is set as its words holds no blank characters but spaces. -/
theorem mem_collapse {cs : List Char} {c : Char} (mem : c ∈ collapse cs) :
    c = ' ' ∨ isBlank c = false := by
  rcases mem_intercalate mem with between | ⟨word, isWord, inWord⟩
  · exact .inl (List.mem_singleton.1 between)
  · exact .inr (isBlank_eq_false_of_mem_words isWord inWord)

/-- Setting a text as its words with single spaces makes it one line. -/
theorem isLineBreak_eq_false_of_mem_collapse {cs : List Char} {c : Char} (mem : c ∈ collapse cs) :
    isLineBreak c = false := by
  rcases mem_collapse mem with rfl | visible
  · rfl
  · by_contra isBreak
    rw [isBlank_of_isLineBreak (by simpa using isBreak)] at visible
    cases visible

/-- What stands in strings that are set one after the other stands in one of them or between them.
-/
theorem mem_toList_intercalate {sep : String} {texts : List String} {c : Char}
    (mem : c ∈ (sep.intercalate texts).toList) :
    c ∈ sep.toList ∨ ∃ text ∈ texts, c ∈ text.toList := by
  rw [String.toList_intercalate] at mem
  refine (mem_intercalate mem).imp_right ?_
  rintro ⟨chars, isText, inside⟩
  obtain ⟨text, known, rfl⟩ := List.mem_map.1 isText
  exact ⟨text, known, inside⟩

/-- The characters of a text that was set as lines are those of the lines, and line feeds. -/
theorem mem_unlines {texts : List String} {c : Char} (mem : c ∈ (unlines texts).toList) :
    c = '\n' ∨ ∃ text ∈ texts, c ∈ text.toList :=
  (mem_toList_intercalate mem).imp_left (by simp)

end Flowchart.Text
