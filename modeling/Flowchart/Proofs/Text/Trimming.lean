import Flowchart.Document.Graph
import Mathlib.Data.List.DropRight

/-!
# Trimming

What trimming does to a text: it takes nothing but blank characters off, and only at the ends, so a
trimmed text stays as it is, and a text is its own trimmed form exactly when neither its first nor
its last character is blank. Titles are such texts, which is why a title that was written into a
line can be cut out of it again.
-/

set_option autoImplicit false

namespace Flowchart.Text

/-- Trimming at the end drops blank characters from the right. -/
theorem trimEnd_eq_rdropWhile (cs : List Char) : trimEnd cs = cs.rdropWhile isBlank := rfl

/-- The first character of a trimmed text is not blank. -/
theorem isBlank_head_trim {cs : List Char} {c : Char} (h : c ∈ (trim cs).head?) :
    isBlank c = false := by
  have cut : trim cs <+: cs.dropWhile isBlank := List.rdropWhile_prefix _ _
  obtain ⟨rest, whole⟩ := cut
  have first : c ∈ (cs.dropWhile isBlank).head? := by
    rw [← whole, List.head?_append, Option.mem_def.1 h]
    rfl
  have kept := List.head?_dropWhile_not isBlank cs
  rw [Option.mem_def.1 first] at kept
  simpa using kept

/-- The last character of a trimmed text is not blank. -/
theorem isBlank_getLast_trim {cs : List Char} {c : Char} (h : c ∈ (trim cs).getLast?) :
    isBlank c = false := by
  have nonempty : (cs.dropWhile isBlank).rdropWhile isBlank ≠ [] := by
    intro empty
    rw [trim, trimEnd_eq_rdropWhile, empty] at h
    simp at h
  have kept := List.rdropWhile_last_not isBlank _ nonempty
  rw [trim, trimEnd_eq_rdropWhile, List.getLast?_eq_some_getLast nonempty] at h
  obtain rfl := Option.some.inj h
  simpa using kept

/-- Trimming a trimmed text changes nothing. -/
theorem trim_trim (cs : List Char) : trim (trim cs) = trim cs :=
  trim_eq_self (fun _ h => isBlank_head_trim h) fun _ h => isBlank_getLast_trim h

/-- A text is its own trimmed form exactly when no blank character stands at either end. -/
theorem trim_eq_self_iff {cs : List Char} :
    trim cs = cs ↔ (∀ c ∈ cs.head?, isBlank c = false) ∧ ∀ c ∈ cs.getLast?, isBlank c = false := by
  constructor
  · intro h
    exact ⟨fun c first => isBlank_head_trim (h.symm ▸ first),
      fun c last => isBlank_getLast_trim (h.symm ▸ last)⟩
  · rintro ⟨first, last⟩
    exact trim_eq_self first last

/-- Trimming keeps a part of the text. -/
theorem mem_of_mem_trim {cs : List Char} {c : Char} (h : c ∈ trim cs) : c ∈ cs := by
  have inner : c ∈ cs.dropWhile isBlank := (List.rdropWhile_prefix _ _).subset h
  exact (List.dropWhile_suffix _).subset inner

/-- Trimming leaves nothing of a text exactly when all of it is blank. -/
theorem trim_eq_nil_iff {cs : List Char} : trim cs = [] ↔ ∀ c ∈ cs, isBlank c = true := by
  rw [trim, trimEnd_eq_rdropWhile, List.rdropWhile_eq_nil_iff]
  constructor
  · intro gone c mem
    have whole : cs.dropWhile isBlank = [] := by
      by_contra left
      have first := List.head_dropWhile_not isBlank left
      rw [gone _ (List.head_mem left)] at first
      cases first
    exact List.dropWhile_eq_nil_iff.1 whole c mem
  · intro blank
    rw [List.dropWhile_eq_nil_iff.2 blank]
    exact List.forall_mem_nil _

/-- A blank character in front does not count. -/
theorem trim_cons_blank {c : Char} (h : isBlank c = true) (cs : List Char) :
    trim (c :: cs) = trim cs := by
  simp only [trim, List.dropWhile_cons, h, if_true]

/-- A blank character at the end does not count. -/
theorem trim_concat_blank {c : Char} (h : isBlank c = true) (cs : List Char) :
    trim (cs ++ [c]) = trim cs := by
  induction cs with
  | nil => simp [trim, trimEnd, h]
  | cons d rest ih =>
    by_cases blank : isBlank d = true
    · rw [List.cons_append, trim_cons_blank blank, trim_cons_blank blank, ih]
    · have keep (tail : List Char) : (d :: tail).dropWhile isBlank = d :: tail := by
        simp [blank]
      rw [trim, trim, List.cons_append, keep, keep, ← List.cons_append]
      exact List.rdropWhile_concat_pos _ _ _ h

/-- A character that a text does not have differs from all that it has. -/
theorem bne_of_notMem {d : Char} {cs : List Char} (absent : d ∉ cs) :
    ∀ c ∈ cs, (c != d) = true := by
  intro c mem
  have other : c ≠ d := fun same => absent (same ▸ mem)
  simpa using other

/-- Taking up to a character takes all that stands in front of its first place. -/
theorem takeWhile_append_of_notMem {d : Char} {cs : List Char} (absent : d ∉ cs)
    (rest : List Char) : (cs ++ d :: rest).takeWhile (· != d) = cs := by
  rw [List.takeWhile_append_of_pos (bne_of_notMem absent)]
  simp

/-- Dropping up to a character drops all that stands in front of its first place. -/
theorem dropWhile_append_of_notMem {d : Char} {cs : List Char} (absent : d ∉ cs)
    (rest : List Char) : (cs ++ d :: rest).dropWhile (· != d) = d :: rest := by
  rw [List.dropWhile_append_of_pos (bne_of_notMem absent)]
  simp

/-- Dropping from the left goes no further than a character that stays. -/
theorem dropWhile_append_cons {p : Char → Bool} {c : Char} (stays : p c = false)
    (before rest : List Char) :
    (before ++ c :: rest).dropWhile p = before.dropWhile p ++ c :: rest := by
  rw [List.dropWhile_append]
  split
  · rename_i gone
    rw [List.isEmpty_iff.1 gone]
    simp [stays]
  · rfl

/-- Dropping from the right goes no further than a character that stays. -/
theorem rdropWhile_append_of_getLast? {p : Char → Bool} {cs : List Char} {c : Char}
    (last : cs.getLast? = some c) (stays : p c = false) (after : List Char) :
    (cs ++ after).rdropWhile p = cs ++ after.rdropWhile p := by
  obtain ⟨front, rfl⟩ := List.getLast?_eq_some_iff.1 last
  have cut := dropWhile_append_cons stays after.reverse front.reverse
  rw [List.rdropWhile, List.rdropWhile, List.reverse_eq_iff]
  simpa using cut

/-- Trimming takes nothing off a part that is trimmed itself. -/
theorem trim_around {cs : List Char} (nonempty : cs ≠ []) (trimmed : trim cs = cs)
    (before after : List Char) :
    trim (before ++ cs ++ after) = before.dropWhile isBlank ++ cs ++ trimEnd after := by
  obtain ⟨first, last⟩ := trim_eq_self_iff.1 trimmed
  obtain ⟨c, rest, rfl⟩ := List.exists_cons_of_ne_nil nonempty
  have start : (before ++ c :: rest ++ after).dropWhile isBlank =
      before.dropWhile isBlank ++ c :: rest ++ after := by
    simpa using dropWhile_append_cons (first c rfl) before (rest ++ after)
  have final : (before.dropWhile isBlank ++ c :: rest).getLast? =
      some ((c :: rest).getLast nonempty) := by
    rw [List.getLast?_append_of_ne_nil _ nonempty, List.getLast?_eq_some_getLast nonempty]
  rw [trim, trimEnd_eq_rdropWhile, start, rdropWhile_append_of_getLast? final,
    trimEnd_eq_rdropWhile]
  exact last _ (List.getLast?_eq_some_getLast nonempty)

/-- Trimming at the end keeps a beginning of the text. -/
theorem prefix_trimEnd (cs : List Char) : trimEnd cs <+: cs :=
  List.rdropWhile_prefix _ _

/-- Dropping from the right takes no character off that stays. -/
theorem mem_rdropWhile_iff {p : Char → Bool} {c : Char} (stays : p c = false) {cs : List Char} :
    c ∈ cs.rdropWhile p ↔ c ∈ cs := by
  refine ⟨fun mem => (List.rdropWhile_prefix p cs).subset mem, fun mem => ?_⟩
  have parts : cs.rdropWhile p ++ cs.rtakeWhile p = cs := List.rdropWhile_append_rtakeWhile
  rw [← parts, List.mem_append] at mem
  rcases mem with kept | dropped
  · exact kept
  · have gone := List.mem_rtakeWhile_imp dropped
    rw [stays] at gone
    cases gone

/-- The characters of a trimmed string are the trimmed characters. -/
theorem toList_trimmed (s : String) : (trimmed s).toList = trim s.toList := by
  simp [trimmed]

/-- Trimming leaves something of a string exactly when one of its characters is not blank. -/
theorem trimmed_ne_empty_iff {s : String} :
    trimmed s ≠ "" ↔ ∃ c ∈ s.toList, isBlank c = false := by
  rw [Ne, ← String.toList_eq_nil_iff, toList_trimmed, trim_eq_nil_iff]
  simp

/-- A string is its own trimmed form when its characters are. -/
theorem trimmed_eq_self_iff {s : String} : trimmed s = s ↔ trim s.toList = s.toList := by
  rw [← toList_trimmed, String.toList_inj]

end Flowchart.Text

namespace Flowchart

/-- A title is trimmed. -/
theorem isTitle.trim_toList {title : String} (h : isTitle title) :
    Text.trim title.toList = title.toList :=
  Text.trimmed_eq_self_iff.1 h.1

/-- A title is not empty. -/
theorem isTitle.toList_ne_nil {title : String} (h : isTitle title) : title.toList ≠ [] := by
  simpa using h.2

/-- A trimmed text that is not empty is a title. -/
theorem isTitle_ofList_trim {cs : List Char} (h : String.ofList (Text.trim cs) ≠ "") :
    isTitle (String.ofList (Text.trim cs)) := by
  refine ⟨?_, h⟩
  rw [Text.trimmed_eq_self_iff, String.toList_ofList]
  exact Text.trim_trim cs

end Flowchart
