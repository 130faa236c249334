import Flowchart.Diagram
import Mathlib.Data.List.Infix

/-!
# What a label tells of its title

A label comes from the title on one line, and codes stand in it for a few characters. The number
sign that every code starts with has no code itself, so a title may spell out a code already, and
its label does not tell whether it did. That is all that gets lost besides white space: two titles
have the same label if and only if they are the same on one line once the codes that they spell out
are read as what they stand for.
-/

set_option autoImplicit false

namespace Flowchart.Diagram

/-- The characters that stand in labels as codes. -/
def isCoded (c : Char) : Bool :=
  c = '\x22' || c = '<' || c = '>' || c = '\x60'

/-- A text with every code read as the character it stands for. -/
def decoded : List Char → List Char
  | '#' :: 'q' :: 'u' :: 'o' :: 't' :: ';' :: rest => '\x22' :: decoded rest
  | '#' :: 'l' :: 't' :: ';' :: rest => '<' :: decoded rest
  | '#' :: 'g' :: 't' :: ';' :: rest => '>' :: decoded rest
  | '#' :: '9' :: '6' :: ';' :: rest => '\x60' :: decoded rest
  | c :: rest => c :: decoded rest
  | [] => []

/-- Quotes, angle brackets and backticks stand in labels as codes. -/
theorem isCoded_iff {c : Char} :
    isCoded c = true ↔ c = '\x22' ∨ c = '<' ∨ c = '>' ∨ c = '\x60' := by
  simp [isCoded, or_assoc]

/-- Any other character stands for itself. -/
theorem labelChar_eq_self {c : Char} (h : isCoded c = false) : labelChar c = [c] := by
  rw [Bool.eq_false_iff, Ne, isCoded_iff] at h
  simp only [not_or] at h
  obtain ⟨notQuote, notLess, notGreater, notBacktick⟩ := h
  simp [labelChar, notQuote, notLess, notGreater, notBacktick]

/-- A code is a number sign with something behind it that has none. -/
theorem labelChar_eq_cons {c : Char} (h : isCoded c = true) :
    ∃ code, labelChar c = '#' :: code ∧ '#' ∉ code := by
  rcases isCoded_iff.1 h with rfl | rfl | rfl | rfl <;> exact ⟨_, rfl, by decide⟩

/-! ## Codes in front of a text -/

/-- No code stands in front of the text. -/
def FreeInFront (cs : List Char) : Prop :=
  ∀ c, isCoded c = true → ¬ labelChar c <+: cs

/-- A code in front of a text is read as its character. -/
theorem decoded_labelChar_append {c : Char} (h : isCoded c = true) (rest : List Char) :
    decoded (labelChar c ++ rest) = c :: decoded rest := by
  rcases isCoded_iff.1 h with rfl | rfl | rfl | rfl <;> rfl

/-- A character that no code starts with is read as itself. -/
theorem decoded_cons {c : Char} {rest : List Char} (free : FreeInFront (c :: rest)) :
    decoded (c :: rest) = c :: decoded rest := by
  rw [decoded]
  · rintro tail rfl rfl
    exact free '\x22' rfl ⟨tail, rfl⟩
  · rintro tail rfl rfl
    exact free '<' rfl ⟨tail, rfl⟩
  · rintro tail rfl rfl
    exact free '>' rfl ⟨tail, rfl⟩
  · rintro tail rfl rfl
    exact free '\x60' rfl ⟨tail, rfl⟩

/-- A text is taken apart into codes and characters that no code starts with. -/
theorem code_induction {P : List Char → Prop} (nil : P [])
    (code : ∀ c rest, isCoded c = true → P rest → P (labelChar c ++ rest))
    (char : ∀ c rest, FreeInFront (c :: rest) → P rest → P (c :: rest)) (cs : List Char) :
    P cs := by
  induction size : cs.length using Nat.strong_induction_on generalizing cs with
  | _ n ih =>
    subst size
    by_cases free : FreeInFront cs
    · cases cs with
      | nil => exact nil
      | cons c rest => exact char c rest free (ih rest.length (Nat.lt_succ_self _) rest rfl)
    · simp only [FreeInFront, not_forall, not_not] at free
      obtain ⟨c, coded, rest, rfl⟩ := free
      refine code c rest coded (ih rest.length ?_ rest rfl)
      obtain ⟨others, isCode, -⟩ := labelChar_eq_cons coded
      rw [isCode, List.length_append, List.length_cons]
      omega

/-! ## Labels and codes -/

/-- Labels leave the codes of their titles as they are. -/
theorem flatMap_labelChar_append {c : Char} (h : isCoded c = true) (rest : List Char) :
    (labelChar c ++ rest).flatMap labelChar = labelChar c ++ rest.flatMap labelChar := by
  rcases isCoded_iff.1 h with rfl | rfl | rfl | rfl <;> rfl

/-- A word without a number sign that a label starts with was there before. -/
theorem prefix_of_prefix_flatMap {word cs : List Char} (noSign : '#' ∉ word)
    (h : word <+: cs.flatMap labelChar) : word <+: cs := by
  induction cs generalizing word with
  | nil => exact h
  | cons c cs ih =>
    cases word with
    | nil => exact List.nil_prefix
    | cons d word =>
      rw [List.mem_cons, not_or] at noSign
      rw [List.flatMap_cons] at h
      cases coded : isCoded c with
      | true =>
        obtain ⟨code, isCode, -⟩ := labelChar_eq_cons coded
        rw [isCode, List.cons_append, List.cons_prefix_cons] at h
        exact absurd h.1.symm noSign.1
      | false =>
        rw [labelChar_eq_self coded, List.singleton_append, List.cons_prefix_cons] at h
        exact List.cons_prefix_cons.2 ⟨h.1, ih noSign.2 h.2⟩

/-- Where no code starts in a title, none starts in its label. -/
theorem FreeInFront.cons_flatMap {c : Char} {rest : List Char} (free : FreeInFront (c :: rest)) :
    FreeInFront (c :: rest.flatMap labelChar) := by
  intro d coded inFront
  obtain ⟨code, isCode, noSign⟩ := labelChar_eq_cons coded
  apply free d coded
  rw [isCode, List.cons_prefix_cons] at inFront ⊢
  exact ⟨inFront.1, prefix_of_prefix_flatMap noSign inFront.2⟩

/-- Writing characters as codes and reading codes gives what reading codes gives. -/
theorem decoded_flatMap_labelChar (cs : List Char) :
    decoded (cs.flatMap labelChar) = decoded cs := by
  induction cs using code_induction with
  | nil => rfl
  | code c rest coded ih =>
    rw [flatMap_labelChar_append coded, decoded_labelChar_append coded, ih,
      decoded_labelChar_append coded]
  | char c rest free ih =>
    rw [List.flatMap_cons, decoded_cons free]
    cases coded : isCoded c with
    | true => rw [decoded_labelChar_append coded, ih]
    | false =>
      rw [labelChar_eq_self coded, List.singleton_append, decoded_cons free.cons_flatMap, ih]

/-- Reading codes first makes no difference to the label. -/
theorem flatMap_labelChar_decoded (cs : List Char) :
    (decoded cs).flatMap labelChar = cs.flatMap labelChar := by
  induction cs using code_induction with
  | nil => rfl
  | code c rest coded ih =>
    rw [decoded_labelChar_append coded, flatMap_labelChar_append coded, List.flatMap_cons, ih]
  | char c rest free ih => rw [decoded_cons free, List.flatMap_cons, List.flatMap_cons, ih]

/-! ## Titles with the same label -/

/-- A label is read as its title on one line is. -/
theorem decoded_label (title : String) :
    decoded (label title).toList = decoded (Text.collapse title.toList) := by
  rw [label, String.toList_ofList, decoded_flatMap_labelChar]

/-- Two titles have one label if and only if they are the same on one line, apart from characters
that one of them spells out as codes. -/
theorem label_eq_label_iff (s t : String) :
    label s = label t ↔
      decoded (Text.collapse s.toList) = decoded (Text.collapse t.toList) := by
  constructor
  · intro same
    rw [← decoded_label s, same, decoded_label t]
  · intro same
    unfold label
    rw [← flatMap_labelChar_decoded (Text.collapse s.toList), same, flatMap_labelChar_decoded]

/-- A quote and the code of a quote have the same label. -/
theorem label_quote_spelledOut :
    Text.collapse "\x22".toList ≠ Text.collapse "#quot;".toList ∧
      label "\x22" = label "#quot;" := by
  decide

/-- No code is spelled out in the text. -/
def SpellsNoCode (cs : List Char) : Prop :=
  ∀ c, isCoded c = true → ¬ labelChar c <:+: cs

/-- A text that spells out no code is read as it is. -/
theorem SpellsNoCode.decoded_eq {cs : List Char} (none : SpellsNoCode cs) : decoded cs = cs := by
  induction cs using code_induction with
  | nil => rfl
  | code c rest coded => exact absurd (List.prefix_append _ rest).isInfix (none c coded)
  | char c rest free ih =>
    rw [decoded_cons free, ih]
    exact fun d coded inside => none d coded (inside.trans (List.suffix_cons c rest).isInfix)

/-- Titles that spell out no code are told by their labels, up to white space. -/
theorem collapse_eq_of_label_eq {s t : String} (plain : SpellsNoCode (Text.collapse s.toList))
    (plainToo : SpellsNoCode (Text.collapse t.toList)) (same : label s = label t) :
    Text.collapse s.toList = Text.collapse t.toList := by
  rw [← plain.decoded_eq, ← plainToo.decoded_eq, ← decoded_label s, same, decoded_label t]

end Flowchart.Diagram
