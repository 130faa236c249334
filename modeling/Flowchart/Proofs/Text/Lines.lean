import Flowchart.Text.Blank
import Flowchart.Text.Lines
import Mathlib.Data.List.Basic

/-!
# Lines set below each other

Texts that are set below each other with line feeds come apart into the same texts again, provided
that each of them is one line: it holds no character that ends lines, and it is not empty, since an
empty last line is not seen.
-/

set_option autoImplicit false

namespace Flowchart.Text

/-- No character of the text ends a line. -/
def OneLine (s : String) : Prop :=
  ∀ c ∈ s.toList, isLineBreak c = false

instance (s : String) : Decidable (OneLine s) :=
  decidable_of_iff (s.toList.all fun c => !isLineBreak c) (by simp [OneLine])

/-- Two texts without line breaks make a text without line breaks. -/
theorem oneLine_append {s t : String} (hs : OneLine s) (ht : OneLine t) : OneLine (s ++ t) := by
  intro c mem
  rw [String.toList_append, List.mem_append] at mem
  rcases mem with inFirst | inSecond
  · exact hs c inFirst
  · exact ht c inSecond

/-- A character that ends no line is put in front of the first line. -/
theorem lines_cons {c : Char} (h : isLineBreak c = false) {rest line : List Char}
    {others : List (List Char)} (split : lines rest = line :: others) :
    lines (c :: rest) = (c :: line) :: others := by
  have notReturn : ∀ tail, c = '\r' → rest = '\n' :: tail → False := by
    rintro tail rfl -
    exact absurd h (by decide)
  rw [lines.eq_3 _ _ notReturn, if_neg (by simp [h]), split]

/-- What stands in front of the end of an empty first line is the first line. -/
theorem lines_append_of_empty {line rest : List Char} (h : ∀ c ∈ line, isLineBreak c = false)
    {others : List (List Char)} (split : lines rest = [] :: others) :
    lines (line ++ rest) = line :: others := by
  induction line with
  | nil => exact split
  | cons c line ih =>
    exact lines_cons (h c List.mem_cons_self) (ih fun d mem => h d (List.mem_cons_of_mem c mem))

/-- A line that ends with a line feed is followed by the lines of the rest. -/
theorem lines_append_feed {line : List Char} (h : ∀ c ∈ line, isLineBreak c = false)
    (rest : List Char) : lines (line ++ '\n' :: rest) = line :: lines rest := by
  apply lines_append_of_empty h
  rw [lines.eq_3 _ _ (by intro _ isReturn _; exact absurd isReturn (by decide)),
    if_pos (by decide)]

/-- A text without an end of line is its own only line, unless it is empty. -/
theorem lines_eq_singleton {line : List Char} (h : ∀ c ∈ line, isLineBreak c = false)
    (nonempty : line ≠ []) : lines line = [line] := by
  induction line with
  | nil => exact absurd rfl nonempty
  | cons c line ih =>
    have noBreak : isLineBreak c = false := h c List.mem_cons_self
    cases line with
    | nil =>
      have notReturn : ∀ tail, c = '\r' → ([] : List Char) = '\n' :: tail → False := by
        rintro tail - feed
        exact List.cons_ne_nil _ _ feed.symm
      rw [lines.eq_3 _ _ notReturn, if_neg (by simp [noBreak])]
      rfl
    | cons d line =>
      have tail := ih (fun e mem => h e (List.mem_cons_of_mem c mem)) (List.cons_ne_nil d line)
      exact lines_cons noBreak tail

/-- The first of several lines is followed by a line feed. -/
theorem unlines_cons_cons (text next : String) (rest : List String) :
    unlines (text :: next :: rest) = text ++ "\n" ++ unlines (next :: rest) :=
  String.intercalate_cons_cons

/-- Two groups of lines have a line feed between them. -/
theorem unlines_append {before after : List String} (hasBefore : before ≠ [])
    (hasAfter : after ≠ []) : unlines (before ++ after) = unlines before ++ "\n" ++ unlines after :=
  String.intercalate_append_of_ne_nil hasBefore hasAfter

/-- The first of several lines is followed by a line feed, in characters. -/
theorem toList_unlines_cons_cons (text next : String) (rest : List String) :
    (unlines (text :: next :: rest)).toList =
      text.toList ++ '\n' :: (unlines (next :: rest)).toList := by
  simp [unlines_cons_cons]

/-- Lines that were set below each other come apart into the same lines. -/
theorem lines_unlines {texts : List String} (h : ∀ t ∈ texts, t ≠ "" ∧ OneLine t) :
    lines (unlines texts).toList = texts.map String.toList := by
  induction texts with
  | nil => simp [unlines, lines]
  | cons t rest ih =>
    obtain ⟨nonempty, oneLine⟩ := h t List.mem_cons_self
    cases rest with
    | nil =>
      have only := lines_eq_singleton oneLine (by simpa using nonempty)
      simpa [unlines] using only
    | cons u rest =>
      have tail := ih fun v mem => h v (List.mem_cons_of_mem t mem)
      rw [toList_unlines_cons_cons, lines_append_feed oneLine, tail]
      rfl

/-- What stands at the end of the last text stands at the end of all. -/
theorem intercalate_concat_append (sep : String) (before : List String) (text tail : String) :
    sep.intercalate (before ++ [text ++ tail]) = sep.intercalate (before ++ [text]) ++ tail := by
  by_cases first : before = []
  · rw [first, List.nil_append, List.nil_append, String.intercalate_singleton,
      String.intercalate_singleton]
  · rw [String.intercalate_append_of_ne_nil first (by simp),
      String.intercalate_append_of_ne_nil first (by simp), String.intercalate_singleton,
      String.intercalate_singleton, String.append_assoc, String.append_assoc, String.append_assoc]

/-- Texts that are set among others can be set one after the other first. -/
theorem intercalate_intercalate {sep : String} {before inner after : List String}
    (hasBefore : before ≠ []) (hasInner : inner ≠ []) (hasAfter : after ≠ []) :
    sep.intercalate (before ++ sep.intercalate inner :: after) =
      sep.intercalate (before ++ (inner ++ after)) := by
  have first : sep.intercalate (sep.intercalate inner :: after) =
      sep.intercalate (inner ++ after) := by
    rw [← List.singleton_append, String.intercalate_append_of_ne_nil (by simp) hasAfter,
      String.intercalate_append_of_ne_nil hasInner hasAfter, String.intercalate_singleton]
  rw [String.intercalate_append_of_ne_nil hasBefore (by simp),
    String.intercalate_append_of_ne_nil hasBefore (by simp [hasInner]), first]

/-- Lines that are set among others can be set below each other first. -/
theorem unlines_unlines {before inner after : List String} (hasBefore : before ≠ [])
    (hasInner : inner ≠ []) (hasAfter : after ≠ []) :
    unlines (before ++ unlines inner :: after) = unlines (before ++ (inner ++ after)) :=
  intercalate_intercalate hasBefore hasInner hasAfter

/-! ## The ends of such a text -/

/-- The text starts as its first line does. -/
theorem head?_unlines {text : String} (nonempty : text ≠ "") (rest : List String) :
    (unlines (text :: rest)).toList.head? = text.toList.head? := by
  have chars : text.toList ≠ [] := by simpa using nonempty
  cases rest with
  | nil => simp [unlines]
  | cons next rest =>
    obtain ⟨c, tail, same⟩ := List.exists_cons_of_ne_nil chars
    rw [toList_unlines_cons_cons, same]
    rfl

/-- The text ends as its last line does. -/
theorem getLast?_unlines {text : String} (nonempty : text ≠ "") (before : List String) :
    (unlines (before ++ [text])).toList.getLast? = text.toList.getLast? := by
  have chars : text.toList ≠ [] := by simpa using nonempty
  by_cases first : before = []
  · simp [first, unlines]
  · have below : unlines (before ++ [text]) = unlines before ++ "\n" ++ text := by
      rw [unlines_append first (List.cons_ne_nil _ _)]
      simp [unlines]
    rw [below, String.toList_append, List.getLast?_append, List.getLast?_eq_some_getLast chars]
    rfl

/-- The text is trimmed if it does not start with a blank and none of its lines ends in one. -/
theorem trim_unlines {texts : List String}
    (first : ∀ c ∈ (unlines texts).toList.head?, isBlank c = false)
    (last : ∀ text ∈ texts, text ≠ "" ∧ ∀ c ∈ text.toList.getLast?, isBlank c = false) :
    trim (unlines texts).toList = (unlines texts).toList := by
  apply trim_eq_self first
  rcases List.eq_nil_or_concat' texts with rfl | ⟨before, text, rfl⟩
  · simp [unlines]
  · obtain ⟨nonempty, lastOfText⟩ := last text List.mem_concat_self
    rw [getLast?_unlines nonempty]
    exact lastOfText

end Flowchart.Text
