import Flowchart.Proofs.Text.Lines
import Mathlib.Algebra.Order.BigOperators.Group.List
import Mathlib.Algebra.Order.Ring.Nat

/-!
# How long a text of several lines is

Texts that are set below each other are as long together as all of them with a line feed behind
each, but for the last line feed. So what makes one of the texts longer makes the whole longer.
-/

set_option autoImplicit false

namespace Flowchart.Text

/-- How long some texts are if a line feed is set behind each of them. -/
def totalLength (texts : List String) : Nat :=
  (texts.map fun text => text.length + 1).sum

/-- The lengths of two lists of lines add up. -/
theorem totalLength_append (texts others : List String) :
    totalLength (texts ++ others) = totalLength texts + totalLength others := by
  simp [totalLength]

/-- The lines for the items of a list are as long as those for each of the items together. -/
theorem totalLength_flatMap {α : Type} (items : List α) (texts : α → List String) :
    totalLength (items.flatMap texts) = (items.map fun item => totalLength (texts item)).sum := by
  induction items with
  | nil => rfl
  | cons item rest ih =>
    rw [List.flatMap_cons, totalLength_append, ih, List.map_cons, List.sum_cons]

/-- So are the lines for a list in which an item has one line or none. -/
theorem totalLength_filterMap {α : Type} (items : List α) (text? : α → Option String) :
    totalLength (items.filterMap text?) =
      (items.map fun item => ((text? item).map fun text => text.length + 1).getD 0).sum := by
  induction items with
  | nil => rfl
  | cons item rest ih =>
    rw [List.map_cons, List.sum_cons, ← ih]
    cases text : text? item <;> simp [text, totalLength]

/-- A text of lines is as long as its lines with a line feed each, but for the last line feed. -/
theorem length_unlines {texts : List String} (nonempty : texts ≠ []) :
    (unlines texts).length + 1 = totalLength texts := by
  induction texts with
  | nil => exact absurd rfl nonempty
  | cons text rest ih =>
    cases rest with
    | nil => simp [unlines, totalLength]
    | cons next rest =>
      have below := ih (List.cons_ne_nil next rest)
      have feed : "\n".length = 1 := rfl
      rw [unlines_cons_cons, String.length_append, String.length_append, feed, Nat.add_assoc, below]
      simp [totalLength]

end Flowchart.Text
