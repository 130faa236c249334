/-!
# White space

Which characters are blank, and the two operations built on that class: trimming a text at both
ends, and taking it apart into its words. Both work on lists of characters; `trimmed` is the form
of trimming that the string fields of the domain types use.
-/

set_option autoImplicit false

namespace Flowchart.Text

/-- A character is blank when it only separates words: the ASCII white space, the four information
separators, the next-line character and the space separators of Unicode. The zero-width space and
the byte order mark are not blank. -/
def isBlank (c : Char) : Bool :=
  let n := c.toNat
  (0x09 ≤ n && n ≤ 0x0D) || (0x1C ≤ n && n ≤ 0x20) || n == 0x85 || n == 0xA0 || n == 0x1680 ||
    (0x2000 ≤ n && n ≤ 0x200A) || n == 0x2028 || n == 0x2029 || n == 0x202F || n == 0x205F ||
    n == 0x3000

/-- Drops the blank characters at the end of a text. -/
def trimEnd (cs : List Char) : List Char :=
  (cs.reverse.dropWhile isBlank).reverse

/-- Drops the blank characters at both ends of a text. -/
def trim (cs : List Char) : List Char :=
  trimEnd (cs.dropWhile isBlank)

/-- A string without the blank characters at its ends. -/
def trimmed (s : String) : String :=
  String.ofList (trim s.toList)

/-- A text of blank characters only, the empty text included. -/
def allBlank (s : String) : Bool :=
  s.toList.all isBlank

/-- The words of a text: its longest stretches without a blank character, in order. -/
def words (cs : List Char) : List (List Char) :=
  (cs.splitOnP isBlank).filter fun word => !word.isEmpty

/-- A text in which every stretch of blank characters is one space, with none at the ends. -/
def collapse (cs : List Char) : List Char :=
  [' '].intercalate (words cs)

/-- Nothing remains nothing when it is trimmed. -/
theorem trim_nil : trim [] = [] := rfl

/-- A text that starts and ends with a character that is not blank is its own trimmed form. -/
theorem trim_eq_self {cs : List Char} (first : ∀ c ∈ cs.head?, isBlank c = false)
    (last : ∀ c ∈ cs.getLast?, isBlank c = false) : trim cs = cs := by
  have start : cs.dropWhile isBlank = cs := by
    cases cs with
    | nil => rfl
    | cons c rest => simp [first c (by simp)]
  have stop : cs.reverse.dropWhile isBlank = cs.reverse := by
    cases h : cs.reverse with
    | nil => rfl
    | cons c rest =>
      have isLast : cs.getLast? = some c := by rw [← List.head?_reverse, h]; rfl
      simp [last c (by simp [isLast])]
  simp [trim, trimEnd, start, stop]

end Flowchart.Text
