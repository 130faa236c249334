/-!
# Lines

Taking a text apart into lines. More characters end a line than the line feed: `isLineBreak` lists
them, and a carriage return directly before a line feed counts as one end of line with it. A break
at the very end of a text does not start another line.
-/

set_option autoImplicit false

namespace Flowchart.Text

/-- The characters that end a line: the line feed and the vertical controls, the three upper
information separators, the next-line character and the two Unicode separators. -/
def isLineBreak (c : Char) : Bool :=
  let n := c.toNat
  (0x0A ≤ n && n ≤ 0x0D) || (0x1C ≤ n && n ≤ 0x1E) || n == 0x85 || n == 0x2028 || n == 0x2029

/-- The lines of a text, without the characters that end them. -/
def lines : List Char → List (List Char)
  | [] => []
  | '\r' :: '\n' :: rest => [] :: lines rest
  | c :: rest =>
    if isLineBreak c then [] :: lines rest
    else match lines rest with
      | [] => [[c]]
      | line :: others => (c :: line) :: others

/-- Sets one line below the other, with a line feed between two lines and none at the end. -/
def unlines (texts : List String) : String :=
  "\n".intercalate texts

/-- No line holds a character that ends lines. -/
theorem isLineBreak_eq_false_of_mem_lines {cs line : List Char} (mem : line ∈ lines cs) {c : Char}
    (inLine : c ∈ line) : isLineBreak c = false := by
  induction cs using lines.induct generalizing line with
  | case1 => simp [lines] at mem
  | case2 rest ih =>
    simp only [lines, List.mem_cons] at mem
    rcases mem with rfl | mem
    · simp at inLine
    · exact ih mem inLine
  | case3 d rest other isBreak ih =>
    rw [lines.eq_3 _ _ other, if_pos isBreak, List.mem_cons] at mem
    rcases mem with rfl | mem
    · simp at inLine
    · exact ih mem inLine
  | case4 d rest other notBreak empty ih =>
    rw [lines.eq_3 _ _ other, if_neg notBreak, empty] at mem
    simp only [List.mem_singleton] at mem
    subst mem
    simp only [List.mem_singleton] at inLine
    simpa [inLine] using notBreak
  | case5 d rest other notBreak first others split ih =>
    rw [lines.eq_3 _ _ other, if_neg notBreak, split] at mem
    simp only [List.mem_cons] at mem
    rcases mem with rfl | mem
    · rcases List.mem_cons.1 inLine with rfl | inFirst
      · simpa using notBreak
      · exact ih (by rw [split]; exact List.mem_cons_self) inFirst
    · exact ih (by rw [split]; exact List.mem_cons_of_mem _ mem) inLine

end Flowchart.Text
