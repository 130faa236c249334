import Flowchart.Proofs.Text.Lines
import Mathlib.Data.List.Forall2

/-!
# Texts as lines with their ends

A text is its lines, each followed by the characters that end it, and only the last line may be
ended by nothing. So lines of a text can be replaced without touching the ends: the new text comes
apart into the new lines, provided that they hold no character that ends lines and that the empty
lines stay where they are. The last condition cannot be dropped. A carriage return ends a line on
its own or together with a line feed, and it is the line in between that keeps the two apart.
-/

set_option autoImplicit false

namespace Flowchart.Text

/-- The characters that end the lines of a text, line by line. -/
def endings : List Char → List (List Char)
  | [] => []
  | '\r' :: '\n' :: rest => ['\r', '\n'] :: endings rest
  | c :: rest =>
    if isLineBreak c then [c] :: endings rest
    else match endings rest with
      | [] => [[]]
      | ending :: others => ending :: others

/-- Sets lines one after the other, each followed by its end. -/
def joined (texts ends : List (List Char)) : List Char :=
  (List.zipWith (· ++ ·) texts ends).flatten

/-- A text of lines and endings starts with the first line and the first ending. -/
theorem joined_cons_cons (line ending : List Char) (texts ends : List (List Char)) :
    joined (line :: texts) (ending :: ends) = line ++ (ending ++ joined texts ends) := by
  simp [joined]

/-- Ends that set some lines apart: each is a character that ends lines, or the two that do so
together, and the last one may be empty if its line is not. -/
inductive Parted : List (List Char) → List (List Char) → Prop
  | nil : Parted [] []
  | last {line : List Char} (nonempty : line ≠ []) : Parted [line] [[]]
  | pair {line : List Char} {texts ends : List (List Char)} (rest : Parted texts ends) :
      Parted (line :: texts) (['\r', '\n'] :: ends)
  | single {line : List Char} {c : Char} {texts ends : List (List Char)}
      (isBreak : isLineBreak c = true)
      (apart : c = '\r' → (joined texts ends).head? ≠ some '\n') (rest : Parted texts ends) :
      Parted (line :: texts) ([c] :: ends)

/-- What sets some lines apart does so when the first line grows. -/
theorem Parted.grow {line : List Char} {texts ends : List (List Char)}
    (parted : Parted (line :: texts) ends) {longer : List Char} (nonempty : longer ≠ []) :
    Parted (longer :: texts) ends := by
  cases parted with
  | last => exact .last nonempty
  | pair rest => exact .pair rest
  | single isBreak apart rest => exact .single isBreak apart rest

/-- The lines of a text are set apart by their ends, and with them they make up the text. -/
theorem parted_lines (cs : List Char) :
    Parted (lines cs) (endings cs) ∧ joined (lines cs) (endings cs) = cs := by
  induction cs using lines.induct with
  | case1 => exact ⟨.nil, rfl⟩
  | case2 rest ih =>
    obtain ⟨parted, whole⟩ := ih
    rw [lines, endings, joined_cons_cons, whole]
    exact ⟨.pair parted, rfl⟩
  | case3 c rest other isBreak ih =>
    obtain ⟨parted, whole⟩ := ih
    rw [lines.eq_3 _ _ other, endings.eq_3 _ _ other, if_pos isBreak, if_pos isBreak,
      joined_cons_cons, whole]
    refine ⟨.single isBreak ?_ parted, rfl⟩
    rintro rfl feed
    obtain ⟨tail, rfl⟩ := List.head?_eq_some_iff.1 (whole ▸ feed)
    exact other tail rfl rfl
  | case4 c rest other notBreak empty ih =>
    obtain ⟨parted, whole⟩ := ih
    rw [lines.eq_3 _ _ other, endings.eq_3 _ _ other, if_neg notBreak, if_neg notBreak, empty]
    rw [empty] at parted whole
    cases ends : endings rest with
    | nil =>
      rw [ends] at whole
      refine ⟨.last (List.cons_ne_nil c []), ?_⟩
      rw [← whole]
      rfl
    | cons ending others =>
      rw [ends] at parted
      cases parted
  | case5 c rest other notBreak first others split ih =>
    -- The character goes in front of the first line, which keeps its ending.
    obtain ⟨parted, whole⟩ := ih
    rw [lines.eq_3 _ _ other, endings.eq_3 _ _ other, if_neg notBreak, if_neg notBreak, split]
    rw [split] at parted whole
    cases ends : endings rest with
    | nil =>
      rw [ends] at parted
      cases parted
    | cons ending later =>
      rw [ends] at parted whole
      refine ⟨parted.grow (List.cons_ne_nil c first), ?_⟩
      rw [joined_cons_cons] at whole ⊢
      rw [List.cons_append, whole]

/-! ## Other lines with the same ends -/

/-- A line that can stand in the place of another: it is one line, and empty if the other is. -/
def Fits (line old : List Char) : Prop :=
  (line = [] ↔ old = []) ∧ ∀ c ∈ line, isLineBreak c = false

/-- A line feed at the start of some lines is the end of an empty one. -/
theorem Parted.head?_joined {texts ends : List (List Char)} (parted : Parted texts ends)
    {others : List (List Char)} (fit : List.Forall₂ Fits others texts)
    (feed : (joined others ends).head? = some '\n') : (joined texts ends).head? = some '\n' := by
  cases fit with
  | nil => simp [joined] at feed
  | @cons line old others texts fits fit =>
    obtain ⟨alike, oneLine⟩ := fits
    by_cases empty : line = []
    · have oldEmpty := alike.1 empty
      subst empty oldEmpty
      cases parted with
      | last nonempty => exact absurd rfl nonempty
      | pair => exact feed
      | single => exact feed
    · obtain ⟨c, tail, rfl⟩ := List.exists_cons_of_ne_nil empty
      cases ends with
      | nil => simp [joined] at feed
      | cons ending ends =>
        rw [joined_cons_cons] at feed
        obtain rfl := Option.some.inj feed
        exact absurd (oneLine '\n' List.mem_cons_self) (by decide)

/-- Lines that fit in the places of others come apart again. -/
theorem Parted.lines_joined {texts ends : List (List Char)} (parted : Parted texts ends)
    {others : List (List Char)} (fit : List.Forall₂ Fits others texts) :
    lines (joined others ends) = others := by
  induction parted generalizing others with
  | nil =>
    cases fit
    rfl
  | last nonempty =>
    cases fit with
    | @cons line _ others _ fits none =>
      cases none
      have whole : joined [line] [[]] = line := by simp [joined]
      rw [whole]
      exact lines_eq_singleton fits.2 fun empty => nonempty (fits.1.1 empty)
  | @pair old texts ends rest ih =>
    cases fit with
    | @cons line _ others _ fits fit =>
      rw [joined_cons_cons]
      apply lines_append_of_empty fits.2
      rw [List.cons_append, List.singleton_append, lines, ih fit]
  | @single old c texts ends isBreak apart rest ih =>
    -- A return and a line feed are apart here, so they do not become one ending.
    cases fit with
    | @cons line _ others _ fits fit =>
      rw [joined_cons_cons]
      apply lines_append_of_empty fits.2
      have notPair : ∀ tail, c = '\r' → joined others ends = '\n' :: tail → False := by
        intro tail isReturn feed
        exact apart isReturn (rest.head?_joined fit (by rw [feed]; rfl))
      rw [List.singleton_append, lines.eq_3 _ _ notPair, if_pos isBreak, ih fit]

/-- Lines that take the places of the lines of a text are the lines of the new text. -/
theorem lines_joined_endings {cs : List Char} {others : List (List Char)}
    (fit : List.Forall₂ Fits others (lines cs)) : lines (joined others (endings cs)) = others :=
  (parted_lines cs).1.lines_joined fit

end Flowchart.Text
