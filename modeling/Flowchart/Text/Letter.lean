/-!
# Letters without regard to case

How a keyword is recognised when case does not count, and how the keyword as it was written is put
into lower case. Three letters of the Latin alphabet have partners outside ASCII: the dotted
capital I and the dotless small I count as an I, the long S counts as an S, and the Kelvin sign
counts as a K. Such a partner is recognised, but lowering it does not give the plain small letter.
-/

set_option autoImplicit false

namespace Flowchart.Text

/-- The dotted capital I. -/
def dottedI : Char := '\u0130'

/-- The dotless small I. -/
def dotlessI : Char := '\u0131'

/-- The long S. -/
def longS : Char := '\u017f'

/-- The Kelvin sign. -/
def kelvin : Char := '\u212a'

/-- Two characters are the same letter when they agree after ASCII lowering, or when one of them
is a partner of the other. The first is a character of ASCII. -/
def sameLetter (letter c : Char) : Bool :=
  letter.toLower == c.toLower ||
    (letter.toLower == 'i' && (c == dottedI || c == dotlessI)) ||
    (letter.toLower == 's' && c == longS) ||
    (letter.toLower == 'k' && c == kelvin)

/-- Takes a word from the start of a text, without regard to case: the word as it was written and
what follows it. -/
def takeWord : List Char → List Char → Option (List Char × List Char)
  | [], rest => some ([], rest)
  | _ :: _, [] => none
  | letter :: word, c :: rest =>
    if sameLetter letter c then
      (takeWord word rest).map fun (written, after) => (c :: written, after)
    else none

/-- Whether a word stands somewhere in a text, without regard to case. -/
def mentions (word : List Char) : List Char → Bool
  | [] => (takeWord word []).isSome
  | c :: rest => (takeWord word (c :: rest)).isSome || mentions word rest

/-- The lower case of one character among the letters of keywords: ASCII letters are lowered, and
the dotted capital I becomes a small I with a separate dot above it. -/
def lowerLetter (c : Char) : List Char :=
  if c = dottedI then ['i', '\u0307'] else [c.toLower]

/-- The lower case of a keyword as it was written. -/
def lowered (cs : List Char) : List Char :=
  cs.flatMap lowerLetter

/-- The written word and the rest make up the whole text. -/
theorem append_of_takeWord {word cs written rest : List Char}
    (h : takeWord word cs = some (written, rest)) : written ++ rest = cs := by
  induction word generalizing cs written with
  | nil =>
    simp only [takeWord, Option.some.injEq, Prod.mk.injEq] at h
    obtain ⟨rfl, rfl⟩ := h
    rfl
  | cons letter word ih =>
    cases cs with
    | nil => simp [takeWord] at h
    | cons c cs =>
      rw [takeWord] at h
      split at h
      · simp only [Option.map_eq_some_iff, Prod.mk.injEq, Prod.exists] at h
        obtain ⟨tail, after, found, rfl, rfl⟩ := h
        simp [ih found]
      · simp at h

end Flowchart.Text
