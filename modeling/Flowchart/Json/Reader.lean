import Flowchart.Json.Basic
import Flowchart.Number.Numeral
import Flowchart.Text.Encoding

/-!
# Reading JSON documents

A reader for JSON documents that also takes the names `NaN`, `Infinity` and `-Infinity`. Every
reading function returns what it read together with the text that is left, which is shorter than the
text it was given; a failure says where in the document it was noticed. Numbers without a point and
without an exponent are integers of any size up to `maxIntegerDigits` digits. Arrays and objects may
stand inside each other up to a depth that the caller sets.

Strings hold characters and nothing else. An escape that gives one half of a pair, with the other
half missing, names no character and is read as the replacement character (`Text.charOfCode`). A
reader that keeps the code itself tells apart what is one and the same here: strings that differ
only in such halves are equal, and keys of an object that differ only in them become one key.
-/

set_option autoImplicit false

namespace Flowchart.Json

/-- The values that hold other values. -/
inductive Container where
  | array
  | object
deriving DecidableEq, Repr

/-- The name of a container. -/
def Container.name : Container → String
  | array => "array"
  | object => "object"

/-- Why a text is not a JSON document that can be read. -/
inductive ReadError where
  /-- The text stops being a document at a position, counted in characters from its start. -/
  | malformed (position : Nat)
  /-- An integer has more digits than the reader accepts. -/
  | integerTooLong
  /-- A container opens inside more containers than the reader accepts. -/
  | tooDeep (container : Container)
deriving DecidableEq, Repr

/-- The largest number of containers around a value, unless the caller sets another. It is the room
that a reader finds when it calls itself for every container, so it depends on what runs the reader
and on how much is running already. -/
def maxDepth : Nat := 990

namespace Reader

/-- Why reading stopped, with positions counted from the end of the document. -/
inductive Failure where
  | malformed (remaining : Nat)
  | integerTooLong
  | tooDeep (container : Container)

/-- What is left of a text after something was read from it. -/
abbrev Rest (cs : List Char) := { rest : List Char // rest.length < cs.length }

/-- The largest number of digits of an integer. -/
def maxIntegerDigits : Nat := 4300

/-- The white space of JSON documents. -/
def isSpace (c : Char) : Bool :=
  c = ' ' || c = '\n' || c = '\r' || c = '\t'

/-- Drops the white space at the start of a text. -/
def skipSpace (cs : List Char) : List Char :=
  cs.dropWhile isSpace

/-- Skipping white space makes a text no longer. -/
theorem length_skipSpace_le (cs : List Char) : (skipSpace cs).length ≤ cs.length :=
  (List.dropWhile_suffix isSpace).length_le

/-- The value of four hexadecimal digits that have at least one character after them. -/
def hexCode? : List Char → Option (Nat × List Char)
  | a :: b :: c :: d :: next :: rest => do
    let a ← Number.hexDigit? a
    let b ← Number.hexDigit? b
    let c ← Number.hexDigit? c
    let d ← Number.hexDigit? d
    some (((a * 16 + b) * 16 + c) * 16 + d, next :: rest)
  | _ => none

/-- Reading a code spends characters. -/
theorem length_lt_of_hexCode? {cs rest : List Char} {code : Nat}
    (h : hexCode? cs = some (code, rest)) : rest.length < cs.length := by
  unfold hexCode? at h
  split at h
  · simp only [Option.bind_eq_bind, Option.bind_eq_some_iff, Option.some.injEq, Prod.mk.injEq] at h
    obtain ⟨_, _, _, _, _, _, _, _, _, rfl⟩ := h
    simp only [List.length_cons]
    omega
  · simp at h

/-- The character that follows a backslash in a string, where it stands for one character. -/
def simpleEscape? (c : Char) : Option Char :=
  if c = '\x22' || c = '\\' || c = '/' then some c
  else if c = 'b' then some '\x08'
  else if c = 'f' then some '\x0c'
  else if c = 'n' then some '\n'
  else if c = 'r' then some '\r'
  else if c = 't' then some '\t'
  else none

/-- What the text after `\u` stands for: a character, and the text that is left. A first half joins
with a second half that is written directly after it. -/
def codeEscape (cs : List Char) : Except Failure (Char × Rest cs) :=
  match h : hexCode? cs with
  | none => .error (.malformed (cs.length + 1))
  | some (code, rest) =>
    have shorter := length_lt_of_hexCode? h
    match rest with
    | '\\' :: 'u' :: second =>
      if Text.isHighHalf code && 5 ≤ second.length then
        match h' : hexCode? second with
        | none => .error (.malformed (second.length + 1))
        | some (low, rest') =>
          have shorter' := length_lt_of_hexCode? h'
          if Text.isLowHalf low then
            .ok (Text.charOfHalves code low,
              ⟨rest', by simp only [List.length_cons] at shorter; omega⟩)
          else .ok (Text.charOfCode code, ⟨'\\' :: 'u' :: second, shorter⟩)
      else .ok (Text.charOfCode code, ⟨'\\' :: 'u' :: second, shorter⟩)
    | rest => .ok (Text.charOfCode code, ⟨rest, shorter⟩)

/-- One step through a string: its end, or a character of it. -/
inductive Piece (cs : List Char) where
  | stop (rest : Rest cs)
  | char (c : Char) (rest : Rest cs)

/-- Reads one step of a string; `opened` is the text after its opening quote, where a string without
an end is faulted. -/
def piece (opened cs : List Char) : Except Failure (Piece cs) :=
  match cs with
  | [] => .error (.malformed (opened.length + 1))
  | '\x22' :: rest => .ok (.stop ⟨rest, by simp⟩)
  | ['\\'] => .error (.malformed (opened.length + 1))
  | '\\' :: 'u' :: rest => do
    let (c, ⟨left, shorter⟩) ← codeEscape rest
    .ok (.char c ⟨left, by simp only [List.length_cons]; omega⟩)
  | '\\' :: c :: rest =>
    match simpleEscape? c with
    | some meaning => .ok (.char meaning ⟨rest, by simp only [List.length_cons]; omega⟩)
    | none => .error (.malformed (rest.length + 2))
  | c :: rest =>
    if c.toNat < 0x20 then .error (.malformed (rest.length + 1))
    else .ok (.char c ⟨rest, by simp⟩)

/-- The characters of a string up to its closing quote. -/
def stringBody (opened cs : List Char) : Except Failure (List Char × Rest cs) :=
  match piece opened cs with
  | .error failure => .error failure
  | .ok (.stop rest) => .ok ([], rest)
  | .ok (.char c ⟨left, shorter⟩) =>
    match stringBody opened left with
    | .error failure => .error failure
    | .ok (body, ⟨rest, shorter'⟩) => .ok (c :: body, ⟨rest, by omega⟩)
termination_by cs.length

/-- The digits before the point of a number: a single zero, or digits that start with another. -/
def wholeDigits : List Char → List Char × List Char
  | '0' :: rest => (['0'], rest)
  | cs => Number.takeDigits cs

/-- The digits after the point of a number. A point that no digit follows belongs to no number. -/
def fractionDigits : List Char → List Char × List Char
  | '.' :: rest =>
    let (digits, left) := Number.takeDigits rest
    if digits.isEmpty then ([], '.' :: rest) else (digits, left)
  | cs => ([], cs)

/-- The exponent of a number. A letter E without digits after it belongs to no number. -/
def exponentPart : List Char → Option Int × List Char
  | [] => (none, [])
  | mark :: rest =>
    if mark = 'e' || mark = 'E' then
      let (negative, unsigned) := Number.takeSign rest
      let (digits, left) := Number.takeDigits unsigned
      if digits.isEmpty then (none, mark :: rest)
      else
        let size : Int := Number.digitsValue digits
        (some (if negative then -size else size), left)
    else (none, mark :: rest)

/-- Reading digits makes a text no longer. -/
theorem length_takeDigits_le (cs : List Char) : (Number.takeDigits cs).2.length ≤ cs.length :=
  (List.dropWhile_suffix Char.isDigit).length_le

/-- Reading some digits makes a text shorter. -/
theorem length_takeDigits_lt {cs : List Char} (h : (Number.takeDigits cs).1 ≠ []) :
    (Number.takeDigits cs).2.length < cs.length := by
  cases cs with
  | nil => simp [Number.takeDigits] at h
  | cons c rest =>
    by_cases digit : c.isDigit
    · have := (List.dropWhile_suffix Char.isDigit (l := rest)).length_le
      simp only [Number.takeDigits, List.dropWhile_cons, digit, if_true, List.length_cons]
      omega
    · simp [Number.takeDigits, digit] at h

/-- Reading the digits before the point spends characters, if there are any. -/
theorem length_wholeDigits_lt {cs : List Char} (h : (wholeDigits cs).1 ≠ []) :
    (wholeDigits cs).2.length < cs.length := by
  unfold wholeDigits at h ⊢
  split
  · simp
  · split at h
    · simp_all
    · exact length_takeDigits_lt h

/-- Reading the digits behind the point makes a text no longer. -/
theorem length_fractionDigits_le (cs : List Char) : (fractionDigits cs).2.length ≤ cs.length := by
  unfold fractionDigits
  split
  · rename_i rest
    have := length_takeDigits_le rest
    simp only
    split
    · exact Nat.le_refl _
    · simp only [List.length_cons]; omega
  · exact Nat.le_refl _

/-- Reading a sign makes a text no longer. -/
theorem length_takeSign_le (cs : List Char) : (Number.takeSign cs).2.length ≤ cs.length := by
  unfold Number.takeSign
  split <;> simp

/-- Reading an exponent makes a text no longer. -/
theorem length_exponentPart_le (cs : List Char) : (exponentPart cs).2.length ≤ cs.length := by
  unfold exponentPart
  split
  · exact Nat.le_refl _
  · rename_i mark rest
    have := length_takeSign_le rest
    have := length_takeDigits_le (Number.takeSign rest).2
    split
    · simp only
      split
      · exact Nat.le_refl _
      · simp only [List.length_cons]; omega
    · exact Nat.le_refl _

/-- The number that a sign, digits, more digits after a point, and an exponent stand for. -/
def numberValue (negative : Bool) (whole fraction : List Char) (exponent : Option Int) :
    Except Failure Json :=
  if fraction.isEmpty && exponent.isNone then
    if maxIntegerDigits < whole.length then .error .integerTooLong
    else
      let size : Int := Number.digitsValue whole
      .ok (.int (if negative then -size else size))
  else
    let digits := Number.digitsValue (whole ++ fraction)
    .ok (.float (Number.signed negative
      (Number.nearestFloat digits (exponent.getD 0 - fraction.length))))

/-- Reads a number. -/
def number (cs : List Char) : Except Failure (Json × Rest cs) :=
  let negative := cs.head? == some '-'
  let unsigned := if negative then cs.tail else cs
  let whole := wholeDigits unsigned
  if given : whole.1 = [] then .error (.malformed cs.length)
  else
    let fraction := fractionDigits whole.2
    let exponent := exponentPart fraction.2
    have shorter : exponent.2.length < cs.length := by
      have first : unsigned.length ≤ cs.length := by
        simp only [unsigned]
        split
        · simp
        · exact Nat.le_refl _
      have second : whole.2.length < unsigned.length := length_wholeDigits_lt given
      have third : fraction.2.length ≤ whole.2.length := length_fractionDigits_le whole.2
      have fourth : exponent.2.length ≤ fraction.2.length := length_exponentPart_le fraction.2
      omega
    (numberValue negative whole.1 fraction.1 exponent.1).map fun value =>
      (value, ⟨exponent.2, shorter⟩)

/-- The names that stand for a value. -/
def names : List (List Char × Json) := [
  ("null".toList, .null),
  ("true".toList, .bool true),
  ("false".toList, .bool false),
  ("NaN".toList, .float (0.0 / 0.0)),
  ("Infinity".toList, .float (1.0 / 0.0)),
  ("-Infinity".toList, .float (-1.0 / 0.0))]

/-- Reads a name that stands for a value. -/
def name? (cs : List Char) : Option (Json × Rest cs) :=
  names.findSome? fun (name, value) =>
    if h : name.isPrefixOf cs ∧ name ≠ [] then
      some (value, ⟨cs.drop name.length, by
        have nonempty := List.length_pos_iff.2 h.2
        have fits := (List.isPrefixOf_iff_prefix.1 h.1).length_le
        simp only [List.length_drop]
        omega⟩)
    else none

/-- The depth that is left inside a container. -/
def enter (container : Container) : Nat → Except Failure Nat
  | 0 => .error (.tooDeep container)
  | depth + 1 => .ok depth

mutual

/-- Reads a value that holds at most `depth` containers inside each other. -/
def value (depth : Nat) (cs : List Char) : Except Failure (Json × Rest cs) :=
  match cs with
  | '\x22' :: rest => do
    let (body, ⟨left, shorter⟩) ← stringBody rest rest
    .ok (.string (String.ofList body), ⟨left, by simp only [List.length_cons]; omega⟩)
  | '[' :: rest => do
    let depth ← enter .array depth
    have within := length_skipSpace_le rest
    match inner : skipSpace rest with
    | ']' :: left => .ok (.array [], ⟨left, by
        simp only [inner, List.length_cons] at within ⊢; omega⟩)
    | start => do
      let (items, ⟨left, shorter⟩) ← items depth start
      .ok (.array items, ⟨left, by simp only [inner, List.length_cons] at within ⊢; omega⟩)
  | '\x7b' :: rest => do
    let depth ← enter .object depth
    have within := length_skipSpace_le rest
    match inner : skipSpace rest with
    | '\x7d' :: left => .ok (.object [], ⟨left, by
        simp only [inner, List.length_cons] at within ⊢; omega⟩)
    | start => do
      let (fields, ⟨left, shorter⟩) ← members depth start
      .ok (.object (fields.foldl (fun known (key, value) => Fields.put known key value) []),
        ⟨left, by simp only [inner, List.length_cons] at within ⊢; omega⟩)
  | cs =>
    match name? cs with
    | some found => .ok found
    | none => number cs
termination_by 2 * cs.length

/-- Reads the items of an array, of which there is at least one, and its closing bracket. -/
def items (depth : Nat) (cs : List Char) : Except Failure (List Json × Rest cs) := do
  let (item, ⟨left, shorter⟩) ← value depth cs
  have within := length_skipSpace_le left
  match next : skipSpace left with
  | ']' :: rest =>
    have spent : rest.length < (skipSpace left).length := by simp [next]
    .ok ([item], ⟨rest, by omega⟩)
  | ',' :: rest =>
    have spent : rest.length < (skipSpace left).length := by simp [next]
    have restWithin := length_skipSpace_le rest
    let (others, ⟨final, finalShorter⟩) ← items depth (skipSpace rest)
    .ok (item :: others, ⟨final, by omega⟩)
  | other => .error (.malformed other.length)
termination_by 2 * cs.length + 1

/-- Reads the fields of an object, of which there is at least one, and its closing brace. -/
def members (depth : Nat) (cs : List Char) : Except Failure (List (String × Json) × Rest cs) :=
  match cs with
  | '\x22' :: rest => do
    let (key, ⟨afterKey, keyShorter⟩) ← stringBody rest rest
    have keyWithin := length_skipSpace_le afterKey
    match atColon : skipSpace afterKey with
    | ':' :: afterColon =>
      have colonSpent : afterColon.length < (skipSpace afterKey).length := by simp [atColon]
      have colonWithin := length_skipSpace_le afterColon
      let (item, ⟨left, itemShorter⟩) ← value depth (skipSpace afterColon)
      have within := length_skipSpace_le left
      match next : skipSpace left with
      | '\x7d' :: after =>
        have spent : after.length < (skipSpace left).length := by simp [next]
        .ok ([(String.ofList key, item)], ⟨after, by simp only [List.length_cons]; omega⟩)
      | ',' :: after =>
        have spent : after.length < (skipSpace left).length := by simp [next]
        have afterWithin := length_skipSpace_le after
        let (others, ⟨final, finalShorter⟩) ← members depth (skipSpace after)
        .ok ((String.ofList key, item) :: others, ⟨final, by simp only [List.length_cons]; omega⟩)
      | other => .error (.malformed other.length)
    | other => .error (.malformed other.length)
  | other => .error (.malformed other.length)
termination_by 2 * cs.length + 1

end

/-- Reads a whole document. -/
def document (depth : Nat) (cs : List Char) : Except Failure Json := do
  let (found, ⟨left, _⟩) ← value depth (skipSpace cs)
  match skipSpace left with
  | [] => .ok found
  | other => .error (.malformed other.length)

end Reader

/-- The value of a JSON document. -/
def read (text : List Char) (depth : Nat := maxDepth) : Except ReadError Json :=
  match Reader.document depth text with
  | .ok value => .ok value
  | .error (.malformed remaining) => .error (.malformed (text.length - remaining))
  | .error .integerTooLong => .error .integerTooLong
  | .error (.tooDeep container) => .error (.tooDeep container)

end Flowchart.Json
