import Flowchart.Document.Checked
import Flowchart.Json.Basic
import Flowchart.Number.Numeral

/-!
# Reading the fields of a document

Readers for the values that fields hold, and for objects and lists of them. Texts are taken only
from strings. Truth values and numbers are also taken from other values that plainly stand for one.
-/

set_option autoImplicit false

namespace Flowchart.Document

/-- A way to read a value. -/
abbrev Reader (α : Type) := Json → Checked α

/-- Reads a text. -/
def text : Reader String
  | .string s => .accepted s
  | _ => .refuse .notText

/-- Reads a value that may be null. -/
def nullable {α : Type} (read : Reader α) : Reader (Option α)
  | .null => .accepted none
  | value => some <$> read value

/-- Reads some values in a list, the first of which has the given position. -/
def itemsFrom {α : Type} (read : Reader α) : Nat → List Json → Checked (List α)
  | _, [] => .accepted []
  | position, item :: rest =>
    List.cons <$> (read item).under (Nat.repr position) <*> itemsFrom read (position + 1) rest

/-- Reads a list. -/
def list {α : Type} (read : Reader α) : Reader (List α)
  | .array items => itemsFrom read 0 items
  | _ => .refuse .notList

/-- Reads an object with the fields of the named type. -/
def object {α : Type} (type : String) (read : Json.Fields → Checked α) : Reader α
  | .object fields => read fields
  | _ => .refuse (.notObject type)

/-- Reads a field that has to be there. -/
def required {α : Type} (fields : Json.Fields) (key : String) (read : Reader α) : Checked α :=
  match fields.get? key with
  | some value => (read value).under key
  | none => Checked.under key (.refuse .missing)

/-- Reads a field that has a default. -/
def optional {α : Type} (fields : Json.Fields) (key : String) (default : α) (read : Reader α) :
    Checked α :=
  match fields.get? key with
  | some value => (read value).under key
  | none => .accepted default

/-- Reads a text field that may be absent or null. -/
def optionalText (fields : Json.Fields) (key : String) : Checked (Option String) :=
  optional fields key none (nullable text)

/-- Reads one of some values by its name, which has to be spelled exactly. -/
def named {α : Type} (cause : List String → Cause) (all : List α) (name : α → String) : Reader α :=
  fun value =>
    match value.string?.bind fun s => all.find? fun a => name a == s with
    | some a => .accepted a
    | none => .refuse (cause (all.map name))

/-- The texts that stand for a truth value, in lower case. -/
def truthTexts : List (String × Bool) := [
  ("0", false), ("off", false), ("f", false), ("false", false), ("n", false), ("no", false),
  ("1", true), ("on", true), ("t", true), ("true", true), ("y", true), ("yes", true)]

/-- Reads a truth value from an integer, which has to be zero or one. An integer beyond 64 bits does
not even look like one. -/
def truthOfInteger (n : Int) : Checked Bool :=
  if n = 0 then .accepted false
  else if n = 1 then .accepted true
  else if -(Number.twoTo 63 : Int) ≤ n ∧ n < Number.twoTo 63 then .refuse .unclearTruth
  else .refuse .notTruth

/-- Reads a truth value from a floating-point number, which has to be a whole one. The least integer
of 64 bits is not taken for one here, because smaller numbers round to it as well. -/
def truthOfFloat (x : Float) : Checked Bool :=
  match (Number.Binary64.ofFloat x).integer? with
  | some n => if n = -(Number.twoTo 63 : Int) then .refuse .notTruth else truthOfInteger n
  | none => .refuse .notTruth

/-- Reads a truth value: one itself, zero or one, or a text that stands for one without regard to
case. -/
def truth : Reader Bool
  | .bool b => .accepted b
  | .string s =>
    match List.lookup (String.ofList (s.toList.map Char.toLower)) truthTexts with
    | some b => .accepted b
    | none => .refuse .unclearTruth
  | .int n => truthOfInteger n
  | .float x => truthOfFloat x
  | _ => .refuse .notTruth

/-- A text without its underscores, provided that it has some, that none stands at either end, and
that no two stand side by side. -/
def withoutGrouping? (cs : List Char) : Option (List Char) :=
  let groups := cs.splitOn '_'
  if groups.length < 2 || groups.any List.isEmpty then none else some groups.flatten

/-- Whether a text is a numeral: with space around it, or with single underscores in it. -/
def isNumeral (s : String) : Bool :=
  (Number.numeral? (Number.trimNumeral s.toList)).isSome ||
    ((withoutGrouping? s.toList).bind Number.numeral?).isSome

/-- The least integer too large for a floating-point number. -/
def integerLimit : Nat := Number.twoTo 1024 - Number.twoTo 970

/-- Accepts a number, or a value that plainly stands for one. The number itself is not kept. -/
def number : Reader Unit
  | .float _ | .bool _ => .accepted ()
  | .int n => if n.natAbs < integerLimit then .accepted () else .refuse .notNumber
  | .string s => if isNumeral s then .accepted () else .refuse .unclearNumber
  | _ => .refuse .notNumber

end Flowchart.Document
