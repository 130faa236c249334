import Flowchart.Number.Binary64

/-!
# JSON values

The values that requests, answers and language models exchange. Integers and floating-point numbers
are told apart, as their texts are; an object keeps its fields in the order in which they were first
given, with one field for a key.
-/

set_option autoImplicit false

namespace Flowchart

/-- A JSON value. -/
inductive Json where
  | null
  | bool (value : Bool)
  | int (value : Int)
  | float (value : Float)
  | string (value : String)
  | array (items : List Json)
  | object (fields : List (String × Json))

namespace Json

/-- The fields of an object. -/
abbrev Fields := List (String × Json)

/-- The value of a key. -/
def Fields.get? (fields : Fields) (key : String) : Option Json :=
  List.lookup key fields

/-- Gives a key a value. A key that is there already keeps its place. -/
def Fields.put : Fields → String → Json → Fields
  | [], key, value => [(key, value)]
  | (other, old) :: rest, key, value =>
    if other = key then (key, value) :: rest else (other, old) :: Fields.put rest key value

/-- The fields of an object, if the value is one. -/
def fields? : Json → Option Fields
  | .object fields => some fields
  | _ => none

/-- Only an object has fields. -/
theorem fields?_eq_some_iff {value : Json} {fields : Fields} :
    value.fields? = some fields ↔ value = .object fields := by
  cases value <;> simp [fields?]

/-- The text of a string, if the value is one. -/
def string? : Json → Option String
  | .string s => some s
  | _ => none

/-- Only a text value has a text. -/
theorem string?_eq_some_iff {value : Json} {s : String} :
    value.string? = some s ↔ value = .string s := by
  cases value <;> simp [string?]

/-- Whether a value counts as given: everything does but null, false, zero and what is empty. -/
def isGiven : Json → Bool
  | .null => false
  | .bool b => b
  | .int n => n != 0
  | .float x => !(Number.Binary64.ofFloat x).isZero
  | .string s => s != ""
  | .array items => !items.isEmpty
  | .object fields => !fields.isEmpty

mutual

/-- Whether all numbers in a value are of finite size. Documents in the standard notation hold no
others. -/
def isFinite : Json → Bool
  | .float x => (Number.Binary64.ofFloat x).isFinite
  | .array items => itemsAreFinite items
  | .object fields => fieldsAreFinite fields
  | _ => true

/-- Whether all numbers in the items of an array are of finite size. -/
def itemsAreFinite : List Json → Bool
  | [] => true
  | item :: rest => isFinite item && itemsAreFinite rest

/-- Whether all numbers in the fields of an object are of finite size. -/
def fieldsAreFinite : List (String × Json) → Bool
  | [] => true
  | (_, value) :: rest => isFinite value && fieldsAreFinite rest

end

/-- A part of a value: of an object by its key, of an array by its position in decimal digits. -/
def part? (name : String) : Json → Option Json
  | .object fields => Fields.get? fields name
  | .array items => (items.zipIdx.find? fun (_, position) => Nat.repr position == name).map (·.1)
  | _ => none

/-- The value at a place inside another value, which names lead to one after the other. -/
def at? : List String → Json → Option Json
  | [], value => some value
  | name :: rest, value => (value.part? name).bind (at? rest)

/-- A text, or null for none. -/
def ofOption : Option String → Json
  | some s => .string s
  | none => .null

/-- A list of texts. -/
def ofStrings (texts : List String) : Json :=
  .array (texts.map .string)

end Json

end Flowchart
