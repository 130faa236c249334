import Flowchart.Json.Basic
import Flowchart.Number.Text
import Flowchart.Text.Quoted

/-!
# JSON values as text

Two texts of a value. `compact` is a JSON document on one line that keeps characters beyond ASCII as
they are. `shown` is a text for people: a string is shown as it is, and a string inside a list or an
object is shown as quoted text.
-/

set_option autoImplicit false

namespace Flowchart.Json

/-- The names of the special numbers in a JSON document. -/
def documentNames : Number.SpecialNames := ⟨"Infinity", "NaN"⟩

/-- One character inside a string of a JSON document. -/
def escaped (c : Char) : List Char :=
  if c = '\x22' || c = '\\' then ['\\', c]
  else if c = '\n' then ['\\', 'n']
  else if c = '\r' then ['\\', 'r']
  else if c = '\t' then ['\\', 't']
  else if c = '\x0c' then ['\\', 'f']
  else if c = '\x08' then ['\\', 'b']
  else if c.toNat < 0x20 then '\\' :: 'u' :: Text.hexDigits 4 c.toNat
  else [c]

/-- A string of a JSON document. -/
def stringText (s : String) : String :=
  String.ofList ('\x22' :: s.toList.flatMap escaped ++ ['\x22'])

/-- The text of an integer. -/
def intText (n : Int) : String :=
  if n < 0 then "-" ++ Nat.repr n.natAbs else Nat.repr n.natAbs

/-- Parts set between brackets, with a comma and a space between two of them. -/
def bracketed (opening closing : String) (parts : List String) : String :=
  opening ++ ", ".intercalate parts ++ closing

mutual

/-- A JSON document for the value, on one line. -/
def compact : Json → String
  | .null => "null"
  | .bool true => "true"
  | .bool false => "false"
  | .int n => intText n
  | .float x => Number.floatText documentNames x
  | .string s => stringText s
  | .array items => bracketed "[" "]" (compactItems items)
  | .object fields => bracketed "\x7b" "\x7d" (compactFields fields)

/-- The documents of some values. -/
def compactItems : List Json → List String
  | [] => []
  | item :: rest => compact item :: compactItems rest

/-- The fields of an object, each a key and a document. -/
def compactFields : List (String × Json) → List String
  | [] => []
  | (key, value) :: rest => (stringText key ++ ": " ++ compact value) :: compactFields rest

end

mutual

/-- The text of a value inside a list or an object. -/
def nested : Json → String
  | .null => "None"
  | .bool true => "True"
  | .bool false => "False"
  | .int n => intText n
  | .float x => Number.floatText Number.plainNames x
  | .string s => Text.quoted s
  | .array items => bracketed "[" "]" (nestedItems items)
  | .object fields => bracketed "\x7b" "\x7d" (nestedFields fields)

/-- The texts of some values inside a list. -/
def nestedItems : List Json → List String
  | [] => []
  | item :: rest => nested item :: nestedItems rest

/-- The texts of the fields inside an object. -/
def nestedFields : List (String × Json) → List String
  | [] => []
  | (key, value) :: rest => (Text.quoted key ++ ": " ++ nested value) :: nestedFields rest

end

/-- The text of a value for people. -/
def shown : Json → String
  | .string s => s
  | value => nested value

end Flowchart.Json
