import Flowchart.Json.Basic
import Flowchart.Text.Lines

/-!
# Checking documents

Reading a document as a value of a domain type either succeeds or names every problem that the
document has, not only the first one. A problem has a place, given by the keys and positions that
lead to it, and a cause. `Checked` is the outcome of such a reading; its applicative structure
collects the problems of all parts, in the order of the parts.
-/

set_option autoImplicit false

namespace Flowchart.Document

/-- What is wrong with a value in a document. -/
inductive Cause where
  /-- A required field is not there. -/
  | missing
  /-- The value should be a text. -/
  | notText
  /-- The value should be a list. -/
  | notList
  /-- The value should be an object with the fields of the named type. -/
  | notObject (type : String)
  /-- The value should be one of some names. -/
  | notListed (names : List String)
  /-- The speaker of a message should be one of some names. -/
  | notSpeaker (names : List String)
  /-- A title is blank. -/
  | blankTitle
  /-- The value should be a truth value, and is none that can be made sense of. -/
  | unclearTruth
  /-- The value should be a truth value, and is of another type. -/
  | notTruth
  /-- The text should be a number. -/
  | unclearNumber
  /-- The value should be a number, and is of another type. -/
  | notNumber
deriving DecidableEq, Repr

/-- Where a document came from, which settles how a missing object is worded. -/
inductive Origin where
  /-- The document was handed over as a value. -/
  | value
  /-- The document is the body of a request to the service. -/
  | request
deriving DecidableEq, Repr

/-- Alternatives in words: with commas, and the last one after an "or". -/
def alternatives : List String → String
  | [] => ""
  | [only] => only
  | [first, last] => first ++ " or " ++ last
  | first :: rest => first ++ ", " ++ alternatives rest

/-- Some names in apostrophes, as alternatives. -/
def listed (names : List String) : String :=
  "Input should be " ++ alternatives (names.map fun name => "'" ++ name ++ "'")

namespace Cause

/-- The code of a cause for programs. -/
def code (origin : Origin) : Cause → String
  | missing => "missing"
  | notText => "string_type"
  | notList => "list_type"
  | notObject _ => match origin with
    | .value => "model_type"
    | .request => "model_attributes_type"
  | notListed _ => "enum"
  | notSpeaker _ => "literal_error"
  | blankTitle => "value_error"
  | unclearTruth => "bool_parsing"
  | notTruth => "bool_type"
  | unclearNumber => "float_parsing"
  | notNumber => "float_type"

/-- The wording of a cause for people. -/
def message (origin : Origin) : Cause → String
  | missing => "Field required"
  | notText => "Input should be a valid string"
  | notList => "Input should be a valid list"
  | notObject type => match origin with
    | .value => "Input should be a valid dictionary or instance of " ++ type
    | .request => "Input should be a valid dictionary or object to extract fields from"
  | notListed names => listed names
  | notSpeaker names => listed names
  | blankTitle => "Value error, title must not be empty"
  | unclearTruth => "Input should be a valid boolean, unable to interpret input"
  | notTruth => "Input should be a valid boolean"
  | unclearNumber => "Input should be a valid number, unable to parse string as a number"
  | notNumber => "Input should be a valid number"

end Cause

/-- A cause and its place. -/
structure Problem where
  path : List String
  cause : Cause
deriving DecidableEq, Repr

/-- The line about a problem: its place, the code and the wording of its cause. -/
def Problem.line (origin : Origin) (p : Problem) : String :=
  ".".intercalate p.path ++ ": " ++ p.cause.code origin ++ ": " ++ p.cause.message origin

/-- The value that a problem is about: the one at its place, or what lacks a field. -/
def Problem.subject? (document : Json) (p : Problem) : Option Json :=
  document.at? (if p.cause = .missing then p.path.dropLast else p.path)

/-- The lines about some problems. -/
def problemLines (problems : List Problem) : String :=
  Text.unlines (problems.map (Problem.line .value))

/-- The outcome of reading a document: a value, or the problems of the document. -/
inductive Checked (α : Type) where
  | accepted (value : α)
  | rejected (problems : List Problem)

namespace Checked

variable {α β : Type}

/-- Applies a function that was read to a value that was read. The problems of both are kept. -/
def apply (f : Checked (α → β)) (x : Checked α) : Checked β :=
  match f, x with
  | .accepted f, .accepted a => .accepted (f a)
  | .accepted _, .rejected problems => .rejected problems
  | .rejected problems, .accepted _ => .rejected problems
  | .rejected problems, .rejected others => .rejected (problems ++ others)

instance : Applicative Checked where
  pure := .accepted
  seq f x := apply f (x ())

/-- Rejects a value for one cause. -/
def refuse (cause : Cause) : Checked α := .rejected [⟨[], cause⟩]

/-- Moves the problems of a value to the place that the value has in a larger document. -/
def under (key : String) : Checked α → Checked α
  | .accepted value => .accepted value
  | .rejected problems => .rejected (problems.map fun p => { p with path := key :: p.path })

/-- Reads on from a value that was accepted. -/
def andThen (x : Checked α) (f : α → Checked β) : Checked β :=
  match x with
  | .accepted value => f value
  | .rejected problems => .rejected problems

/-- The outcome with the problems as the error. -/
def toExcept : Checked α → Except (List Problem) α
  | .accepted value => .ok value
  | .rejected problems => .error problems

/-- A value that nothing was read for is accepted. -/
@[simp] theorem pure_eq (value : α) : (pure value : Checked α) = .accepted value := rfl

/-- What is made of an accepted value is accepted. -/
@[simp] theorem map_accepted (f : α → β) (value : α) :
    f <$> Checked.accepted value = .accepted (f value) := rfl

/-- Problems stay when something is to be made of the value. -/
@[simp] theorem map_rejected (f : α → β) (problems : List Problem) :
    f <$> Checked.rejected problems = .rejected problems := rfl

/-- Two parts that are accepted make an accepted whole. -/
@[simp] theorem accepted_seq_accepted (f : α → β) (value : α) :
    Checked.accepted f <*> Checked.accepted value = .accepted (f value) := rfl

/-- The problems of the second part are problems of the whole. -/
@[simp] theorem accepted_seq_rejected (f : α → β) (problems : List Problem) :
    Checked.accepted f <*> Checked.rejected problems = .rejected problems := rfl

/-- The problems of the first part are problems of the whole. -/
@[simp] theorem rejected_seq_accepted (problems : List Problem) (value : α) :
    (Checked.rejected problems : Checked (α → β)) <*> Checked.accepted value =
      .rejected problems := rfl

/-- The problems of both parts are problems of the whole, those of the first part first. -/
@[simp] theorem rejected_seq_rejected (problems others : List Problem) :
    (Checked.rejected problems : Checked (α → β)) <*> Checked.rejected others =
      .rejected (problems ++ others) := rfl

/-- An accepted value stays accepted under a key. -/
@[simp] theorem under_accepted (key : String) (value : α) :
    (Checked.accepted value).under key = .accepted value := rfl

/-- Under a key, the places of problems start with that key. -/
@[simp] theorem under_rejected (key : String) (problems : List Problem) :
    (Checked.rejected problems : Checked α).under key =
      .rejected (problems.map fun p => { p with path := key :: p.path }) := rfl

end Checked

end Flowchart.Document
