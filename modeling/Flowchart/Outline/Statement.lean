import Flowchart.Graph.Basic
import Flowchart.Text.Blank
import Flowchart.Text.Letter

/-!
# The lines of an outline

An outline describes a flow one statement per line. A step is a keyword, a colon and the step's
title, with a description after a bar:

    INPUT: Login data | Email and password
    DECISION: User exists? | Check the store
      YES -> Check password
      NO -> Not found

`Statement.read` says what a single line is on its own. Whether a branch line counts also depends on
the lines before it, which is settled by the reader of whole outlines.
-/

set_option autoImplicit false

namespace Flowchart.Outline

/-- What a step is called: a title, and a description if one is given. -/
structure Label where
  title : String
  description : Option String
deriving DecidableEq, Repr

/-- The label that a text spells out: the title up to the first bar and the description after it,
both trimmed. -/
def Label.ofText (cs : List Char) : Label where
  title := String.ofList (Text.trim (cs.takeWhile (· != '|')))
  description :=
    (some (String.ofList (Text.trim ((cs.dropWhile (· != '|')).drop 1)))).filter (· != "")

/-- What one line says. The keywords are in lower case, but otherwise as they were written. -/
inductive Statement where
  /-- The line is empty or blank. -/
  | blank
  /-- The line declares a step. -/
  | step (keyword : String) (label : Label)
  /-- The line says where a branch leads. -/
  | branch (keyword : String) (target : String)
  /-- The line is none of these. -/
  | prose
deriving DecidableEq, Repr

/-- The kinds that a line can declare. -/
def declarable : List NodeKind := [.input, .process, .decision, .output]

/-- Takes a keyword and a colon from the start of a line: the keyword as written, and what
follows. -/
def stepHead? (line : List Char) : Option (List Char × List Char) :=
  declarable.findSome? fun kind =>
    match Text.takeWord kind.keyword.toList line with
    | some (written, ':' :: payload) => some (written, payload)
    | _ => none

/-- Takes a branch keyword and an arrow from the start of a line: the keyword as written, and what
follows, which must not be empty. -/
def branchHead? (line : List Char) : Option (List Char × List Char) :=
  Branch.all.findSome? fun branch =>
    match Text.takeWord branch.keyword.toList line with
    | some (written, rest) =>
      match rest.dropWhile Text.isBlank with
      | '-' :: '>' :: c :: target => some (written, c :: target)
      | _ => none
    | none => none

/-- A keyword in lower case. -/
def keywordText (written : List Char) : String :=
  String.ofList (Text.lowered written)

/-- The step that a trimmed line declares. A step needs a title. -/
def step? (line : List Char) : Option Statement :=
  match stepHead? line with
  | some (written, payload) =>
    let label := Label.ofText payload
    if label.title = "" then none else some (.step (keywordText written) label)
  | none => none

/-- What a trimmed line says. -/
def Statement.read (line : List Char) : Statement :=
  if line.isEmpty then .blank
  else match step? line with
    | some statement => statement
    | none =>
      match branchHead? line with
      | some (written, target) => .branch (keywordText written) (String.ofList (Text.trim target))
      | none => .prose

end Flowchart.Outline
