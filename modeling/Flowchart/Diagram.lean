import Flowchart.Text.Blank
import Flowchart.Text.Letter
import Flowchart.Text.Lines
import Flowchart.Walk.ReadingOrder

/-!
# Mermaid diagrams

A flow as a Mermaid flowchart: a directive, a line for every step in reading order, and a line for
every edge between steps. Ids are made safe for Mermaid, and labels are written so that no title can
close its shape. `isDiagram` is the check that a text at least starts as a flowchart does and holds
nothing that a page could take for markup.
-/

set_option autoImplicit false

namespace Flowchart.Diagram

/-- The characters that an identifier may hold. -/
def isIdentifierChar (c : Char) : Bool :=
  c.isAlphanum || c = '_'

/-- Whether a text is the word that ends a block, without regard to case. -/
def isReserved (cs : List Char) : Bool :=
  cs.map Char.toLower == "end".toList

/-- An id with an underscore for every character that an identifier may not hold. -/
def maskedId (id : String) : List Char :=
  id.toList.map fun c => if isIdentifierChar c then c else '_'

/-- A Mermaid identifier for an id: it starts with no digit, and is not the reserved word. -/
def identifier (id : String) : String :=
  let masked := maskedId id
  let headed := match masked with
    | [] => "n_".toList
    | c :: _ => if c.isDigit then "n_".toList ++ masked else masked
  String.ofList (if isReserved headed then headed ++ "_node".toList else headed)

/-- The entity code of a character that a label may not hold, or else the character. -/
def labelChar (c : Char) : List Char :=
  if c = '\x22' then "#quot;".toList
  else if c = '<' then "#lt;".toList
  else if c = '>' then "#gt;".toList
  else if c = '\x60' then "#96;".toList
  else [c]

/-- A title as a label: on one line, with entity codes for quotes, angle brackets and backticks. -/
def label (title : String) : String :=
  String.ofList ((Text.collapse title.toList).flatMap labelChar)

/-- What is written before and after the label of a node to give it its shape. Anchors have none. -/
def shape? : NodeKind → Option (String × String)
  | .input => some ("[/\"", "\"/]")
  | .process => some ("[\"", "\"]")
  | .decision => some ("\x7b\"", "\"\x7d")
  | .output => some ("([\"", "\"])")
  | .start | .finish => none

/-- The line about a node, if nodes of its kind are drawn. -/
def nodeLine? (n : Node) : Option String :=
  (shape? n.kind).map fun (opening, closing) =>
    "  " ++ identifier n.id ++ opening ++ label n.title ++ closing

/-- The line about an edge, if both its ends are steps. -/
def edgeLine? (g : Graph) (e : Edge) : Option String := do
  let source ← g.lastNode? e.source
  let target ← g.lastNode? e.target
  if source.kind.isAnchor || target.kind.isAnchor then none
  else
    let branch := match e.branch with
      | some branch => "|" ++ branch.keyword ++ "|"
      | none => ""
    some ("  " ++ identifier source.id ++ " -->" ++ branch ++ " " ++ identifier target.id)

/-- The direction of a diagram that was given none: from the top down. -/
def topDown : String := "TD"

/-- The lines of a diagram. -/
def diagramLines (g : Graph) (direction : String) : List String :=
  ("flowchart " ++ direction) :: g.inReadingOrder.filterMap nodeLine? ++
    g.edges.filterMap (edgeLine? g)

/-- The diagram of a flow. -/
def render (g : Graph) (direction : String) : String :=
  Text.unlines (diagramLines g direction)

/-- The directions that a diagram can have. -/
def directions : List String := ["TD", "LR", "TB", "RL", "BT"]

/-- Whether a trimmed line is a directive: the word, white space and a direction. -/
def isDirective (line : List Char) : Bool :=
  match Text.takeWord "flowchart".toList line with
  | none => false
  | some (_, rest) =>
    match rest with
    | [] => false
    | c :: _ =>
      Text.isBlank c && directions.any fun direction =>
        match Text.takeWord direction.toList (rest.dropWhile Text.isBlank) with
        | some (_, []) => true
        | _ => false

/-- What a diagram may not hold: the start of a script, of a closing tag, or of a fence. -/
def forbidden : List String := ["<script", "</", "\x60\x60\x60"]

/-- Whether a text looks like a harmless diagram: its first line that is not blank is a directive,
and nothing forbidden stands in it. -/
def isDiagram (text : String) : Bool :=
  let cs := text.toList
  match (Text.lines cs).find? fun line => !line.all Text.isBlank with
  | none => false
  | some line =>
    isDirective (Text.trim line) && forbidden.all fun word => !Text.mentions word.toList cs

end Flowchart.Diagram
