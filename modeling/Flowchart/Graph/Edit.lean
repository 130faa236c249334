import Flowchart.Graph.Name

/-!
# Editing a graph in place

Changes to a graph by position. A position is an integer: from zero it counts from the front, below
zero from the back. Nothing is checked about the graph that comes out, so an edited graph may hold
an empty title, and its edges may lead nowhere.
-/

set_option autoImplicit false

namespace Flowchart

/-- Why a change was refused. -/
inductive EditError where
  /-- There is nothing to remove. -/
  | nothingToRemove
  /-- The item to be removed does not exist. -/
  | noSuchItemToRemove
  /-- The item to be changed does not exist. -/
  | noSuchItem
deriving DecidableEq, Repr

/-- The wording of a refusal. -/
def EditError.message : EditError → String
  | nothingToRemove => "pop from empty list"
  | noSuchItemToRemove => "pop index out of range"
  | noSuchItem => "list index out of range"

namespace Edit

/-- The place from the front that a position means in a list of a given length. -/
def place? (length : Nat) (position : Int) : Option Nat :=
  let fromFront := if position < 0 then position + length else position
  if 0 ≤ fromFront && fromFront < length then some fromFront.toNat else none

/-- Puts an item before a position. Positions beyond the ends mean the ends. -/
def insert {α : Type} (items : List α) (position : Int) (item : α) : List α :=
  let fromFront := if position < 0 then position + items.length else position
  let before := min fromFront.toNat items.length
  items.take before ++ item :: items.drop before

/-- Puts an item before a position, or at the end if no position is given. -/
def insert? {α : Type} (items : List α) (position : Option Int) (item : α) : List α :=
  match position with
  | some position => insert items position item
  | none => items ++ [item]

/-- Takes the item at a position out. -/
def remove {α : Type} (items : List α) (position : Int) : Except EditError (List α) :=
  if items.isEmpty then .error .nothingToRemove
  else match place? items.length position with
    | some place => .ok (items.eraseIdx place)
    | none => .error .noSuchItemToRemove

/-- Changes the item at a position. That there is such an item is settled before the change is
tried. -/
def change {α ε : Type} (refusal : EditError → ε) (items : List α) (position : Int)
    (f : α → Except ε α) : Except ε (List α) :=
  match place? items.length position with
  | none => .error (refusal .noSuchItem)
  | some place =>
    match items[place]? with
    | none => .error (refusal .noSuchItem)
    | some item => (f item).map (items.set place)

end Edit

/-- Why a change to a node or an edge was refused. -/
inductive ChangeError where
  | position (error : EditError)
  | name (error : UnknownName)
deriving DecidableEq, Repr

/-- The wording of a refusal. -/
def ChangeError.message : ChangeError → String
  | position error => error.message
  | name error => error.message

namespace Graph

/-- Puts a node before a position, or at the end. -/
def insertNode (g : Graph) (position : Option Int) (n : Node) : Graph :=
  { g with nodes := Edit.insert? g.nodes position n }

/-- Puts an edge before a position, or at the end. -/
def insertEdge (g : Graph) (position : Option Int) (e : Edge) : Graph :=
  { g with edges := Edit.insert? g.edges position e }

/-- Takes the node at a position out. -/
def removeNode (g : Graph) (position : Int) : Except EditError Graph :=
  (Edit.remove g.nodes position).map fun nodes => { g with nodes }

/-- Takes the edge at a position out. -/
def removeEdge (g : Graph) (position : Int) : Except EditError Graph :=
  (Edit.remove g.edges position).map fun edges => { g with edges }

/-- Changes the node at a position. -/
def changeNode (g : Graph) (position : Int) (f : Node → Except UnknownName Node) :
    Except ChangeError Graph :=
  (Edit.change .position g.nodes position fun n => (f n).mapError .name).map fun nodes =>
    { g with nodes }

/-- Changes the edge at a position. -/
def changeEdge (g : Graph) (position : Int) (f : Edge → Except UnknownName Edge) :
    Except ChangeError Graph :=
  (Edit.change .position g.edges position fun e => (f e).mapError .name).map fun edges =>
    { g with edges }

end Graph

end Flowchart
