import Flowchart.Chat.Exchange
import Flowchart.Chat.Instructions
import Flowchart.Document.Graph
import Flowchart.Fence
import Flowchart.Outline.Reader
import Flowchart.Outline.Writer

/-!
# Having a flow written or changed

The exchanges in which a language model writes an outline, changes the outline of a flow, or
corrects it. Each of them makes a new graph with fresh ids from the answer. A flow that is changed
or corrected keeps its title and its description.
-/

set_option autoImplicit false

namespace Flowchart

/-- An outline from a language model, and the graph that was read from it. -/
structure Revision where
  outline : String
  reading : Outline.Reading
deriving DecidableEq, Repr

namespace Revision

/-- The graph of a revision. -/
def graph (r : Revision) : Graph := r.reading.graph

/-- The fields of the document of a revision. -/
def fields (r : Revision) : List (String × Json) := [
  ("text", .string r.outline),
  ("graph", r.graph.toJson),
  ("diagnostics", .array (r.reading.diagnostics.map Outline.Diagnostic.toJson))]

/-- Reads an outline that has no wrapping. -/
def ofOutline (mode : Outline.Mode) (outline : String) (title description : Option String := none) :
    Except UnknownName Revision :=
  (Outline.read mode outline title description).map fun reading => { outline, reading }

/-- Reads an answer, in which the outline may stand in a fenced block. -/
def ofAnswer (mode : Outline.Mode) (answer : String) (title description : Option String := none) :
    Except UnknownName Revision :=
  ofOutline mode (Fence.unwrap answer) title description

/-- The revision in an answer, as the outcome of an exchange. -/
def receive (mode : Outline.Mode) (title description : Option String) (answer : String) :
    Except Chat.Failure Revision :=
  (ofAnswer mode answer title description).mapError .name

/-- The messages that ask for an outline, after what was said before. -/
def writingMessages (current : Option String) (history : List Chat.Message) (wish : String) :
    List Chat.Message :=
  ⟨.system, Chat.writingInstructions current⟩ :: history ++ [⟨.user, wish⟩]

/-- Has an outline written, or the given one changed. -/
def write (mode : Outline.Mode) (history : List Chat.Message) (wish : String)
    (current : Option String := none) : Chat.Exchange Revision where
  request := { messages := writingMessages current history wish }
  receive := receive mode none none

/-- Has a flow changed. -/
def refine (mode : Outline.Mode) (history : List Chat.Message) (g : Graph) (wish : String) :
    Chat.Exchange Revision where
  request := { messages := writingMessages (some (Outline.write g)) history wish }
  receive := receive mode (some g.title) g.description

/-- Has a flow corrected, at a temperature of its own. -/
def correct (mode : Outline.Mode) (temperature : Json) (g : Graph) : Chat.Exchange Revision where
  request := {
    messages := [⟨.user, Chat.correctionInstructions (Outline.write g)⟩]
    temperature := some temperature }
  receive := receive mode (some g.title) g.description

end Revision

end Flowchart
