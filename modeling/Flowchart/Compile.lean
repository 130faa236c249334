import Flowchart.Prompt.Render

/-!
# Everything made from a flow

The prompt and the diagram of a flow together, with the outcome of checking the diagram.
-/

set_option autoImplicit false

namespace Flowchart

/-- What is made from a flow. -/
structure Compiled where
  prompt : String
  diagram : String
  diagramIsSound : Bool
deriving DecidableEq, Repr

/-- Makes the prompt and the diagram of a flow. -/
def Graph.compile (g : Graph) (o : Prompt.Options := {}) : Compiled :=
  let diagram := Diagram.render g Diagram.topDown
  { prompt := Prompt.render g o, diagram, diagramIsSound := Diagram.isDiagram diagram }

end Flowchart
