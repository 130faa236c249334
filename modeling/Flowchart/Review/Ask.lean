import Flowchart.Chat.Exchange
import Flowchart.Prompt.Render
import Flowchart.Review.Answer
import Flowchart.Review.Instructions

/-!
# Having a prompt reviewed

The exchange in which a language model reviews an implementation prompt.
-/

set_option autoImplicit false

namespace Flowchart.Review

/-- Has a prompt for a flow reviewed. The answer may be as deep as the caller allows. -/
def ask (g : Graph) (prompt : String) (depth : Nat := Json.maxDepth) :
    Chat.Exchange Assessment where
  request := { messages := [
    ⟨.system, reviewerRole⟩,
    ⟨.user, reviewInstructions prompt (some g)⟩] }
  receive := fun answer => readAnswer answer depth

/-- Has the given prompt for a flow reviewed, or the flow's own prompt if none is given. -/
def askAbout (g : Graph) (prompt : Option String) (o : Prompt.Options := {})
    (depth : Nat := Json.maxDepth) : Chat.Exchange Assessment :=
  ask g (prompt.getD (Prompt.render g o)) depth

end Flowchart.Review
