import Flowchart.Proofs.Flow.Reworded
import Flowchart.Proofs.Text.Length
import Flowchart.Proofs.Text.Trimming

/-!
# When anchors speak in a prompt

A prompt keeps its words under any rewording of the anchors only if all branches run between steps.
Where a branch ends at an anchor, giving every anchor a longer title makes the section about the
branches longer, and it is the only section that changes.
-/

set_option autoImplicit false

namespace Flowchart

/-! ## Longer titles on the anchors -/

/-- A word of one letter, however often it is repeated, is a title. -/
theorem isTitle_replicate (k : Nat) : isTitle (String.ofList (List.replicate (k + 1) 'x')) := by
  have visible : ∀ c ∈ List.replicate (k + 1) 'x', Text.isBlank c = false := by
    intro c mem
    rw [List.eq_of_mem_replicate mem]
    rfl
  constructor
  · rw [Text.trimmed_eq_self_iff, String.toList_ofList]
    exact Text.trim_eq_self (fun c first => visible c (List.mem_of_head? first))
      fun c last => visible c (List.mem_of_getLast? last)
  · simp

namespace Node

/-- The node with a title that is longer than its own, unless it is a step. -/
def lengthened (n : Node) : Node :=
  if n.isStep then n
  else { n with title := String.ofList (List.replicate (n.title.length + 1) 'x') }

/-- A lengthened node is a reworded one. -/
theorem reworded_lengthened (n : Node) : Reworded n n.lengthened := by
  unfold lengthened
  split
  · exact .same n
  · rename_i isAnchor
    exact .anchor (by simpa using isAnchor) (isTitle_replicate _) n.description

/-- The title of an anchor gets longer. -/
theorem length_title_lt {n : Node} (isAnchor : n.isStep = false) :
    n.title.length < n.lengthened.title.length := by
  simp [lengthened, isAnchor]

/-- No title gets shorter. -/
theorem length_title_le (n : Node) : n.title.length ≤ n.lengthened.title.length := by
  cases step : n.isStep with
  | true => simp [lengthened, step]
  | false => exact (length_title_lt step).le

end Node

namespace Graph

/-- The graph with longer titles on its anchors. -/
def lengthened (g : Graph) : Graph := { g with nodes := g.nodes.map Node.lengthened }

/-- A lengthened graph is a reworded one. -/
theorem reworded_lengthened (g : Graph) : g.Reworded g.lengthened where
  title := rfl
  description := rfl
  edges := rfl
  nodes := by
    unfold lengthened
    rw [List.forall₂_map_right_iff, List.forall₂_same]
    intro n _
    exact n.reworded_lengthened

/-- What is found under an id is the lengthened node. -/
theorem lastNode?_lengthened (g : Graph) (id : String) :
    g.lengthened.lastNode? id = (g.lastNode? id).map Node.lengthened := by
  have sameId : (fun n : Node => n.id == id) ∘ Node.lengthened = fun n => n.id == id := by
    funext n
    rw [Function.comp_apply, n.reworded_lengthened.id]
  unfold lastNode? lengthened
  rw [← List.map_reverse, List.find?_map, sameId]

end Graph

/-! ## How long the lines are -/

namespace Prompt

variable {g : Graph}

open Text (totalLength)

/-- How long the line about an edge is, with the line feed behind it. -/
def branchLength (g : Graph) (x : Edge) : Nat :=
  ((branchLine? g x).map fun line => line.length + 1).getD 0

/-- The name of an anchor gets longer. -/
theorem length_nameOf_lt {id : String} {n : Node} (found : g.lastNode? id = some n)
    (isAnchor : n.isStep = false) : (nameOf g id).length < (nameOf g.lengthened id).length := by
  unfold nameOf
  rw [g.lastNode?_lengthened, found]
  exact Node.length_title_lt isAnchor

/-- No name gets shorter. -/
theorem length_nameOf_le (g : Graph) (id : String) :
    (nameOf g id).length ≤ (nameOf g.lengthened id).length := by
  unfold nameOf
  rw [g.lastNode?_lengthened]
  cases g.lastNode? id with
  | none => rfl
  | some n => exact n.length_title_le

/-- The line about a branch is as long as the names at its ends make it. -/
theorem branchLength_eq {x : Edge} {b : Branch} (branch : x.branch = some b) (g : Graph) :
    branchLength g x = (nameOf g x.source).length + (nameOf g x.target).length +
      ("- **" ++ b.keyword ++ ":** \"" ++ "\" → \"" ++ "\"").length + 1 := by
  simp only [branchLength, branchLine?, branch, Option.map_some, Option.getD_some,
    String.length_append]
  omega

/-- No line about a branch gets shorter. -/
theorem branchLength_le (g : Graph) (x : Edge) :
    branchLength g x ≤ branchLength g.lengthened x := by
  cases branch : x.branch with
  | none => simp [branchLength, branchLine?, branch]
  | some b =>
    have source := length_nameOf_le g x.source
    have target := length_nameOf_le g x.target
    rw [branchLength_eq branch, branchLength_eq branch]
    omega

/-- A line about a branch that touches an anchor gets longer. -/
theorem branchLength_lt {x : Edge} {b : Branch} (branch : x.branch = some b) {id : String}
    (atEnd : id ∈ [x.source, x.target]) {n : Node} (found : g.lastNode? id = some n)
    (isAnchor : n.isStep = false) : branchLength g x < branchLength g.lengthened x := by
  have longer := length_nameOf_lt found isAnchor
  have source := length_nameOf_le g x.source
  have target := length_nameOf_le g x.target
  rw [branchLength_eq branch, branchLength_eq branch]
  rcases List.mem_pair.1 atEnd with rfl | rfl
  · omega
  · omega

/-- The section about the branches is as long as its lines, and its heading if it has any. -/
theorem totalLength_branchLines {x : Edge} (mem : x ∈ g.branchEdges) :
    totalLength (branchLines g) =
      totalLength ["", "## DECISION BRANCHES"] + (g.branchEdges.map (branchLength g)).sum := by
  have lines : (g.branchEdges.map (branchLength g)).sum =
      totalLength (g.branchEdges.filterMap (branchLine? g)) :=
    (Text.totalLength_filterMap _ _).symm
  rw [lines]
  unfold branchLines
  rw [filterMap_branchLine?]
  cases listed : g.branchEdges.filterMap (branchLine? g) with
  | nil =>
    obtain ⟨b, branch⟩ := Option.isSome_iff_exists.1 (List.mem_filter.1 mem).2
    have silent := List.filterMap_eq_nil_iff.1 listed x mem
    simp [branchLine?, branch] at silent
  | cons first rest => exact Text.totalLength_append ["", "## DECISION BRANCHES"] (first :: rest)

/-- Two prompts that differ in the section about the branches only are equally long only if these
sections are. -/
theorem totalLength_branchLines_eq {h : Graph} (r : g.Reworded h) {o : Options}
    (same : render h o = render g o) :
    totalLength (branchLines h) = totalLength (branchLines g) := by
  have nonempty (k : Graph) : parts k o ≠ [] := by simp [parts, roleLines]
  have lengths : totalLength (parts h o) = totalLength (parts g o) := by
    rw [← Text.length_unlines (nonempty h), ← Text.length_unlines (nonempty g)]
    exact congrArg (·.length + 1) same
  rw [parts_reworded r] at lengths
  unfold parts at lengths
  simp only [Text.totalLength_append] at lengths
  omega

/-- If no rewording of the anchors changes the prompts, all branches run between steps. -/
theorem branchesBetweenSteps_of_render (same : render g.lengthened {} = render g {}) :
    g.BranchesBetweenSteps := by
  intro x mem id atEnd n found
  by_contra isAnchor
  obtain ⟨b, branch⟩ := Option.isSome_iff_exists.1 (List.mem_filter.1 mem).2
  have longer : (g.branchEdges.map (branchLength g)).sum <
      (g.branchEdges.map (branchLength g.lengthened)).sum := by
    apply List.sum_lt_sum
    · intro y _
      exact branchLength_le g y
    · exact ⟨x, mem, branchLength_lt branch atEnd found (by simpa using isAnchor)⟩
  have equal := totalLength_branchLines_eq g.reworded_lengthened same
  rw [totalLength_branchLines mem,
    totalLength_branchLines (show x ∈ g.lengthened.branchEdges from mem)] at equal
  have sameEdges : g.lengthened.branchEdges = g.branchEdges := rfl
  rw [sameEdges] at equal
  omega

end Prompt

/-! ## Which texts leave the anchors out -/

/-- What the anchors say is never seen in an outline, in a diagram or in the instructions for a
review. It is never seen in a prompt either if and only if all branches run between steps. -/
theorem texts_reworded_iff (g : Graph) :
    (∀ h, g.Reworded h →
      Outline.write h = Outline.write g ∧
      (∀ direction, Diagram.render h direction = Diagram.render g direction) ∧
      ∀ prompt, Review.reviewInstructions prompt (some h) =
        Review.reviewInstructions prompt (some g)) ∧
    ((∀ h, g.Reworded h → ∀ o, Prompt.render h o = Prompt.render g o) ↔
      g.BranchesBetweenSteps) := by
  refine ⟨fun h r => ⟨?_, ?_, ?_⟩, ?_⟩
  · exact Outline.write_reworded r
  · exact Diagram.render_reworded r
  · exact Review.reviewInstructions_reworded r
  · constructor
    · intro unseen
      exact Prompt.branchesBetweenSteps_of_render (unseen _ g.reworded_lengthened {})
    · intro between h r o
      exact Prompt.render_reworded r between o

/-- A decision whose yes branch leads to the end of the flow, with the given words there. -/
def endedGraph (words : String) : Graph where
  nodes := [⟨"ask", .decision, "Paid?", none, none⟩, ⟨"end", .finish, words, none, none⟩]
  edges := [⟨"ask", "end", some .yes⟩]

/-- The prompt for a flow whose branch leads to an anchor repeats the words of the anchor. -/
theorem render_endedGraph :
    (endedGraph "End").ids.Nodup ∧ (endedGraph "End").HasTitles ∧
      (endedGraph "End").Reworded (endedGraph "Secret") ∧
      Prompt.render (endedGraph "Secret") {} ≠ Prompt.render (endedGraph "End") {} := by
  refine ⟨by decide, ?_, ?_, by decide +kernel⟩
  · unfold Graph.HasTitles isTitle
    decide
  · refine ⟨rfl, rfl, rfl, .cons (.same _) (.cons ?_ .nil)⟩
    exact .anchor rfl ⟨by decide, by decide⟩ none

end Flowchart
