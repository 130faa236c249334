import Flowchart.Proofs.Outline.Layout
import Flowchart.Proofs.Outline.Written

/-!
# The signature of what was read

The signature of a graph that holds some declared steps is what the declarations say, resolved among
the titles of these steps. A signature is resolved already, so a graph whose signature is legible
has the same signature after it was written and read again.
-/

set_option autoImplicit false

namespace Flowchart.Outline

open Text (OneLine)

namespace StepSignature

/-- The signature without a description that only repeats the title, and without branches to titles
other than the given ones. -/
def resolved (titles : List String) (s : StepSignature) : StepSignature where
  kind := s.kind
  title := s.title
  description := s.description.filter (· != s.title)
  yes := s.yes.filter titles.contains
  no := s.no.filter titles.contains

/-- Resolving a signature keeps the branches that lead to one of the titles. -/
theorem target?_resolved (titles : List String) (s : StepSignature) (b : Branch) :
    (s.resolved titles).target? b = (s.target? b).filter titles.contains := by
  cases b <;> rfl

/-- To be legible again, a resolved signature needs no more than titles that are legible. -/
theorem legible_resolved {titles : List String} {d : Declaration} (h : d.Legible)
    (titled : ∀ t ∈ titles, isTitle t ∧ OneLine t) : (d.signature.resolved titles).Legible where
  kind := h.kind
  label := by
    refine ⟨h.label.title, h.label.noBar, h.label.oneLine, ?_⟩
    intro description given
    exact h.label.description description (Option.filter_eq_some_iff.1 given).1
  target := by
    intro b t leads
    rw [target?_resolved, Option.mem_def, Option.filter_eq_some_iff] at leads
    exact titled t (by simpa using leads.2)
  decision := by
    intro b leads
    rw [target?_resolved, target?_signature] at leads
    apply h.decision b
    cases given : d.target? b with
    | none => simp [given] at leads
    | some target => rfl

end StepSignature

/-- A branch of a held step leads to the title that it names, if one of the held steps has it. -/
theorem branchTarget?_of_holds {g : Graph} {entries : List Entry} (h : Holds g entries) {e : Entry}
    (mem : e ∈ entries) (decision : e.declaration.kind = .decision) (b : Branch) :
    branchTarget? g e.node b =
      ((e.declaration.target? b).map (·.title)).filter (titlesOf entries).contains := by
  have edge : g.branchEdge? e.id b = branchEdgeOf? (idOfTitle? entries) e b := by
    rw [Graph.branchEdge?, ← List.head?_filter, h.filter_edges mem decision b]
    cases branchEdgeOf? (idOfTitle? entries) e b <;> rfl
  unfold branchTarget? branchEdgeOf? at *
  rw [e.id_node, edge]
  cases leads : e.declaration.target? b with
  | none => rfl
  | some target =>
    cases found : idOfTitle? entries target.title with
    | none =>
      -- No step has the title, so there is no edge, and the title is left out.
      have absent := idOfTitle?_eq_none_iff.1 found
      simp [found, Option.filter, absent]
    | some id =>
      obtain ⟨other, inEntries, rfl, titled⟩ := idOfTitle?_eq_some found
      have inGraph : other.node ∈ g.nodes := by
        have step : other.node ∈ g.steps := h.steps ▸ List.mem_map_of_mem inEntries
        exact List.mem_of_mem_filter step
      have present : target.title ∈ titlesOf entries :=
        titled ▸ List.mem_map_of_mem inEntries
      have node : g.firstNode? other.id = some other.node :=
        Graph.firstNode?_of_mem h.distinct inGraph
      have step : other.declaration.kind.isAnchor = false :=
        mem_declarable_iff.1 (h.legible other inEntries).kind
      simp [found, node, step, titled, Option.filter, present]

/-- The signature of a held step is what was declared, resolved among the titles of all of them. -/
theorem stepSignature_of_holds {g : Graph} {entries : List Entry} (h : Holds g entries) {e : Entry}
    (mem : e ∈ entries) :
    stepSignature g e.node = e.declaration.signature.resolved (titlesOf entries) := by
  have legible := h.legible e mem
  apply StepSignature.ext_target?
  · rfl
  · have given : e.declaration.label.description.filter (· != "") =
        e.declaration.label.description := by
      cases text : e.declaration.label.description with
      | none => rfl
      | some description =>
        obtain ⟨titled, -⟩ := legible.label.description description text
        simp [Option.filter, titled.2]
    have kept : e.node.distinctDescription? =
        e.declaration.label.description.filter (· != e.declaration.title) := by
      unfold Node.distinctDescription? Node.givenDescription?
      rw [e.description_node, given, e.title_node]
    exact congrArg (Label.mk e.declaration.title) kept
  · intro b
    rw [target?_stepSignature, StepSignature.target?_resolved, target?_signature]
    by_cases decision : e.declaration.kind = .decision
    · rw [e.kind_node, if_pos decision, branchTarget?_of_holds h mem decision]
    · have noBranch : e.declaration.target? b = none := by
        rw [← Option.not_isSome_iff_eq_none]
        intro leads
        exact decision (legible.decision b leads)
      rw [e.kind_node, if_neg decision, noBranch]
      rfl

/-- The signature of a graph that holds some steps is what they declare, resolved among their
titles. -/
theorem signature_of_holds {g : Graph} {entries : List Entry} (h : Holds g entries) :
    signature g =
      entries.map fun e => e.declaration.signature.resolved (titlesOf entries) := by
  unfold signature
  rw [h.steps, List.map_map]
  apply List.map_congr_left
  intro e mem
  exact stepSignature_of_holds h mem

/-- The titles of the steps of a graph. -/
def signatureTitles (g : Graph) : List String :=
  (signature g).map (·.title)

/-- A branch leads to the title of a step. -/
theorem branchTarget?_eq_some {g : Graph} {n : Node} {b : Branch} {title : String}
    (h : branchTarget? g n b = some title) : ∃ target ∈ g.steps, target.title = title := by
  unfold branchTarget? at h
  simp only [Option.bind_eq_bind, Option.bind_eq_some_iff] at h
  obtain ⟨edge, -, target, found, given⟩ := h
  split at given
  · simp at given
  · rename_i noAnchor
    obtain ⟨inGraph, -⟩ := Graph.mem_of_firstNode? found
    have isStep : target.isStep = true := by simpa [Node.isStep] using noAnchor
    exact ⟨target, List.mem_filter.2 ⟨inGraph, isStep⟩, Option.some.inj given⟩

/-- The signature of a step is resolved already. -/
theorem resolved_stepSignature (g : Graph) (n : Node) :
    (stepSignature g n).resolved (signatureTitles g) = stepSignature g n := by
  apply StepSignature.ext_target?
  · rfl
  · have kept : n.distinctDescription?.filter (· != n.title) = n.distinctDescription? := by
      simp [Node.distinctDescription?, Option.filter_filter]
    exact congrArg (Label.mk n.title) kept
  · intro b
    rw [StepSignature.target?_resolved, target?_stepSignature]
    split
    · cases leads : branchTarget? g n b with
      | none => rfl
      | some title =>
        have step : title ∈ signatureTitles g := by
          obtain ⟨target, inSteps, titled⟩ := branchTarget?_eq_some leads
          unfold signatureTitles signature
          rw [List.map_map, List.mem_map]
          exact ⟨target, inSteps, titled⟩
        simp [Option.filter, step]
    · rfl

/-- Whatever reading comes to has a legible signature. -/
theorem legible_signature_of_read {mode : Mode} {text : String} {title description : Option String}
    {r : Reading} (h : read mode text title description = .ok r) :
    ∀ sig ∈ signature r.graph, sig.Legible := by
  obtain ⟨s, scanned, rfl⟩ := read_eq_ok_iff.1 h
  have holds := holds_readingOf mode title description (legible_of_scan scanned)
  rw [signature_of_holds holds]
  intro sig mem
  obtain ⟨e, inEntries, rfl⟩ := List.mem_map.1 mem
  apply StepSignature.legible_resolved (holds.legible e inEntries)
  intro t titled
  obtain ⟨other, inEntries, rfl⟩ := List.mem_map.1 titled
  have legible := (holds.legible other inEntries).label
  exact ⟨legible.title, legible.oneLine⟩

/-- A graph with a legible signature has the same signature after it was written and read again. -/
theorem signature_read_write (mode : Mode) (title description : Option String) {g : Graph}
    (legible : ∀ sig ∈ signature g, sig.Legible) :
    ∃ r, read mode (write g) title description = .ok r ∧ signature r.graph = signature g := by
  -- The scan declares what the signature says, and resolving that changes nothing more.
  obtain ⟨s, scanned, same, -⟩ := scan_write mode legible
  refine ⟨_, read_eq_ok_iff.2 ⟨s, scanned, rfl⟩, ?_⟩
  have holds := holds_readingOf mode title description (legible_of_scan scanned)
  have declared := declarations_entriesIn mode s.declarations
  have titles : titlesOf (entriesIn mode s.declarations) = signatureTitles g := by
    unfold signatureTitles titlesOf
    rw [← same, List.map_map]
    conv_rhs => rw [← declared, List.map_map]
    rfl
  calc signature (readingOf mode title description s).graph
      = (entriesIn mode s.declarations).map fun e =>
          e.declaration.signature.resolved (signatureTitles g) := by
        rw [signature_of_holds holds, titles]
    _ = (s.declarations.map (·.signature)).map (·.resolved (signatureTitles g)) := by
        conv_rhs => rw [← declared, List.map_map, List.map_map]
        rfl
    _ = (signature g).map (·.resolved (signatureTitles g)) := by rw [same]
    _ = signature g := by
        unfold signature
        rw [List.map_map]
        apply List.map_congr_left
        intro n _
        exact resolved_stepSignature g n

end Flowchart.Outline
