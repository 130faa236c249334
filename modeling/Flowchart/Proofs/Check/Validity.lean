import Flowchart.Proofs.Check.Raised
import Flowchart.Proofs.Outline.RoundTrip

/-!
# Valid flows and their outlines

A flow is valid when it has an output and both branches of every decision lead to nodes. Its outline
shows a branch only if it leads to a step, and what is read from the outline has the branches that
are shown. So a flow that is written and read again is valid if it was valid before and its
decisions branch to steps: a branch to an anchor counts for the checks, but is not written.
-/

set_option autoImplicit false

namespace Flowchart

open Outline

/-! ## What makes a flow valid -/

/-- What the checks ask of a flow: an output, and branches of all decisions that lead to nodes. -/
structure Graph.Sound (g : Graph) : Prop where
  output : ∃ n ∈ g.steps, n.kind = .output
  decision : ∀ d ∈ g.steps, d.kind = .decision →
    ∀ b, ∃ x, g.branchEdge? d.id b = some x ∧ x.target ∈ g.ids

namespace Check

/-- A decision lacks a branch if no edge leaves it by this branch. -/
theorem mem_lacking_iff {g : Graph} {d : Node} {b : Branch} :
    b ∈ lacking g d ↔ g.branchEdge? d.id b = none := by
  have branch : b ∈ Branch.all := by cases b <;> decide
  simp [lacking, branch]

/-- No error can be raised about a flow that is sound. -/
theorem isError_of_raised {g : Graph} (sound : g.Sound) {i : Issue} (raised : Raised g i) :
    i.isError = false := by
  cases raised with
  | noOutput absent =>
    obtain ⟨n, step, output⟩ := sound.output
    exact absurd output (absent n step)
  | @missingBranches d step decision lacks =>
    obtain ⟨b, lacked⟩ := List.exists_mem_of_ne_nil _ lacks
    obtain ⟨x, edge, -⟩ := sound.decision d step decision b
    rw [mem_lacking_iff, edge] at lacked
    simp at lacked
  | @danglingBranch d b x step decision edge lost =>
    obtain ⟨y, found, known⟩ := sound.decision d step decision b
    obtain rfl := Option.some.inj (edge.symm.trans found)
    exact absurd known lost
  | _ => rfl

/-- A report is valid exactly when the flow is sound, however deep the checks go. -/
theorem isValid_report_iff {g : Graph} {deep : Bool} :
    (report g deep).isValid = true ↔ g.Sound := by
  rw [Report.isValid, Bool.not_eq_true', List.any_eq_false]
  constructor
  · intro noError
    -- Errors are found by the checks that are always made.
    have silent {i : Issue} (error : i.isError = true) (shallow : i.finding.isDeep = false) :
        ¬ Raised g i := by
      intro raised
      exact noError i (mem_report_iff.2 ⟨raised, fun deeper => by simp [shallow] at deeper⟩) error
    refine ⟨?_, ?_⟩
    · by_contra absent
      refine silent rfl rfl (.noOutput fun n step output => absent ⟨n, step, output⟩)
    · intro d step decision b
      have present : b ∉ lacking g d := by
        intro lacked
        exact silent rfl rfl (.missingBranches step decision (List.ne_nil_of_mem lacked))
      rw [mem_lacking_iff] at present
      obtain ⟨x, edge⟩ := Option.ne_none_iff_exists'.1 present
      refine ⟨x, edge, ?_⟩
      by_contra lost
      exact silent rfl rfl (.danglingBranch step decision edge lost)
  · intro sound i mem
    simp [isError_of_raised sound (mem_report_iff.1 mem).1]

end Check

/-! ## What a signature says about it -/

/-- No branch of a decision leads to an anchor. -/
def Graph.BranchesToSteps (g : Graph) : Prop :=
  ∀ d ∈ g.steps, d.kind = .decision →
    ∀ b, ∀ x ∈ g.branchEdge? d.id b, ∀ n ∈ g.firstNode? x.target, n.isStep = true

namespace Outline

/-- A flow whose signature shows an output and both branches of every decision. -/
structure Complete (signatures : List StepSignature) : Prop where
  output : ∃ s ∈ signatures, s.kind = .output
  decision : ∀ s ∈ signatures, s.kind = .decision → ∀ b, (s.target? b).isSome

/-- A branch is shown if it leads to a step. -/
theorem isSome_branchTarget?_iff {g : Graph} {n : Node} {b : Branch} :
    (branchTarget? g n b).isSome ↔
      ∃ x, g.branchEdge? n.id b = some x ∧
        ∃ m, g.firstNode? x.target = some m ∧ m.isStep = true := by
  unfold branchTarget?
  cases edge : g.branchEdge? n.id b with
  | none => simp
  | some x =>
    cases node : g.firstNode? x.target with
    | none => simp [node]
    | some m => by_cases anchor : m.kind.isAnchor = true <;> simp [node, Node.isStep, anchor]

/-- A signature is complete exactly if the flow is sound and its branches lead to steps. -/
theorem complete_signature_iff {g : Graph} :
    Complete (signature g) ↔ g.Sound ∧ g.BranchesToSteps := by
  have targets {d : Node} (decision : d.kind = .decision) (b : Branch) :
      (stepSignature g d).target? b = branchTarget? g d b := by
    rw [target?_stepSignature, if_pos decision]
  constructor
  · intro complete
    have shown : ∀ d ∈ g.steps, d.kind = .decision → ∀ b, (branchTarget? g d b).isSome := by
      intro d step decision b
      rw [← targets decision]
      exact complete.decision (stepSignature g d) (List.mem_map_of_mem step) decision b
    refine ⟨⟨?_, ?_⟩, ?_⟩
    · obtain ⟨s, mem, output⟩ := complete.output
      obtain ⟨n, step, rfl⟩ := List.mem_map.1 mem
      exact ⟨n, step, output⟩
    · intro d step decision b
      obtain ⟨x, edge, m, node, -⟩ := isSome_branchTarget?_iff.1 (shown d step decision b)
      obtain ⟨inGraph, same⟩ := Graph.mem_of_firstNode? node
      exact ⟨x, edge, same ▸ List.mem_map_of_mem inGraph⟩
    · intro d step decision b x edge n node
      obtain ⟨y, found, m, leads, isStep⟩ := isSome_branchTarget?_iff.1 (shown d step decision b)
      obtain rfl := Option.some.inj (found.symm.trans edge)
      obtain rfl := Option.some.inj (leads.symm.trans node)
      exact isStep
  · rintro ⟨sound, toSteps⟩
    refine ⟨?_, ?_⟩
    · obtain ⟨n, step, output⟩ := sound.output
      exact ⟨stepSignature g n, List.mem_map_of_mem step, output⟩
    · intro s mem decision b
      obtain ⟨d, step, rfl⟩ := List.mem_map.1 mem
      obtain ⟨x, edge, known⟩ := sound.decision d step decision b
      obtain ⟨m, node⟩ := Graph.firstNode?_of_mem_ids known
      rw [targets decision, isSome_branchTarget?_iff]
      exact ⟨x, edge, m, node, toSteps d step decision b x edge m node⟩

/-! ## Flows that were read -/

/-- In a graph that holds declared steps, branches lead to steps. -/
theorem branchesToSteps_of_holds {g : Graph} {entries : List Entry} (h : Holds g entries) :
    g.BranchesToSteps := by
  intro d _ _ b x edge n node
  rw [Option.mem_def, g.branchEdge?_eq_find?_branchEdges] at edge
  have link : x ∈ edgesIn (links (idOfTitle? entries) entries) := by
    have branch := List.mem_of_find?_eq_some edge
    rw [h.branches] at branch
    exact List.mem_of_mem_filter branch
  obtain ⟨e, inEntries, same⟩ := List.mem_map.1 (target_of_mem_titleLinks link)
  have step : e.node ∈ g.steps := h.steps ▸ List.mem_map_of_mem inEntries
  have first := Graph.firstNode?_of_mem h.distinct (List.mem_of_mem_filter step)
  rw [e.id_node, same] at first
  obtain rfl := Option.some.inj (first.symm.trans node)
  exact (List.mem_filter.1 step).2

/-- In what is read from a text, branches lead to steps. -/
theorem branchesToSteps_of_read {mode : Mode} {text : String} {title description : Option String}
    {r : Reading} (isRead : read mode text title description = .ok r) :
    r.graph.BranchesToSteps := by
  obtain ⟨s, scanned, rfl⟩ := read_eq_ok_iff.1 isRead
  exact branchesToSteps_of_holds (holds_readingOf mode title description (legible_of_scan scanned))

/-- What is read from the outline of a flow is valid exactly if the flow is, and none of its
decisions branches to an anchor. -/
theorem isValid_read_write_iff {g : Graph} (valid : g.HasTitles)
    (writable : ∀ n ∈ g.steps, Writable n) (mode : Mode) :
    ∃ r, read mode (write g) = .ok r ∧
      ((Check.report r.graph).isValid = true ↔
        (Check.report g).isValid = true ∧ g.BranchesToSteps) := by
  obtain ⟨r, isRead, same⟩ :=
    signature_read_write mode none none ((legible_signature_iff valid).2 writable)
  refine ⟨r, isRead, ?_⟩
  rw [Check.isValid_report_iff, Check.isValid_report_iff, ← complete_signature_iff, ← same,
    complete_signature_iff]
  exact (and_iff_left (branchesToSteps_of_read isRead)).symm

/-- A decision that leads to an output or straight to the end. -/
def exitGraph : Graph where
  nodes := [
    { id := "ask", kind := .decision, title := "Paid?" },
    { id := "done", kind := .output, title := "Done" },
    { id := "end", kind := .finish, title := "End" }]
  edges := [
    { source := "ask", target := "done", branch := some .yes },
    { source := "ask", target := "end", branch := some .no }]

/-- Its nodes have titles. -/
theorem hasTitles_exitGraph : exitGraph.HasTitles := by
  unfold Graph.HasTitles isTitle
  decide

/-- Its steps can be written on lines. -/
theorem writable_exitGraph : ∀ n ∈ exitGraph.steps, Writable n := by
  decide

/-- For this flow it comes down to the branch to the end. -/
theorem isValid_read_write_iff_exitGraph : exitGraph.HasTitles ∧
    (∀ n ∈ exitGraph.steps, Writable n) ∧
    ∃ r, read {} (write exitGraph) = .ok r ∧
      ((Check.report r.graph).isValid = true ↔
        (Check.report exitGraph).isValid = true ∧ exitGraph.BranchesToSteps) :=
  ⟨hasTitles_exitGraph, writable_exitGraph,
    isValid_read_write_iff hasTitles_exitGraph writable_exitGraph {}⟩

/-- The flow is valid, but its outline lacks the branch to the end. -/
theorem isValid_exitGraph : exitGraph.HasTitles ∧ (∀ n ∈ exitGraph.steps, Writable n) ∧
    (Check.report exitGraph).isValid = true ∧
      ∃ r, read {} (write exitGraph) = .ok r ∧ (Check.report r.graph).isValid = false := by
  refine ⟨hasTitles_exitGraph, writable_exitGraph, by decide, ?_⟩
  refine ⟨⟨{
    nodes := [
      { id := "node_1", kind := .decision, title := "Paid?" },
      { id := "node_2", kind := .output, title := "Done" }]
    edges := [{ source := "node_1", target := "node_2", branch := some .yes }] }, []⟩, ?_, ?_⟩
  · decide +kernel
  · decide

end Outline

end Flowchart
