import Flowchart.Proofs.Outline.Rewritten

/-!
# Writing and reading again

Two round trips. A graph of any origin keeps its signature exactly when its steps can be written on
lines: no title has a bar or an end of line in it, and no description that is written has blanks at
its ends or an end of line in it. A graph that was read comes back as it was, ids and edges
included, up to descriptions that only repeat a title; this holds although the outline names steps
by titles, since a second step with a title takes all branches to it in both readings.
-/

set_option autoImplicit false

namespace Flowchart.Outline

open Text (OneLine)

/-! ## Signatures -/

/-- A step that can be written on a line: there is no bar and no end of line in its title, and its
description, if it is written at all, is trimmed and has no end of line in it. -/
structure Writable (n : Node) : Prop where
  title : ∀ c ∈ n.title.toList, c ≠ '|' ∧ Text.isLineBreak c = false
  description : ∀ d ∈ n.distinctDescription?, Text.trimmed d = d ∧ OneLine d

instance (n : Node) : Decidable (Writable n) :=
  decidable_of_iff
    ((n.title.toList.all fun c => c != '|' && !Text.isLineBreak c) &&
      n.distinctDescription?.all fun d => Text.trimmed d == d && decide (OneLine d)) <| by
    simp only [Bool.and_eq_true, List.all_eq_true, Option.all_eq_true, bne_iff_ne, beq_iff_eq,
      Bool.not_eq_true', decide_eq_true_eq]
    exact ⟨fun tested => ⟨tested.1, tested.2⟩, fun h => ⟨h.title, h.description⟩⟩

/-- The steps of a graph with titles have titles. -/
theorem isTitle_of_mem_steps {g : Graph} (valid : g.HasTitles) {n : Node} (mem : n ∈ g.steps) :
    isTitle n.title :=
  valid n (List.mem_of_mem_filter mem)

/-- A step with a title can be written on a line exactly if what its signature says is legible. -/
theorem writable_iff {g : Graph} {n : Node} (titled : isTitle n.title) :
    Writable n ↔ (stepSignature g n).label.Legible := by
  constructor
  · intro writable
    refine ⟨titled, ?_, fun c mem => (writable.title c mem).2, ?_⟩
    · intro bar
      exact (writable.title '|' bar).1 rfl
    · intro d written
      obtain ⟨trimmed, oneLine⟩ := writable.description d written
      have given : d ≠ "" := by
        intro empty
        have kept : n.distinctDescription? = some "" := empty ▸ written
        simp [Node.distinctDescription?, Node.givenDescription?] at kept
      exact ⟨⟨trimmed, given⟩, oneLine⟩
  · intro legible
    refine ⟨?_, ?_⟩
    · intro c mem
      refine ⟨?_, legible.oneLine c mem⟩
      rintro rfl
      exact legible.noBar mem
    · intro d written
      obtain ⟨⟨trimmed, -⟩, oneLine⟩ := legible.description d written
      exact ⟨trimmed, oneLine⟩

/-- The signature of a graph with titles is legible when its steps can be written on lines. -/
theorem legible_signature_iff {g : Graph} (valid : g.HasTitles) :
    (∀ sig ∈ signature g, sig.Legible) ↔ ∀ n ∈ g.steps, Writable n := by
  constructor
  · intro legible n mem
    have own := legible (stepSignature g n) (List.mem_map_of_mem mem)
    exact (writable_iff (isTitle_of_mem_steps valid mem)).2 own.label
  · intro writable sig mem
    obtain ⟨n, inSteps, rfl⟩ := List.mem_map.1 mem
    refine ⟨?_, ?_, ?_, ?_⟩
    · have step : n.kind.isAnchor = false := by
        simpa [Node.isStep] using List.of_mem_filter inSteps
      exact mem_declarable_iff.2 step
    · exact (writable_iff (isTitle_of_mem_steps valid inSteps)).1 (writable n inSteps)
    · intro b t leads
      rw [target?_stepSignature] at leads
      split at leads
      · obtain ⟨target, targetInSteps, rfl⟩ := branchTarget?_eq_some leads
        exact ⟨isTitle_of_mem_steps valid targetInSteps,
          fun c inTitle => ((writable target targetInSteps).title c inTitle).2⟩
      · simp at leads
    · intro b leads
      rw [target?_stepSignature] at leads
      split at leads
      · assumption
      · simp at leads

/-- Reading what was written gives the same signature exactly when all steps are writable. -/
theorem signature_read_write_iff {g : Graph} (valid : g.HasTitles) (mode : Mode) :
    (∃ r, read mode (write g) = .ok r ∧ signature r.graph = signature g) ↔
      ∀ n ∈ g.steps, Writable n := by
  rw [← legible_signature_iff valid]
  constructor
  · rintro ⟨r, isRead, same⟩
    rw [← same]
    exact legible_signature_of_read isRead
  · intro legible
    exact signature_read_write mode none none legible

/-- One id for two steps, a branch to an anchor and another one back to the decision itself. -/
def saleGraph : Graph where
  title := "Sale"
  nodes := [
    { id := "a", kind := .decision, title := "Sold?" },
    { id := "b", kind := .finish, title := "End" },
    { id := "a", kind := .output, title := "Invoice", description := some "due|soon" }]
  edges := [
    { source := "a", target := "b", branch := some .yes },
    { source := "a", target := "a", branch := some .no }]

/-- The graph keeps its signature exactly if its steps can be written on lines, though two steps
share an id. -/
theorem signature_read_write_iff_saleGraph : saleGraph.HasTitles ∧
    ((∃ r, read {} (write saleGraph) = .ok r ∧ signature r.graph = signature saleGraph) ↔
      ∀ n ∈ saleGraph.steps, Writable n) := by
  have valid : saleGraph.HasTitles := by
    unfold Graph.HasTitles isTitle
    decide
  exact ⟨valid, signature_read_write_iff valid {}⟩

/-! ## Graphs that were read -/

/-- A graph that was read is the graph that is read from its outline, but for descriptions that only
repeat a title. The second reading finds fault with nothing but repeated titles. -/
theorem read_write_read {m m' : Mode} {text : String} {title description : Option String}
    {r : Reading} (anchors : m.anchors = m'.anchors)
    (isRead : read m text title description = .ok r) :
    ∃ r', read m' (write r.graph) (some r.graph.title) r.graph.description = .ok r' ∧
      r'.graph = plain r.graph ∧ (∀ d ∈ r'.diagnostics, d.kind = .duplicateTitle) ∧
      write r'.graph = write r.graph := by
  have legible := legible_signature_of_read isRead
  obtain ⟨s, scanned, rfl⟩ := read_eq_ok_iff.1 isRead
  have holds := holds_readingOf m title description (legible_of_scan scanned)
  obtain ⟨s', scannedAgain, same, nothingOdd⟩ := scan_write m' legible
  rw [signature_of_holds holds] at same
  have count : s'.declarations.length = s.declarations.length := by
    have lengths := congrArg List.length same
    rw [List.length_map, List.length_map] at lengths
    rw [lengths, ← List.length_map (·.declaration), declarations_entriesIn]
  -- As many steps are numbered from the same source, so each of them gets its old id.
  have rewritten := rewritten_entriesIn anchors.symm count same
  let g := (readingOf m title description s).graph
  have isReadAgain : read m' (write g) (some g.title) g.description =
      .ok (readingOf m' (some g.title) g.description s') :=
    read_eq_ok_iff.2 ⟨s', scannedAgain, rfl⟩
  refine ⟨_, isReadAgain, ?_, ?_, ?_⟩
  · have titles : ((some g.title).filter (· != "")).getD untitled =
        (title.filter (· != "")).getD untitled := by
      have titled : g.title ≠ "" := by
        cases given : title.filter (· != "") with
        | none => simp [g, readingOf, given, untitled]
        | some text =>
          have nonempty := (Option.filter_eq_some_iff.1 given).2
          simpa [g, readingOf, given] using nonempty
      rw [Option.filter_some_pos (by simpa using titled)]
      rfl
    have again : stepGraph m' (some g.title) g.description s'.declarations =
        plain (stepGraph m title description s.declarations) :=
      stepGraph_rewritten titles rewritten
    rw [graph_readingOf, graph_readingOf, anchored_congr anchors.symm count, again, count]
    split
    · exact plain_framed _ _ _
    · rfl
  · intro d mem
    rw [readingOf, nothingOdd, diagnostics_layOutIn, reportsIn_linksIn_rewritten rewritten] at mem
    simp only [List.nil_append, List.append_nil] at mem
    exact kind_of_mem_repeatedTitles mem
  · obtain ⟨r', alsoRead, signatures⟩ :=
      signature_read_write m' (some g.title) g.description legible
    rw [isReadAgain] at alsoRead
    obtain rfl := Except.ok.inj alsoRead
    unfold write
    rw [outlineLines_eq, outlineLines_eq, signatures]

/-- Both steps are called the same, and the first one says nothing but that. -/
def orderReading : Reading where
  graph := {
    nodes := [
      { id := "node_1", kind := .input, title := "Order", description := some "Order" },
      { id := "node_2", kind := .process, title := "Order", description := some "Pack it" }]
    edges := [{ source := "node_1", target := "node_2" }] }
  diagnostics := [⟨.repeatedTitle "Order", 2, "Order"⟩]

/-- What was read comes back without the description that repeats the title, and nothing but
repeated titles is reported. -/
theorem read_write_read_orderReading :
    read ⟨false, true⟩ "INPUT: Order | Order\nOrder | Pack it" = .ok orderReading ∧
      ∃ r', read {} (write orderReading.graph) (some orderReading.graph.title)
          orderReading.graph.description = .ok r' ∧
        r'.graph = plain orderReading.graph ∧
        (∀ d ∈ r'.diagnostics, d.kind = .duplicateTitle) ∧
        write r'.graph = write orderReading.graph := by
  have isRead : read ⟨false, true⟩ "INPUT: Order | Order\nOrder | Pack it" = .ok orderReading := by
    decide +kernel
  exact ⟨isRead, read_write_read (by rfl) isRead⟩

end Flowchart.Outline
