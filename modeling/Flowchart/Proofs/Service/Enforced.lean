import Flowchart.Proofs.Check.Validity
import Flowchart.Service.Handler

/-!
# One verdict on a flow

Whether a flow is valid is asked at several places: by whoever checks it, deeply or not, by whoever
will not go on with a flow that is not valid, and by the service when it is told to refuse such a
flow. The flow is checked anew each time. All places come to the same verdict, and what they say
about a flow that is not valid are the errors of its report.
-/

set_option autoImplicit false

namespace Flowchart

/-! ## The edge of a branch -/

/-- The edge that stands for a branch of the node with an id: of all edges that leave the id by the
branch, the one that was declared first. -/
structure Graph.Branches (g : Graph) (id : String) (b : Branch) (x : Edge) : Prop where
  leaves : x.source = id ∧ x.branch = some b
  first : ∃ before after, g.edges = before ++ x :: after ∧
    ∀ y ∈ before, ¬ (y.source = id ∧ y.branch = some b)

/-- The edge that is looked up for a branch is the one that stands for it. -/
theorem Graph.branchEdge?_eq_some_iff {g : Graph} {id : String} {b : Branch} {x : Edge} :
    g.branchEdge? id b = some x ↔ g.Branches id b x := by
  have leaves {y : Edge} :
      (y.source == id && y.branch == some b) = true ↔ y.source = id ∧ y.branch = some b := by
    rw [Bool.and_eq_true, beq_iff_eq, beq_iff_eq]
  simp only [Graph.branchEdge?, List.find?_eq_some_iff_append, Bool.not_eq_true', Bool.eq_false_iff,
    ne_eq, leaves]
  constructor
  · rintro ⟨here, first⟩
    exact ⟨here, first⟩
  · rintro ⟨here, first⟩
    exact ⟨here, first⟩

/-- A flow is sound if it has an output and all branches of its decisions lead to nodes. -/
theorem Graph.sound_iff {g : Graph} :
    g.Sound ↔ (∃ n ∈ g.steps, n.kind = .output) ∧ ∀ d ∈ g.nodes, d.kind = .decision →
      ∀ b, ∃ x, g.Branches d.id b x ∧ ∃ n ∈ g.nodes, n.id = x.target := by
  -- A decision is no anchor, so it is the same to ask this of the decisions among the steps.
  have step {d : Node} (decision : d.kind = .decision) : d ∈ g.steps ↔ d ∈ g.nodes := by
    simp [Graph.steps, Node.isStep, decision, NodeKind.isAnchor]
  have known {id : String} : id ∈ g.ids ↔ ∃ n ∈ g.nodes, n.id = id := List.mem_map
  constructor
  · rintro ⟨output, branches⟩
    refine ⟨output, ?_⟩
    intro d mem decision b
    obtain ⟨x, edge, target⟩ := branches d ((step decision).2 mem) decision b
    exact ⟨x, Graph.branchEdge?_eq_some_iff.1 edge, known.1 target⟩
  · rintro ⟨output, branches⟩
    refine ⟨output, ?_⟩
    intro d mem decision b
    obtain ⟨x, edge, target⟩ := branches d ((step decision).1 mem) decision b
    exact ⟨x, Graph.branchEdge?_eq_some_iff.2 edge, known.2 target⟩

namespace Check

/-! ## What deep checks add -/

/-- What only a deep check looks for is a warning. -/
theorem severity_of_isDeep {i : Issue} (deep : i.finding.isDeep = true) :
    i.severity = .warning := by
  obtain ⟨finding, node⟩ := i
  cases finding with
  | unreachable | loop => rfl
  | _ => cases deep

/-- A deep check adds its issues behind the others. -/
theorem issues_report_deep (g : Graph) :
    (report g true).issues = (report g).issues ++ (allReachable g ++ noLoop g) := by
  simp [report]

/-! ## Refusals -/

/-- A report is passed on if it is valid. -/
theorem orRefusal_eq_ok_iff {r s : Report} :
    r.orRefusal = .ok s ↔ r.isValid = true ∧ s = r := by
  cases valid : r.isValid <;> simp [Report.orRefusal, valid, eq_comm]

/-- A report that is not valid is refused for its errors. -/
theorem orRefusal_eq_error_iff {r : Report} {refusal : Refusal} :
    r.orRefusal = .error refusal ↔ r.isValid = false ∧ refusal.errors = r.errors := by
  obtain ⟨errors⟩ := refusal
  cases valid : r.isValid <;> simp [Report.orRefusal, valid, eq_comm]

end Check

/-! ## The verdict of the service -/

namespace Service

open Check

/-- A flow that has to be valid is refused for the errors of its report, or handled as if it did not
have to be. -/
theorem compile_enforced (g : Graph) (o : Prompt.Options) :
    compile ⟨g, o, true⟩ =
      if (report g).isValid then compile ⟨g, o, false⟩ else refused ⟨(report g).errors⟩ := by
  cases valid : (report g).isValid with
  | true =>
    have passed : require g = .ok (report g) := orRefusal_eq_ok_iff.2 ⟨valid, rfl⟩
    simp [compile, passed]
  | false =>
    have failed : require g = .error ⟨(report g).errors⟩ := orRefusal_eq_error_iff.2 ⟨valid, rfl⟩
    simp [compile, failed]

/-- The verdict on a flow, from the flow itself and wherever it is asked for. -/
structure OneVerdict (g : Graph) : Prop where
  /-- A flow is valid if it has an output and all branches of its decisions lead to nodes. -/
  valid : (report g).isValid = true ↔
    (∃ n ∈ g.steps, n.kind = .output) ∧ ∀ d ∈ g.nodes, d.kind = .decision →
      ∀ b, ∃ x, g.Branches d.id b x ∧ ∃ n ∈ g.nodes, n.id = x.target
  /-- Deep checks have only warnings to add, behind all other issues. -/
  deeper : ∃ more, (report g true).issues = (report g).issues ++ more ∧
    ∀ i ∈ more, i.severity = .warning
  /-- A flow that is valid passes. -/
  passed : ∀ r, require g = .ok r ↔ (report g).isValid = true ∧ r = report g
  /-- A flow that is not valid is refused for all its errors, in the order of the report. -/
  failed : ∀ refusal, require g = .error refusal ↔ (report g).isValid = false ∧
    refusal.errors = (report g).issues.filter fun i => i.severity == .error
  /-- The service refuses just the flows that are not valid. -/
  refused : ∀ o, (compile ⟨g, o, true⟩).status = 422 ↔ (report g).isValid = false
  /-- It tells the same errors of them, and handles all others as if it did not refuse any. -/
  told : ∀ o, compile ⟨g, o, true⟩ =
    if (report g).isValid then compile ⟨g, o, false⟩
    else
      let errors := (report g).issues.filter fun i => i.severity == .error
      ⟨422, .object [("detail", .object [
        ("message", .string (Refusal.message ⟨errors⟩)),
        ("issues", .array (errors.map Issue.toJson))])]⟩

/-- Wherever the verdict on a flow is asked for, it is the same. -/
theorem oneVerdict (g : Graph) : OneVerdict g where
  valid := isValid_report_iff.trans Graph.sound_iff
  deeper := by
    refine ⟨allReachable g ++ noLoop g, issues_report_deep g, ?_⟩
    intro i mem
    exact severity_of_isDeep (mem_deep_iff.1 mem).2
  passed := fun r => orRefusal_eq_ok_iff
  failed := fun refusal => orRefusal_eq_error_iff
  refused := by
    intro o
    rw [compile_enforced]
    cases valid : (report g).isValid with
    | true => simp [compile, compiled, Response.ok]
    | false => simp [refused, Response.detail]
  told := compile_enforced g

end Service

end Flowchart
