import Flowchart.Outline.Declaration
import Flowchart.Proofs.Outline.Keyword
import Flowchart.Proofs.Outline.Lines

/-!
# Scanning what was written

The outline of a graph is made of the lines of its step signatures, and scanning the lines of some
legible signatures declares steps that say the same signatures and finds nothing odd.
-/

set_option autoImplicit false

namespace Flowchart.Outline

open Text (OneLine)

/-- What a declaration says, apart from the numbers of its lines. -/
def Declaration.signature (d : Declaration) : StepSignature where
  kind := d.kind
  title := d.title
  description := d.label.description
  yes := d.yes.map (·.title)
  no := d.no.map (·.title)

namespace StepSignature

/-- The label of the step. -/
def label (s : StepSignature) : Label := ⟨s.title, s.description⟩

/-- The title that a branch of the step leads to. -/
def target? (s : StepSignature) : Branch → Option String
  | .yes => s.yes
  | .no => s.no

/-- The line about a branch, if the branch leads anywhere. -/
def branchLine? (s : StepSignature) (b : Branch) : Option String :=
  ((s.target? b).filter (· != "")).map (branchLine b)

/-- The lines of an outline that say the same. -/
def lines (s : StepSignature) : List String :=
  (s.kind.keyword ++ ": " ++ s.label.shown) :: Branch.all.filterMap s.branchLine?

/-- A signature that can be read from its lines: its label is legible, its branches lead to titles,
and only a decision has branches. -/
structure Legible (s : StepSignature) : Prop where
  kind : s.kind ∈ declarable
  label : s.label.Legible
  target : ∀ b, ∀ t ∈ s.target? b, isTitle t ∧ OneLine t
  decision : ∀ b, (s.target? b).isSome → s.kind = .decision

/-- The lines of a legible signature are lines indeed. -/
theorem Legible.ne_empty_and_oneLine {s : StepSignature} (h : s.Legible) {line : String}
    (mem : line ∈ s.lines) : line ≠ "" ∧ OneLine line := by
  rcases List.mem_cons.1 mem with rfl | isBranch
  · refine ⟨?_, oneLine_step h.label⟩
    intro empty
    simpa using congrArg String.toList empty
  · obtain ⟨b, -, shown⟩ := List.mem_filterMap.1 isBranch
    obtain ⟨target, leads, rfl⟩ := Option.map_eq_some_iff.1 shown
    obtain ⟨given, -⟩ := Option.filter_eq_some_iff.1 leads
    refine ⟨?_, oneLine_branch b (h.target b target given).2⟩
    intro empty
    simpa [branchLine] using congrArg String.toList empty

end StepSignature

/-- The step with a branch leading somewhere, or as it is. -/
def Declaration.withTarget? (d : Declaration) (b : Branch) (target : Option Target) : Declaration :=
  target.elim d (d.withTarget b)

/-- A branch that is given to a step leaves its kind as it is. -/
theorem kind_withTarget? (d : Declaration) (b : Branch) (target : Option Target) :
    (d.withTarget? b target).kind = d.kind := by
  cases target <;> cases b <;> rfl

/-- A branch that is given to a step leaves its label as it is. -/
theorem label_withTarget? (d : Declaration) (b : Branch) (target : Option Target) :
    (d.withTarget? b target).label = d.label := by
  cases target <;> cases b <;> rfl

/-- Giving a branch to a step that lacks it settles that branch and no other. -/
theorem target?_withTarget? {d : Declaration} {b : Branch} (free : d.target? b = none)
    (target : Option Target) (other : Branch) :
    (d.withTarget? b target).target? other = if other = b then target else d.target? other := by
  cases target with
  | none =>
    by_cases same : other = b
    · rw [if_pos same, same]
      exact free
    · rw [if_neg same]
      rfl
  | some target => cases b <;> cases other <;> rfl

/-- Signatures with the same kind, label and branches are the same. -/
theorem StepSignature.ext_target? {s t : StepSignature} (kind : s.kind = t.kind)
    (label : s.label = t.label) (target : ∀ b, s.target? b = t.target? b) : s = t := by
  have yes : s.yes = t.yes := target .yes
  have no : s.no = t.no := target .no
  have title : s.title = t.title := congrArg Label.title label
  have description : s.description = t.description := congrArg Label.description label
  cases s
  cases t
  simp only [StepSignature.mk.injEq]
  exact ⟨kind, title, description, yes, no⟩

/-- A declaration says where a branch leads by a title. -/
theorem target?_signature (d : Declaration) (b : Branch) :
    d.signature.target? b = (d.target? b).map (·.title) := by
  cases b <;> rfl

/-- The signature of a step says where a branch leads only if the step is a decision. -/
theorem target?_stepSignature (g : Graph) (n : Node) (b : Branch) :
    (stepSignature g n).target? b = if n.kind = .decision then branchTarget? g n b else none := by
  cases b <;> rfl

/-- The outline of a graph depends on its signature only. -/
theorem outlineLines_eq (g : Graph) :
    outlineLines g = (signature g).flatMap StepSignature.lines := by
  unfold outlineLines signature
  rw [List.flatMap_map]
  congr 1
  funext n
  have branches : branchLines g n = Branch.all.filterMap (stepSignature g n).branchLine? := by
    unfold branchLines
    split
    · rename_i decision
      congr 1
      funext b
      rw [StepSignature.branchLine?, target?_stepSignature, if_pos decision]
    · rename_i other
      have silent (b : Branch) : (stepSignature g n).branchLine? b = none := by
        rw [StepSignature.branchLine?, target?_stepSignature, if_neg other]
        rfl
      simp [silent]
  rw [stepLine_eq, branches]
  rfl

/-! ## Scanning -/

namespace Scan

/-- Lines in two parts are taken part by part. -/
theorem lines_append (mode : Mode) (s : Scan) (number : Nat) (first second : List (List Char)) :
    Scan.lines mode s number (first ++ second) =
      (Scan.lines mode s number first).bind fun s' =>
        Scan.lines mode s' (number + first.length) second := by
  induction first generalizing s number with
  | nil => rfl
  | cons raw rest ih =>
    simp only [List.cons_append, Scan.lines]
    cases s.line mode raw number with
    | error e => rfl
    | ok s' =>
      simp only [ih, List.length_cons]
      congr 1
      funext t
      rw [Nat.add_right_comm, Nat.add_assoc]

/-- The line about a step with a legible label declares that step. -/
theorem line_step (mode : Mode) (s : Scan) (number : Nat) {kind : NodeKind} {l : Label}
    (declared : kind ∈ declarable) (legible : l.Legible) :
    s.line mode (kind.keyword ++ ": " ++ l.shown).toList number =
      .ok (s.declare { kind, label := l, line := number }) := by
  unfold Scan.line
  simp only [read_step declared legible, kind_named_name]
  rfl

/-- A branch line gives its target to an open decision that lacks the branch. -/
theorem line_branch (mode : Mode) (diagnostics : List Diagnostic) (number : Nat) {d : Declaration}
    {before : List Declaration} {b : Branch} {target : String} (decision : d.kind = .decision)
    (free : d.target? b = none) (titled : isTitle target) :
    Scan.line mode ⟨d :: before, diagnostics⟩ (branchLine b target).toList number =
      .ok ⟨d.withTarget b ⟨target, number⟩ :: before, diagnostics⟩ := by
  unfold Scan.line
  simp only [read_branch b titled, openDecision?, decision, if_true, branch_named_name]
  simp [Except.map, attach, free]

/-- The line about one branch gives the decision that branch and changes nothing else. -/
theorem lines_branch (mode : Mode) (diagnostics : List Diagnostic) (number : Nat)
    (before : List Declaration) {d : Declaration} {b : Branch} {sig : StepSignature}
    (legible : sig.Legible) (kind : d.kind = sig.kind) (free : d.target? b = none) :
    ∃ target : Option Target, target.map (·.title) = sig.target? b ∧
      Scan.lines mode ⟨d :: before, diagnostics⟩ number
        ((sig.branchLine? b).toList.map String.toList) =
          .ok ⟨d.withTarget? b target :: before, diagnostics⟩ := by
  cases leads : sig.target? b with
  | none => exact ⟨none, rfl, by simp [StepSignature.branchLine?, leads, Scan.lines,
      Declaration.withTarget?]⟩
  | some title =>
    obtain ⟨titled, -⟩ := legible.target b title leads
    have decision : d.kind = .decision := kind.trans (legible.decision b (by simp [leads]))
    refine ⟨some ⟨title, number⟩, rfl, ?_⟩
    simp [StepSignature.branchLine?, leads, titled.2, Option.filter, Scan.lines,
      Declaration.withTarget?, line_branch mode diagnostics number decision free titled]

/-- The lines of a signature declare a step that says the same. -/
theorem lines_signature (mode : Mode) (s : Scan) (number : Nat) {sig : StepSignature}
    (legible : sig.Legible) :
    ∃ d, d.signature = sig ∧
      Scan.lines mode s number (sig.lines.map String.toList) = .ok (s.declare d) := by
  let bare : Declaration := { kind := sig.kind, label := sig.label, line := number }
  obtain ⟨yes, leadsYes, afterYes⟩ := lines_branch mode s.diagnostics (number + 1)
    s.latestFirst (d := bare) (b := .yes) legible rfl rfl
  -- The line about one branch leaves the other one open, so it is not taken for a repetition.
  have freeNo : (bare.withTarget? .yes yes).target? .no = none :=
    target?_withTarget? rfl yes .no
  obtain ⟨no, leadsNo, afterNo⟩ := lines_branch mode s.diagnostics
    (number + 1 + ((sig.branchLine? .yes).toList.map String.toList).length)
    s.latestFirst (d := bare.withTarget? .yes yes) (b := .no) legible
    (kind_withTarget? bare .yes yes) freeNo
  refine ⟨(bare.withTarget? .yes yes).withTarget? .no no, ?_, ?_⟩
  · apply StepSignature.ext_target?
    · exact (kind_withTarget? _ _ _).trans (kind_withTarget? _ _ _)
    · exact (label_withTarget? _ _ _).trans (label_withTarget? _ _ _)
    · intro b
      rw [target?_signature, target?_withTarget? freeNo, target?_withTarget? rfl]
      cases b with
      | yes => exact leadsYes
      | no => exact leadsNo
  · have parts : sig.lines.map String.toList =
        (sig.kind.keyword ++ ": " ++ sig.label.shown).toList ::
          ((sig.branchLine? .yes).toList.map String.toList ++
            (sig.branchLine? .no).toList.map String.toList) := by
      cases yes : sig.branchLine? .yes <;> cases no : sig.branchLine? .no <;>
        simp [StepSignature.lines, Branch.all, yes, no]
    rw [parts, Scan.lines, line_step mode s number legible.kind legible.label]
    simp only [lines_append]
    rw [Scan.declare, afterYes]
    exact afterNo

/-- The lines of some signatures declare steps that say the same, and nothing is odd about them. -/
theorem lines_signatures (mode : Mode) (s : Scan) (number : Nat) {sigs : List StepSignature}
    (legible : ∀ sig ∈ sigs, sig.Legible) :
    ∃ declarations : List Declaration, declarations.map (·.signature) = sigs ∧
      Scan.lines mode s number ((sigs.flatMap StepSignature.lines).map String.toList) =
        .ok { s with latestFirst := declarations.reverse ++ s.latestFirst } := by
  induction sigs generalizing s number with
  | nil => exact ⟨[], rfl, rfl⟩
  | cons sig rest ih =>
    obtain ⟨d, signed, declared⟩ :=
      lines_signature mode s number (legible sig List.mem_cons_self)
    obtain ⟨others, signedOthers, declaredOthers⟩ := ih (s.declare d)
      (number + (sig.lines.map String.toList).length)
      fun other mem => legible other (List.mem_cons_of_mem sig mem)
    refine ⟨d :: others, by rw [List.map_cons, signed, signedOthers], ?_⟩
    rw [List.flatMap_cons, List.map_append, lines_append, declared]
    simp only [Except.bind]
    rw [declaredOthers]
    simp [Scan.declare]

end Scan

/-- The outline of a graph whose signature is legible declares the steps of that signature. -/
theorem scan_write (mode : Mode) {g : Graph} (legible : ∀ sig ∈ signature g, sig.Legible) :
    ∃ s, scan mode (write g) = .ok s ∧ s.declarations.map (·.signature) = signature g ∧
      s.diagnostics = [] := by
  have apart : ∀ line ∈ outlineLines g, line ≠ "" ∧ OneLine line := by
    intro line mem
    rw [outlineLines_eq, List.mem_flatMap] at mem
    obtain ⟨sig, inSignature, mem⟩ := mem
    exact (legible sig inSignature).ne_empty_and_oneLine mem
  obtain ⟨declarations, same, scanned⟩ := Scan.lines_signatures mode {} 1 legible
  rw [← outlineLines_eq, ← Text.lines_unlines apart] at scanned
  refine ⟨_, scanned, ?_, rfl⟩
  simpa [Scan.declarations] using same

end Flowchart.Outline
