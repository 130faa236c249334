import Flowchart.Proofs.Outline.Scan

/-!
# What a line does to the steps

A line declares a step, or it may say more about the step that was declared last. Which of the two
depends on the mode and on one thing only about the lines before it: whether a decision is open.
Where one is, a branch line belongs to it; where none is, a branch line is prose like any other.
Prose declares a process step if the mode says so and if a title stands in front of its first bar.
-/

set_option autoImplicit false

namespace Flowchart.Outline

/-- Whether a line becomes a process step of its own where prose is taken for such steps. -/
def impliesStep (isOpen : Bool) (raw : List Char) : Bool :=
  let line := Text.trim raw
  match Statement.read line with
  | .prose => (Label.ofText line).title != ""
  | .branch .. => !isOpen && (Label.ofText line).title != ""
  | .blank | .step .. => false

/-- The kind and the label of the step that a line declares, where a decision is open or not. -/
def declared? (mode : Mode) (isOpen : Bool) (raw : List Char) : Option (NodeKind × Label) :=
  let line := Text.trim raw
  match Statement.read line with
  | .step keyword label => (NodeKind.ofName? keyword).map fun kind => (kind, label)
  | _ =>
    if mode.proseAsProcess && impliesStep isOpen raw then some (.process, Label.ofText line)
    else none

/-- Whether a decision is open after a line. -/
def opens (mode : Mode) (isOpen : Bool) (raw : List Char) : Bool :=
  match declared? mode isOpen raw with
  | some (kind, _) => kind == .decision
  | none => isOpen

/-- The branch that a line is about, and the title that the branch leads to. -/
def branchOf? (raw : List Char) : Option (Branch × String) :=
  match Statement.read (Text.trim raw) with
  | .branch keyword target => (Branch.ofName? keyword).map fun b => (b, target)
  | _ => none

/-- A step after a line that declares none. Only a decision takes branches. -/
def Declaration.taking (d : Declaration) (raw : List Char) (number : Nat) : Declaration :=
  match branchOf? raw with
  | some (b, target) => if d.kind = .decision then d.withTarget b ⟨target, number⟩ else d
  | none => d

/-- A line that is about no branch changes no step. -/
theorem Declaration.taking_of_branchOf?_eq_none {raw : List Char} (none : branchOf? raw = none)
    (d : Declaration) (number : Nat) : d.taking raw number = d := by
  rw [taking, none]

/-- A name that names a kind is the name of that kind. -/
theorem ofName?_of_kind_named {name : String} {kind : NodeKind}
    (named : NodeKind.named name = .ok kind) : NodeKind.ofName? name = some kind := by
  rw [eq_of_kind_named named]
  cases kind <;> rfl

/-- A name that names a branch is the name of that branch. -/
theorem ofName?_of_branch_named {name : String} {b : Branch} (named : Branch.named name = .ok b) :
    Branch.ofName? name = some b := by
  rw [eq_of_branch_named named]
  cases b <;> rfl

namespace Scan

/-- Whether the step that was declared last is a decision. -/
def isOpen (s : Scan) : Bool := s.openDecision?.isSome

/-- Where no decision is open, the latest step takes nothing from a line. -/
theorem modifyHead_taking_of_closed {s : Scan} (closed : s.openDecision? = none)
    (raw : List Char) (number : Nat) :
    s.latestFirst.modifyHead (·.taking raw number) = s.latestFirst := by
  cases latest : s.latestFirst with
  | nil => rfl
  | cons d before =>
    have noDecision : d.kind ≠ .decision := by
      intro decision
      simp [openDecision?, latest, decision] at closed
    rw [List.modifyHead_cons, Declaration.taking]
    cases branchOf? raw <;> simp [noDecision]

/-- Prose declares a process step, or is reported and leaves the steps alone. -/
theorem prose_cases (mode : Mode) (s : Scan) (line : List Char) (number : Nat) :
    (mode.proseAsProcess && (Label.ofText line).title != "") = true ∧
        s.prose mode line number =
          s.declare { kind := .process, label := Label.ofText line, line := number } ∨
      (mode.proseAsProcess && (Label.ofText line).title != "") = false ∧
        s.prose mode line number = s.report ⟨.ignoredLine, number, String.ofList line⟩ := by
  unfold prose
  by_cases titled : (mode.proseAsProcess && (Label.ofText line).title != "") = true
  · exact .inl ⟨titled, if_pos titled⟩
  · exact .inr ⟨Bool.not_eq_true _ ▸ titled, if_neg titled⟩

/-- Every line declares a step, or adds to the latest one and keeps it open or closed. -/
theorem line_cases {mode : Mode} {s s' : Scan} {raw : List Char} {number : Nat}
    (taken : s.line mode raw number = .ok s') :
    (∃ kind label, declared? mode s.isOpen raw = some (kind, label) ∧
      s' = s.declare { kind, label, line := number }) ∨
    (declared? mode s.isOpen raw = none ∧ s'.isOpen = s.isOpen ∧
      s'.latestFirst = s.latestFirst.modifyHead (·.taking raw number)) := by
  cases taken_of_line taken with
  | blank reads =>
    right
    refine ⟨by simp [declared?, impliesStep, reads], rfl, ?_⟩
    have none : branchOf? raw = none := by simp [branchOf?, reads]
    cases s.latestFirst <;> simp [Declaration.taking_of_branchOf?_eq_none none]
  | @step keyword label kind reads named =>
    left
    exact ⟨kind, label, by simp [declared?, reads, ofName?_of_kind_named named], rfl⟩
  | @branch keyword target decision before b reads opened named =>
    right
    obtain ⟨latest, isDecision⟩ := openDecision?_eq_some opened
    have wasOpen : s.isOpen = true := by rw [isOpen, opened]; rfl
    refine ⟨by simp [declared?, impliesStep, reads, wasOpen], ?_, ?_⟩
    · rw [wasOpen]
      exact openDecision?_attach isDecision
    · have about : branchOf? raw = some (b, target) := by
        simp [branchOf?, reads, ofName?_of_branch_named named]
      simp [attach, latest, Declaration.taking, about, isDecision]
  | prose reads =>
    -- A branch line counts as prose only where no decision is open to take it.
    have closed : branchOf? raw = none ∨ s.openDecision? = none := by
      rcases reads with reads | ⟨keyword, target, reads, closed⟩
      · exact .inl (by simp [branchOf?, reads])
      · exact .inr closed
    have declares : declared? mode s.isOpen raw =
        if mode.proseAsProcess && (Label.ofText (Text.trim raw)).title != "" then
          some (.process, Label.ofText (Text.trim raw))
        else none := by
      rcases reads with reads | ⟨keyword, target, reads, closed⟩
      · simp [declared?, impliesStep, reads]
      · simp [declared?, impliesStep, reads, isOpen, closed]
    rw [declares]
    rcases prose_cases mode s (Text.trim raw) number with ⟨titled, same⟩ | ⟨untitled, same⟩
    · left
      exact ⟨.process, Label.ofText (Text.trim raw), by rw [titled]; rfl, same⟩
    · right
      refine ⟨by rw [untitled]; rfl, by rw [same]; rfl, ?_⟩
      rw [same]
      rcases closed with none | closed
      · cases latest : s.latestFirst <;>
          simp [report, latest, Declaration.taking_of_branchOf?_eq_none none]
      · exact (modifyHead_taking_of_closed closed raw number).symm

/-- Whether a decision is open after a line depends on the line and on whether one was open before.
-/
theorem isOpen_line {mode : Mode} {s s' : Scan} {raw : List Char} {number : Nat}
    (taken : s.line mode raw number = .ok s') : s'.isOpen = opens mode s.isOpen raw := by
  rcases line_cases taken with ⟨kind, label, declares, rfl⟩ | ⟨declaresNone, kept, -⟩
  · rw [opens, declares, Bool.eq_iff_iff, isOpen, openDecision?_declare, beq_iff_eq]
  · rw [opens, declaresNone, kept]

end Scan

end Flowchart.Outline
