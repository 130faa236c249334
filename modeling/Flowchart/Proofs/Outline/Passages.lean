import Flowchart.Proofs.Outline.Declared

/-!
# The passages of an outline

A line that declares a step starts a passage of the outline, which goes on up to the next such line.
What a scan declares can be read off the passages one by one: the step is what the first line says,
and if it is a decision, each of its branches leads where the last line about that branch says. So
no line has to do with any step but the one whose passage it stands in.
-/

set_option autoImplicit false

namespace Flowchart.Outline

/-- A line that declares a step, by its number and by what it says, and the lines after it up to the
next one that declares a step. -/
structure Passage where
  number : Nat
  kind : NodeKind
  label : Label
  body : List (List Char)
deriving DecidableEq, Repr

/-- The lines in front of the first one that declares a step. -/
def bodyOf (mode : Mode) (isOpen : Bool) (raws : List (List Char)) : List (List Char) :=
  raws.takeWhile fun raw => (declared? mode isOpen raw).isNone

/-- The passages of some lines, the first of which has the given number. -/
def passages (mode : Mode) : Bool → Nat → List (List Char) → List Passage
  | _, _, [] => []
  | isOpen, number, raw :: rest =>
    match declared? mode isOpen raw with
    | some (kind, label) =>
      let opened := kind == .decision
      ⟨number, kind, label, bodyOf mode opened rest⟩ :: passages mode opened (number + 1) rest
    | none => passages mode isOpen (number + 1) rest

/-- Where the lines about a branch say that it leads, line by line. -/
def targetsIn (b : Branch) : Nat → List (List Char) → List Target
  | _, [] => []
  | number, raw :: rest =>
    match branchOf? raw with
    | some (c, title) =>
      if c = b then ⟨title, number⟩ :: targetsIn b (number + 1) rest
      else targetsIn b (number + 1) rest
    | none => targetsIn b (number + 1) rest

/-- Where the lines of a passage say that a branch leads. -/
def Passage.targets (p : Passage) (b : Branch) : List Target :=
  targetsIn b (p.number + 1) p.body

/-- A step after some lines that declare none. -/
def Declaration.takingAll : Declaration → Nat → List (List Char) → Declaration
  | d, _, [] => d
  | d, number, raw :: rest => (d.taking raw number).takingAll (number + 1) rest

/-- The step of a passage. -/
def Passage.declaration (p : Passage) : Declaration :=
  Declaration.takingAll { kind := p.kind, label := p.label, line := p.number } (p.number + 1) p.body

/-! ## What the lines of a passage add to its step -/

namespace Declaration

/-- A step without its branches. -/
def bare (d : Declaration) : Declaration :=
  { d with yes := none, no := none }

variable (d : Declaration)

/-- A line that declares no step changes only branches. -/
theorem bare_taking (raw : List Char) (number : Nat) : (d.taking raw number).bare = d.bare := by
  unfold taking
  cases branchOf? raw with
  | none => rfl
  | some said =>
    obtain ⟨b, title⟩ := said
    simp only
    split
    · cases b <;> rfl
    · rfl

/-- Lines that declare no step change only branches. -/
theorem bare_takingAll (number : Nat) (raws : List (List Char)) :
    (d.takingAll number raws).bare = d.bare := by
  induction raws generalizing d number with
  | nil => rfl
  | cons raw rest ih => rw [takingAll, ih, bare_taking]

/-- A branch that is given to a step changes that branch and no other. -/
theorem target?_withTarget (b c : Branch) (target : Target) :
    (d.withTarget c target).target? b = if c = b then some target else d.target? b := by
  cases b <;> cases c <;> rfl

variable {d}

/-- The last line about a branch says where it leads. -/
theorem target?_takingAll (decision : d.kind = .decision) (b : Branch) (number : Nat)
    (raws : List (List Char)) :
    (d.takingAll number raws).target? b =
      ((targetsIn b number raws).getLast?).or (d.target? b) := by
  induction raws generalizing d number with
  | nil => rfl
  | cons raw rest ih =>
    have kind : (d.taking raw number).kind = d.kind := congrArg (·.kind) (d.bare_taking raw number)
    rw [takingAll, ih (kind.trans decision), targetsIn, taking]
    cases branchOf? raw with
    | none => rfl
    | some said =>
      obtain ⟨c, title⟩ := said
      simp only [decision, if_true, target?_withTarget]
      by_cases same : c = b
      · rw [if_pos same, if_pos same, List.getLast?_cons]
        cases (targetsIn b (number + 1) rest).getLast? <;> rfl
      · rw [if_neg same, if_neg same]

end Declaration

namespace Passage

variable (p : Passage)

/-- The step of a passage is of the kind that its first line declares. -/
theorem kind_declaration : p.declaration.kind = p.kind :=
  congrArg (·.kind) (Declaration.bare_takingAll _ _ _)

/-- The step of a passage has the label that its first line declares. -/
theorem label_declaration : p.declaration.label = p.label :=
  congrArg (·.label) (Declaration.bare_takingAll _ _ _)

/-- A branch of the step leads where the last line about it says. -/
theorem target?_declaration (decision : p.kind = .decision) (b : Branch) :
    p.declaration.target? b = (p.targets b).getLast? := by
  have bare : Declaration.target? { kind := p.kind, label := p.label, line := p.number } b =
      none := by
    cases b <;> rfl
  have last := Declaration.target?_takingAll decision b (p.number + 1) p.body
    (d := { kind := p.kind, label := p.label, line := p.number })
  rw [bare, Option.or_none] at last
  exact last

end Passage

/-! ## The steps of the passages -/

/-- No further lines change nothing about the latest step. -/
theorem modifyHead_takingAll_nil (number : Nat) (ds : List Declaration) :
    ds.modifyHead (·.takingAll number []) = ds := by
  cases ds <;> rfl

/-- Some lines add to the latest step up to the next line that declares one; from there on, the
steps are those of the passages. -/
theorem Scan.declarations_lines {mode : Mode} {s s' : Scan} {number : Nat}
    {raws : List (List Char)} (taken : Scan.lines mode s number raws = .ok s') :
    s'.declarations =
      (s.latestFirst.modifyHead (·.takingAll number (bodyOf mode s.isOpen raws))).reverse ++
        (passages mode s.isOpen number raws).map Passage.declaration := by
  induction raws generalizing s number with
  | nil =>
    obtain rfl := Except.ok.inj taken
    rw [bodyOf, List.takeWhile_nil, modifyHead_takingAll_nil, passages, List.map_nil,
      List.append_nil]
    rfl
  | cons raw rest ih =>
    obtain ⟨next, first, later⟩ := lines_cons_eq_ok_iff.1 taken
    rw [ih later]
    rcases line_cases first with ⟨kind, label, declares, rfl⟩ | ⟨declaresNone, kept, adds⟩
    · have opened : (s.declare { kind, label, line := number }).isOpen = (kind == .decision) := by
        rw [isOpen_line first, opens, declares]
      have ends : bodyOf mode s.isOpen (raw :: rest) = [] := by
        rw [bodyOf, List.takeWhile_cons_of_neg (by simp [declares])]
      rw [opened, ends, modifyHead_takingAll_nil, passages, declares, declare,
        List.modifyHead_cons, List.reverse_cons, List.append_assoc]
      rfl
    · have goesOn : bodyOf mode s.isOpen (raw :: rest) = raw :: bodyOf mode s.isOpen rest := by
        rw [bodyOf, List.takeWhile_cons_of_pos (by simp [declaresNone])]
        rfl
      rw [kept, adds, goesOn, passages, declaresNone, List.modifyHead_modifyHead]
      rfl

/-- The steps that a scan declares are those of the passages, one for each. -/
theorem declarations_of_scan {mode : Mode} {text : String} {s : Scan} (h : scan mode text = .ok s) :
    s.declarations =
      (passages mode false 1 (Text.lines text.toList)).map Passage.declaration :=
  Scan.declarations_lines h

end Flowchart.Outline
