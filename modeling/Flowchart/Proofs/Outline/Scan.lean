import Flowchart.Outline.Declaration
import Flowchart.Proofs.Outline.Keyword
import Flowchart.Proofs.Outline.Lines

/-!
# What a scan can do

Every line that a scan takes is blank, declares a step, gives a branch to the latest decision, or is
prose. Whatever it comes to, a declared step has a legible label, and branches only if it is a
decision.
-/

set_option autoImplicit false

namespace Flowchart.Outline

/-- A declaration with a legible label, and with branches only if it is a decision. -/
structure Declaration.Legible (d : Declaration) : Prop where
  kind : d.kind ∈ declarable
  label : d.label.Legible
  decision : ∀ b, (d.target? b).isSome → d.kind = .decision

namespace Scan

/-- What taking a trimmed line can come to. -/
inductive Taken (mode : Mode) (s : Scan) (line : List Char) (number : Nat) : Scan → Prop
  | blank (reads : Statement.read line = .blank) : Taken mode s line number s
  | step {keyword : String} {label : Label} {kind : NodeKind}
      (reads : Statement.read line = .step keyword label)
      (named : NodeKind.named keyword = .ok kind) :
      Taken mode s line number (s.declare { kind, label, line := number })
  | branch {keyword target : String} {decision : Declaration} {before : List Declaration}
      {b : Branch} (reads : Statement.read line = .branch keyword target)
      (opened : s.openDecision? = some (decision, before))
      (named : Branch.named keyword = .ok b) :
      Taken mode s line number (s.attach decision before b target line number)
  | prose (reads : Statement.read line = .prose ∨
      ∃ keyword target, Statement.read line = .branch keyword target ∧ s.openDecision? = none) :
      Taken mode s line number (s.prose mode line number)

/-- What a scan makes of a line is one of the things that taking it can come to. -/
theorem taken_of_line {mode : Mode} {s s' : Scan} {raw : List Char} {number : Nat}
    (h : s.line mode raw number = .ok s') : Taken mode s (Text.trim raw) number s' := by
  unfold Scan.line at h
  simp only at h
  split at h
  · rename_i reads
    obtain rfl := Except.ok.inj h
    exact .blank reads
  · rename_i keyword label reads
    cases named : NodeKind.named keyword with
    | error e => simp [named, Except.map] at h
    | ok kind =>
      rw [named] at h
      obtain rfl := Except.ok.inj h
      exact .step reads named
  · rename_i keyword target reads
    split at h
    · rename_i decision before opened
      cases named : Branch.named keyword with
      | error e => simp [named, Except.map] at h
      | ok b =>
        rw [named] at h
        obtain rfl := Except.ok.inj h
        exact .branch reads opened named
    · rename_i opened
      obtain rfl := Except.ok.inj h
      exact .prose (.inr ⟨keyword, target, reads, opened⟩)
  · rename_i reads
    obtain rfl := Except.ok.inj h
    exact .prose (.inl reads)

/-- Lines are taken exactly if the first one is, and then the others. -/
theorem lines_cons_eq_ok_iff {mode : Mode} {s s' : Scan} {number : Nat} {raw : List Char}
    {rest : List (List Char)} :
    Scan.lines mode s number (raw :: rest) = .ok s' ↔
      ∃ next, s.line mode raw number = .ok next ∧
        Scan.lines mode next (number + 1) rest = .ok s' := by
  rw [Scan.lines]
  cases s.line mode raw number <;> simp

/-- What is kept from each line to the next is kept by all lines. -/
theorem lines_keep {mode : Mode} (Kept : Nat → Scan → Prop) {raws : List (List Char)}
    (line : ∀ raw ∈ raws, ∀ {number : Nat} {s s' : Scan}, Kept number s →
      s.line mode raw number = .ok s' → Kept (number + 1) s')
    {number : Nat} {s s' : Scan} (kept : Kept number s)
    (taken : Scan.lines mode s number raws = .ok s') : Kept (number + raws.length) s' := by
  induction raws generalizing s number with
  | nil =>
    obtain rfl := Except.ok.inj taken
    exact kept
  | cons raw rest ih =>
    obtain ⟨next, first, later⟩ := lines_cons_eq_ok_iff.1 taken
    have keptNext := line raw List.mem_cons_self kept first
    rw [List.length_cons, Nat.add_comm rest.length, ← Nat.add_assoc]
    exact ih (fun other mem => line other (List.mem_cons_of_mem raw mem)) keptNext later

/-- The open decision is the step that was declared last. -/
theorem openDecision?_eq_some {s : Scan} {d : Declaration} {before : List Declaration}
    (h : s.openDecision? = some (d, before)) :
    s.latestFirst = d :: before ∧ d.kind = .decision := by
  unfold openDecision? at h
  split at h
  · split at h
    · rename_i latest decision
      simp only [Option.some.injEq, Prod.mk.injEq] at h
      obtain ⟨rfl, rfl⟩ := h
      exact ⟨latest, decision⟩
    · simp at h
  · simp at h

/-- A decision is open after a step was declared exactly if this step is one. -/
theorem openDecision?_declare {s : Scan} {d : Declaration} :
    (s.declare d).openDecision?.isSome ↔ d.kind = .decision := by
  simp [declare, openDecision?]

/-- A decision stays open when it is given a branch. -/
theorem openDecision?_attach {s : Scan} {d : Declaration} {before : List Declaration} {b : Branch}
    {target : String} {line : List Char} {number : Nat} (decision : d.kind = .decision) :
    (s.attach d before b target line number).openDecision?.isSome := by
  have kind : (d.withTarget b ⟨target, number⟩).kind = .decision := by
    cases b <;> exact decision
  simp [attach, openDecision?, kind]

/-- Every step that was declared is legible. -/
def Legible (s : Scan) : Prop :=
  ∀ d ∈ s.latestFirst, d.Legible

/-- Declaring a legible step keeps a scan legible. -/
theorem legible_declare {s : Scan} {d : Declaration} (h : s.Legible) (legible : d.Legible) :
    (s.declare d).Legible := by
  intro e mem
  rcases List.mem_cons.1 mem with rfl | old
  · exact legible
  · exact h e old

/-- A line that is no statement keeps a scan legible. -/
theorem legible_prose {mode : Mode} {s : Scan} {line : List Char} {number : Nat}
    (oneLine : ∀ c ∈ line, Text.isLineBreak c = false) (h : s.Legible) :
    (s.prose mode line number).Legible := by
  unfold Scan.prose
  simp only
  split
  · rename_i titled
    have named : (Label.ofText line).title ≠ "" := by
      rw [Bool.and_eq_true] at titled
      simpa using titled.2
    refine legible_declare h ⟨mem_declarable_iff.2 rfl, legible_ofText oneLine named, ?_⟩
    intro b given
    cases b <;> simp [Declaration.target?] at given
  · exact h

/-- A branch that is given to the open decision keeps a scan legible. -/
theorem legible_attach {s : Scan} {d : Declaration} {before : List Declaration} {b : Branch}
    {target : String} {line : List Char} {number : Nat} (h : s.Legible)
    (latest : s.latestFirst = d :: before) (decision : d.kind = .decision) :
    (s.attach d before b target line number).Legible := by
  intro e mem
  unfold attach at mem
  simp only at mem
  rcases List.mem_cons.1 mem with rfl | old
  · have was : d.Legible := h d (latest ▸ List.mem_cons_self)
    cases b with
    | yes => exact ⟨was.kind, was.label, fun _ _ => decision⟩
    | no => exact ⟨was.kind, was.label, fun _ _ => decision⟩
  · exact h e (latest ▸ List.mem_cons_of_mem d old)

/-- The payload of a step line is a part of the line. -/
theorem oneLine_payload {word line written payload : List Char}
    (taken : Text.takeWord word line = some (written, ':' :: payload))
    (oneLine : ∀ c ∈ line, Text.isLineBreak c = false) :
    ∀ c ∈ payload, Text.isLineBreak c = false := by
  intro c mem
  apply oneLine
  rw [← Text.append_of_takeWord taken]
  exact List.mem_append_right _ (List.mem_cons_of_mem _ mem)

/-- Taking a line keeps what was declared legible. -/
theorem legible_line {mode : Mode} {s s' : Scan} {raw : List Char} {number : Nat}
    (oneLine : ∀ c ∈ raw, Text.isLineBreak c = false) (h : s.Legible)
    (taken : s.line mode raw number = .ok s') : s'.Legible := by
  have trimmed : ∀ c ∈ Text.trim raw, Text.isLineBreak c = false :=
    fun c mem => oneLine c (Text.mem_of_mem_trim mem)
  cases taken_of_line taken with
  | blank => exact h
  | @step keyword label kind reads named =>
    obtain ⟨word, -, written, payload, spelled, rfl, rfl, titled⟩ := read_eq_step reads
    refine legible_declare h ⟨declarable_of_named reads named,
      legible_ofText (oneLine_payload spelled trimmed) titled, ?_⟩
    intro b given
    cases b <;> simp [Declaration.target?] at given
  | branch reads opened named =>
    obtain ⟨latest, decision⟩ := openDecision?_eq_some opened
    exact legible_attach h latest decision
  | prose => exact legible_prose trimmed h

/-- Taking some lines keeps what was declared legible. -/
theorem legible_lines {mode : Mode} {s s' : Scan} {number : Nat} {raws : List (List Char)}
    (oneLine : ∀ raw ∈ raws, ∀ c ∈ raw, Text.isLineBreak c = false) (h : s.Legible)
    (taken : Scan.lines mode s number raws = .ok s') : s'.Legible :=
  lines_keep (fun _ s => s.Legible)
    (fun raw mem _ _ _ kept first => legible_line (oneLine raw mem) kept first) h taken

end Scan

/-- What a scan declares is legible. -/
theorem legible_of_scan {mode : Mode} {text : String} {s : Scan} (h : scan mode text = .ok s) :
    ∀ d ∈ s.declarations, d.Legible := by
  have legible : s.Legible :=
    Scan.legible_lines (fun raw mem c inLine => Text.isLineBreak_eq_false_of_mem_lines mem inLine)
      (by intro d mem; simp at mem) h
  intro d mem
  exact legible d (List.mem_reverse.1 mem)

end Flowchart.Outline
