import Flowchart.Outline.Reader
import Flowchart.Proofs.Outline.Scan

/-!
# Which outlines are refused

A keyword is recognised in any case, and some letters outside ASCII count as another case of an
ASCII letter. In lower case such a keyword is no name, and reading fails at its line. This is the
only way to fail: an outline is read exactly when none of its lines starts with such a keyword,
where the keyword of a branch matters only after a line that declares a decision.
-/

set_option autoImplicit false

namespace Flowchart.Outline

open Text (HasForeign)

/-- The line declares a decision. -/
def DeclaresDecision (raw : List Char) : Prop :=
  ∃ label, Statement.read (Text.trim raw) = .step NodeKind.decision.name label

/-- The line declares a step that is no decision. -/
def DeclaresOther (mode : Mode) (raw : List Char) : Prop :=
  (∃ kind label, kind ≠ NodeKind.decision ∧
    Statement.read (Text.trim raw) = .step kind.name label) ∨
  (mode.proseAsProcess = true ∧ Statement.read (Text.trim raw) = .prose ∧
    (Label.ofText (Text.trim raw)).title ≠ "")

/-- A line declares a decision, and no line after it declares another kind of step. -/
def DecisionOpen (mode : Mode) (before : List (List Char)) : Prop :=
  ∃ earlier raw later, before = earlier ++ raw :: later ∧ DeclaresDecision raw ∧
    ∀ other ∈ later, ¬ DeclaresOther mode other

/-- The line is a statement with a foreign keyword: one about a step, or one about a branch where a
decision is open. -/
def Refused (mode : Mode) (before : List (List Char)) (raw : List Char) : Prop :=
  (∃ keyword label, Statement.read (Text.trim raw) = .step keyword label ∧
    HasForeign keyword.toList) ∨
  (∃ keyword target, Statement.read (Text.trim raw) = .branch keyword target ∧
    HasForeign keyword.toList ∧ DecisionOpen mode before)

/-- Whether a decision is open after one more line. -/
theorem decisionOpen_concat {mode : Mode} {before : List (List Char)} {raw : List Char} :
    DecisionOpen mode (before ++ [raw]) ↔
      DeclaresDecision raw ∨ (DecisionOpen mode before ∧ ¬ DeclaresOther mode raw) := by
  constructor
  · rintro ⟨earlier, line, later, whole, decides, kept⟩
    rcases List.eq_nil_or_concat later with rfl | ⟨later, last, rfl⟩
    · obtain ⟨-, same⟩ := List.append_inj' whole rfl
      obtain rfl := List.singleton_inj.1 same
      exact .inl decides
    · rw [List.concat_eq_append, ← List.cons_append, ← List.append_assoc] at whole
      obtain ⟨front, same⟩ := List.append_inj' whole rfl
      obtain rfl := List.singleton_inj.1 same
      refine .inr ⟨⟨earlier, line, later, front, decides, ?_⟩, ?_⟩
      · intro other mem
        exact kept other (by simp [mem])
      · exact kept raw (by simp)
  · rintro (decides | ⟨⟨earlier, line, later, rfl, decides, kept⟩, keeps⟩)
    · exact ⟨before, raw, [], rfl, decides, by simp⟩
    · refine ⟨earlier, line, later ++ [raw], by simp, decides, ?_⟩
      intro other mem
      rcases List.mem_append.1 mem with old | new
      · exact kept other old
      · rw [List.mem_singleton.1 new]
        exact keeps

/-- Different kinds have different names. -/
theorem kind_name_inj {kind other : NodeKind} : kind.name = other.name ↔ kind = other := by
  refine ⟨fun same => ?_, congrArg NodeKind.name⟩
  have named := kind_named_name kind
  rw [same, kind_named_name] at named
  exact (Except.ok.inj named).symm

namespace Scan

/-- A line without a statement closes a decision if it becomes a step. -/
theorem openDecision?_prose {mode : Mode} {s : Scan} {line : List Char} {number : Nat} :
    (s.prose mode line number).openDecision?.isSome ↔ s.openDecision?.isSome ∧
      ¬ (mode.proseAsProcess = true ∧ (Label.ofText line).title ≠ "") := by
  unfold prose
  simp only
  split
  · rename_i declares
    rw [Bool.and_eq_true] at declares
    rw [openDecision?_declare]
    simp only [reduceCtorEq, false_iff, not_and, not_not]
    intro _ untitled
    exact absurd (untitled declares.1) (by simpa using declares.2)
  · rename_i reported
    rw [Bool.not_eq_true] at reported
    have kept : (s.report ⟨.ignoredLine, number, String.ofList line⟩).openDecision? =
        s.openDecision? := rfl
    rw [kept]
    refine ⟨fun opened => ⟨opened, ?_⟩, fun h => h.1⟩
    rintro ⟨prose, titled⟩
    simp [prose, titled] at reported

/-- One line opens a decision, keeps it open or closes it. -/
theorem openDecision?_line {mode : Mode} {s s' : Scan} {raw : List Char} {number : Nat}
    (taken : s.line mode raw number = .ok s') :
    s'.openDecision?.isSome ↔
      DeclaresDecision raw ∨ (s.openDecision?.isSome ∧ ¬ DeclaresOther mode raw) := by
  cases taken_of_line taken with
  | blank reads => simp [DeclaresDecision, DeclaresOther, reads]
  | @step keyword label kind reads named =>
    obtain rfl := eq_of_kind_named named
    rw [openDecision?_declare]
    have decides : DeclaresDecision raw ↔ kind = .decision := by
      simp [DeclaresDecision, reads, kind_name_inj]
    have other : DeclaresOther mode raw ↔ kind ≠ .decision := by
      simp [DeclaresOther, reads, kind_name_inj]
    rw [decides, other]
    tauto
  | branch reads opened named =>
    obtain ⟨-, decision⟩ := openDecision?_eq_some opened
    simp [openDecision?_attach decision, DeclaresDecision, DeclaresOther, reads, opened]
  | prose reads =>
    rw [openDecision?_prose]
    rcases reads with reads | ⟨keyword, target, reads, closed⟩
    · simp [DeclaresDecision, DeclaresOther, reads]
    · simp [DeclaresDecision, reads, closed]

/-- A line is refused for its keyword only. -/
theorem line_eq_error_iff {mode : Mode} {s : Scan} {before : List (List Char)} (raw : List Char)
    (number : Nat) (opened : s.openDecision?.isSome ↔ DecisionOpen mode before) :
    (∃ e, s.line mode raw number = .error e) ↔ Refused mode before raw := by
  unfold Scan.line Refused
  simp only
  cases reads : Statement.read (Text.trim raw) with
  | blank => simp
  | prose => simp
  | step keyword label =>
    have ascii := kind_named_iff reads
    cases named : NodeKind.named keyword with
    | ok kind =>
      have plain : ¬ HasForeign keyword.toList := ascii.1 ⟨kind, named⟩
      simp [Except.map, named, plain]
    | error e =>
      have foreign : HasForeign keyword.toList := by
        by_contra plain
        obtain ⟨kind, found⟩ := ascii.2 plain
        simp [named] at found
      simp [Except.map, named, foreign]
  | branch keyword target =>
    have ascii := branch_named_iff reads
    cases decision : s.openDecision? with
    | none =>
      rw [decision] at opened
      have closed : ¬ DecisionOpen mode before := by simpa using opened
      simp [closed]
    | some latest =>
      rw [decision] at opened
      have isOpen : DecisionOpen mode before := by simpa using opened
      cases named : Branch.named keyword with
      | ok b =>
        have plain : ¬ HasForeign keyword.toList := ascii.1 ⟨b, named⟩
        simp [Except.map, named, plain]
      | error e =>
        have foreign : HasForeign keyword.toList := by
          by_contra plain
          obtain ⟨b, found⟩ := ascii.2 plain
          simp [named] at found
        simp [Except.map, named, foreign, isOpen]

/-- Some lines are refused when one of them is, given what the lines before them have opened. -/
theorem lines_eq_error_iff {mode : Mode} {s : Scan} {done : List (List Char)} (number : Nat)
    (raws : List (List Char)) (opened : s.openDecision?.isSome ↔ DecisionOpen mode done) :
    (∃ e, Scan.lines mode s number raws = .error e) ↔
      ∃ before raw after, raws = before ++ raw :: after ∧ Refused mode (done ++ before) raw := by
  -- Whether a line is refused depends on the lines before it, so the induction lets them grow.
  induction raws generalizing s number done with
  | nil => simp [Scan.lines]
  | cons raw rest ih =>
    have first := line_eq_error_iff raw number opened
    rw [Scan.lines]
    cases taken : s.line mode raw number with
    | error e =>
      have refused := first.1 ⟨e, taken⟩
      simp only [Except.error.injEq, exists_eq', true_iff]
      exact ⟨[], raw, rest, rfl, by simpa using refused⟩
    | ok next =>
      have accepted : ¬ Refused mode done raw := by
        rw [← first, taken]
        simp
      have openedNext : next.openDecision?.isSome ↔ DecisionOpen mode (done ++ [raw]) := by
        rw [openDecision?_line taken, decisionOpen_concat, opened]
      simp only
      rw [ih (number + 1) openedNext]
      constructor
      · rintro ⟨before, other, after, rfl, refused⟩
        exact ⟨raw :: before, other, after, rfl, by simpa using refused⟩
      · rintro ⟨before, other, after, whole, refused⟩
        cases before with
        | nil =>
          obtain ⟨rfl, rfl⟩ := List.cons.inj whole
          exact absurd (by simpa using refused) accepted
        | cons _ before =>
          obtain ⟨rfl, rfl⟩ := List.cons.inj whole
          exact ⟨before, other, after, rfl, by simpa using refused⟩

end Scan

/-- An outline is read exactly when none of its lines is refused. -/
theorem read_isOk_iff (mode : Mode) (text : String) (title description : Option String) :
    (∃ r, read mode text title description = .ok r) ↔
      ∀ before raw after, Text.lines text.toList = before ++ raw :: after →
        ¬ Refused mode before raw := by
  have closed : ¬ DecisionOpen mode [] := by
    rintro ⟨earlier, raw, later, whole, -⟩
    simp at whole
  have opened : ({} : Scan).openDecision?.isSome ↔ DecisionOpen mode [] := by
    simp [Scan.openDecision?, closed]
  have refused := Scan.lines_eq_error_iff 1 (Text.lines text.toList) opened
  have unfolded : (∃ r, read mode text title description = .ok r) ↔
      ¬ ∃ e, Scan.lines mode {} 1 (Text.lines text.toList) = .error e := by
    unfold read scan
    cases Scan.lines mode {} 1 (Text.lines text.toList) <;> simp [Except.map]
  rw [unfolded, refused]
  simp only [List.nil_append, not_exists, not_and]

/-- The first letter of the keyword is an I without a dot. -/
theorem read_dotlessKeyword :
    read {} "ınput: a" = .error { role := .kind, shown := "'ınput'" } := by
  decide +kernel

end Flowchart.Outline
