import Flowchart.Outline.Statement
import Flowchart.Outline.Writer
import Flowchart.Proofs.Text.Lines
import Flowchart.Proofs.Text.Trimming

/-!
# Single lines, written and read

A label is legible when it comes back from the line that holds it: its title is trimmed, not empty,
on one line and without a bar, and its description, if there is one, is trimmed, not empty and on
one line. Reading only makes legible labels, and the line about a step with a legible label says
that step again. A branch line says its target again whenever the target is a title.
-/

set_option autoImplicit false

namespace Flowchart.Outline

open Text (OneLine)

/-- A label that can be read from the line that it is written on. -/
structure Label.Legible (l : Label) : Prop where
  title : isTitle l.title
  noBar : '|' ∉ l.title.toList
  oneLine : OneLine l.title
  description : ∀ d ∈ l.description, isTitle d ∧ OneLine d

/-- What a line shows of a label. -/
def Label.shown (l : Label) : String :=
  match l.description with
  | some description => l.title ++ " | " ++ description
  | none => l.title

/-- The label of a node: its title, and its description if that says anything more. -/
def labelOf (n : Node) : Label where
  title := n.title
  description := n.distinctDescription?

/-- The line about a step is its keyword, a colon and its label. -/
theorem stepLine_eq (n : Node) : stepLine n = n.kind.keyword ++ ": " ++ (labelOf n).shown := by
  unfold stepLine Label.shown labelOf
  cases n.distinctDescription? with
  | none => rfl
  | some description => simp [String.append_assoc]

/-! ## Labels -/

/-- A legible label is read again from what a line shows of it. -/
theorem ofText_shown {l : Label} (h : l.Legible) : Label.ofText (' ' :: l.shown.toList) = l := by
  obtain ⟨title, description⟩ := l
  have untrimmed : Text.trim (' ' :: title.toList) = title.toList := by
    rw [Text.trim_cons_blank (by decide)]
    exact h.title.trim_toList
  have noBar : '|' ∉ ' ' :: title.toList := by
    simpa using h.noBar
  cases description with
  | none =>
    have none_left : (' ' :: title.toList).dropWhile (· != '|') = [] :=
      List.dropWhile_eq_nil_iff.2 (Text.bne_of_notMem noBar)
    have all_taken : (' ' :: title.toList).takeWhile (· != '|') = ' ' :: title.toList :=
      List.takeWhile_eq_self_iff.2 (Text.bne_of_notMem noBar)
    simp [Label.ofText, Label.shown, none_left, all_taken, untrimmed, Text.trim_nil, Option.filter]
  | some description =>
    obtain ⟨given, -⟩ := h.description description rfl
    have noBar' : '|' ∉ (' ' :: title.toList) ++ [' '] := by
      simpa using h.noBar
    have shown : ' ' :: (Label.shown ⟨title, some description⟩).toList =
        ((' ' :: title.toList) ++ [' ']) ++ '|' :: ' ' :: description.toList := by
      simp [Label.shown]
    have cut : Text.trim (' ' :: description.toList) = description.toList := by
      rw [Text.trim_cons_blank (by decide)]
      exact given.trim_toList
    have short : Text.trim ((' ' :: title.toList) ++ [' ']) = title.toList := by
      rw [Text.trim_concat_blank (by decide), untrimmed]
    unfold Label.ofText
    rw [shown, Text.takeWhile_append_of_notMem noBar', Text.dropWhile_append_of_notMem noBar',
      short]
    simp [cut, Option.filter, given.2]

/-- The label that a text without ends of lines spells out is legible, if it has a title. -/
theorem legible_ofText {cs : List Char} (oneLine : ∀ c ∈ cs, Text.isLineBreak c = false)
    (named : (Label.ofText cs).title ≠ "") : (Label.ofText cs).Legible where
  title := isTitle_ofList_trim named
  noBar := by
    intro mem
    rw [Label.ofText, String.toList_ofList] at mem
    have noBar := List.mem_takeWhile_imp (Text.mem_of_mem_trim mem)
    simp at noBar
  oneLine := by
    intro c mem
    rw [Label.ofText, String.toList_ofList] at mem
    exact oneLine c ((List.takeWhile_prefix _).subset (Text.mem_of_mem_trim mem))
  description := by
    intro d given
    rw [Label.ofText, Option.mem_def, Option.filter_eq_some_iff] at given
    obtain ⟨text, nonempty⟩ := given
    obtain rfl := Option.some.inj text
    refine ⟨isTitle_ofList_trim (by simpa using nonempty), ?_⟩
    intro c mem
    rw [String.toList_ofList] at mem
    have inRest := List.mem_of_mem_drop (Text.mem_of_mem_trim mem)
    exact oneLine c ((List.dropWhile_suffix _).subset inRest)

/-! ## Statements -/

/-- The keyword of a kind that can be declared and a colon are the head of a step. -/
theorem stepHead?_keyword {kind : NodeKind} (h : kind ∈ declarable) (payload : List Char) :
    stepHead? (kind.keyword.toList ++ ':' :: payload) = some (kind.keyword.toList, payload) := by
  simp only [declarable, List.mem_cons, List.not_mem_nil, or_false] at h
  rcases h with rfl | rfl | rfl | rfl <;> rfl

/-- The keyword of a kind is read as the name of the kind. -/
theorem keywordText_kind {kind : NodeKind} (h : kind ∈ declarable) :
    keywordText kind.keyword.toList = kind.name := by
  simp only [declarable, List.mem_cons, List.not_mem_nil, or_false] at h
  rcases h with rfl | rfl | rfl | rfl <;> decide

/-- The keyword of a branch is read as the name of the branch. -/
theorem keywordText_branch (b : Branch) : keywordText b.keyword.toList = b.name := by
  cases b <;> decide

/-- All kinds but those of anchors can be declared. -/
theorem mem_declarable_iff {kind : NodeKind} : kind ∈ declarable ↔ kind.isAnchor = false := by
  cases kind <;> decide

/-- A text that starts with a visible character and ends in a title is trimmed. -/
theorem trim_append_title {front : List Char} {title : String}
    (visible : ∃ c rest, front = c :: rest ∧ Text.isBlank c = false) (h : isTitle title) :
    Text.trim (front ++ title.toList) = front ++ title.toList := by
  obtain ⟨c, rest, rfl, first⟩ := visible
  obtain ⟨-, last⟩ := Text.trim_eq_self_iff.1 h.trim_toList
  apply Text.trim_eq_self
  · simpa using first
  · rw [List.getLast?_append_of_ne_nil _ h.toList_ne_nil]
    exact last

/-- The characters of the line about a step. -/
theorem toList_step (kind : NodeKind) (l : Label) :
    (kind.keyword ++ ": " ++ l.shown).toList =
      kind.keyword.toList ++ ':' :: ' ' :: l.shown.toList := by
  simp

/-- The line about a step is trimmed: it starts with a keyword, and ends in its description or,
where there is none, in its title. -/
theorem trim_step {kind : NodeKind} (declared : kind ∈ declarable) {l : Label} (h : l.Legible) :
    Text.trim (kind.keyword ++ ": " ++ l.shown).toList =
      kind.keyword.toList ++ ':' :: ' ' :: l.shown.toList := by
  have visible (rest : List Char) : ∃ c tail, kind.keyword.toList ++ rest = c :: tail ∧
      Text.isBlank c = false := by
    simp only [declarable, List.mem_cons, List.not_mem_nil, or_false] at declared
    rcases declared with rfl | rfl | rfl | rfl <;> exact ⟨_, _, rfl, by decide⟩
  rw [toList_step]
  obtain ⟨title, description⟩ := l
  cases description with
  | none =>
    have ended := trim_append_title (visible [':', ' ']) h.title
    simpa [Label.shown] using ended
  | some description =>
    obtain ⟨given, -⟩ := h.description description rfl
    have ended := trim_append_title (visible (": ".toList ++ title.toList ++ " | ".toList)) given
    simpa [Label.shown] using ended

/-- The line about a step declares that step. -/
theorem read_step {kind : NodeKind} (declared : kind ∈ declarable) {l : Label} (h : l.Legible) :
    Statement.read (Text.trim (kind.keyword ++ ": " ++ l.shown).toList) = .step kind.name l := by
  have named : l.title ≠ "" := h.title.2
  rw [trim_step declared h]
  unfold Statement.read
  rw [if_neg (by simp)]
  have declares : step? (kind.keyword.toList ++ ':' :: ' ' :: l.shown.toList) =
      some (.step kind.name l) := by
    simp [step?, stepHead?_keyword declared, ofText_shown h, named, keywordText_kind declared]
  rw [declares]

/-- No line that starts with the keyword of a branch has the head of a step. -/
theorem stepHead?_branch (b : Branch) (rest : List Char) :
    stepHead? (b.keyword.toList ++ rest) = none := by
  cases b <;> rfl

/-- The keyword of a branch and an arrow are the head of a branch line if anything follows. -/
theorem branchHead?_keyword (b : Branch) (c : Char) (target : List Char) :
    branchHead? (b.keyword.toList ++ ' ' :: '-' :: '>' :: ' ' :: c :: target) =
      some (b.keyword.toList, ' ' :: c :: target) := by
  cases b <;> rfl

/-- A branch line says where the branch leads. -/
theorem read_branch (b : Branch) {target : String} (h : isTitle target) :
    Statement.read (Text.trim (branchLine b target).toList) = .branch b.name target := by
  have visible : ∃ c tail, b.keyword.toList ++ " -> ".toList = c :: tail ∧
      Text.isBlank c = false := by
    cases b <;> exact ⟨_, _, rfl, by decide⟩
  have trimmed : Text.trim (branchLine b target).toList =
      b.keyword.toList ++ ' ' :: '-' :: '>' :: ' ' :: target.toList := by
    have ended := trim_append_title visible h
    have indented : (branchLine b target).toList =
        ' ' :: ' ' :: (b.keyword.toList ++ " -> ".toList ++ target.toList) := by
      simp [branchLine]
    rw [indented, Text.trim_cons_blank (by decide), Text.trim_cons_blank (by decide), ended]
    simp
  obtain ⟨c, rest, chars⟩ := List.exists_cons_of_ne_nil h.toList_ne_nil
  have same : String.ofList (Text.trim (' ' :: c :: rest)) = target := by
    rw [Text.trim_cons_blank (by decide), ← chars, h.trim_toList, String.ofList_toList]
  unfold Statement.read
  rw [trimmed, if_neg (by simp), chars]
  simp only [step?, stepHead?_branch, branchHead?_keyword, same, keywordText_branch]

/-! ## What is written is on lines of its own -/

/-- The line about a step with a legible label has no end of line in it. -/
theorem oneLine_step {kind : NodeKind} {l : Label} (h : l.Legible) :
    OneLine (kind.keyword ++ ": " ++ l.shown) := by
  have head : OneLine (kind.keyword ++ ": ") := by
    cases kind <;> decide
  apply Text.oneLine_append head
  obtain ⟨title, description⟩ := l
  cases description with
  | none => exact h.oneLine
  | some description =>
    obtain ⟨-, oneLine⟩ := h.description description rfl
    have bar : OneLine " | " := by decide
    exact Text.oneLine_append (Text.oneLine_append h.oneLine bar) oneLine

/-- A branch line has no end of line in it if its target has none. -/
theorem oneLine_branch (b : Branch) {target : String} (h : OneLine target) :
    OneLine (branchLine b target) := by
  have head : OneLine ("  " ++ b.keyword ++ " -> ") := by
    cases b <;> decide
  exact Text.oneLine_append head h

end Flowchart.Outline
