import Flowchart.Number.Digit
import Flowchart.Prompt.Render
import Flowchart.Proofs.Walk.ReadingOrder

/-!
# The lines of a prompt

What the lines of a prompt can be. The diagram aside, a line is the first line about a step or an
aside: a fixed line, a fixed opening with a text of the graph behind it, or the line about a branch.
So what holds of these few forms holds of every line, whichever sections the prompt has.
-/

set_option autoImplicit false

namespace Flowchart

/-! ## Texts -/

/-- All texts of a graph: its own, those of its nodes and the ends of its edges. -/
def Graph.texts (g : Graph) : List String :=
  g.title :: g.description.toList ++
    g.nodes.flatMap (fun n => [n.id, n.title] ++ n.description.toList ++ n.condition.toList) ++
    g.edges.flatMap fun e => [e.source, e.target]

namespace Prompt

variable {g : Graph}

/-- The texts of a node are texts of the graph. -/
theorem mem_texts_of_node {n : Node} (mem : n ∈ g.nodes) {text : String}
    (own : text ∈ [n.id, n.title] ++ n.description.toList ++ n.condition.toList) :
    text ∈ g.texts :=
  List.mem_append_left _ (List.mem_append_right _ (List.mem_flatMap.2 ⟨n, mem, own⟩))

/-- The ids that an edge names are texts of the graph. -/
theorem mem_texts_of_edge {e : Edge} (mem : e ∈ g.edges) {text : String}
    (own : text ∈ [e.source, e.target]) : text ∈ g.texts :=
  List.mem_append_right _ (List.mem_flatMap.2 ⟨e, mem, own⟩)

/-- A description that is shown is the description of the node. -/
theorem mem_description {n : Node} {text : String} (shown : text ∈ n.distinctDescription?) :
    text ∈ n.description := by
  unfold Node.distinctDescription? Node.givenDescription? at shown
  rw [Option.mem_def, Option.filter_eq_some_iff, Option.filter_eq_some_iff] at shown
  exact shown.1.1

/-- A condition that is shown is the condition of the node. -/
theorem mem_condition {n : Node} {text : String} (shown : text ∈ distinctCondition? n) :
    text ∈ n.condition := by
  unfold distinctCondition? Node.givenCondition? at shown
  split at shown
  · rw [Option.mem_def, Option.filter_eq_some_iff, Option.filter_eq_some_iff] at shown
    exact shown.1.1
  · cases shown

/-- What an end of an edge is called is one of the texts of the graph. -/
theorem nameOf_mem_texts {e : Edge} (mem : e ∈ g.edges) {id : String}
    (atEnd : id ∈ [e.source, e.target]) : nameOf g id ∈ g.texts := by
  unfold nameOf
  cases found : g.lastNode? id with
  | none => exact mem_texts_of_edge mem atEnd
  | some n => exact mem_texts_of_node (Graph.mem_of_lastNode? found).1 (by simp)

/-! ## First lines about steps -/

/-- The first line about a step is its title behind words that neither break the line nor hold a
backtick. -/
theorem exists_stepHead_eq (number : Nat) (n : Node) : ∃ opening : String,
    stepHead number n = opening ++ n.title ∧ '\n' ∉ opening.toList ∧ '\x60' ∉ opening.toList := by
  refine ⟨Nat.repr number ++ ". **" ++ n.kind.label ++ ":** ", rfl, ?_⟩
  have digit {c : Char} (mem : c ∈ Nat.toDigits 10 number) : c.isDigit = true :=
    Nat.isDigit_of_mem_toDigits (by decide) (by decide) mem
  have label : '\n' ∉ n.kind.label.toList ∧ '\x60' ∉ n.kind.label.toList := by
    cases n.kind <;> decide
  simp only [String.toList_append, List.mem_append, Nat.toList_repr, not_or]
  constructor
  · exact ⟨⟨⟨fun feed => absurd (digit feed) (by decide), by decide⟩, label.1⟩, by decide⟩
  · exact ⟨⟨⟨fun mark => absurd (digit mark) (by decide), by decide⟩, label.2⟩, by decide⟩

/-! ## Asides -/

/-- A decimal digit of any script. -/
def isDecimal (c : Char) : Bool :=
  (Number.digitValue? c).isSome

/-- Fixed words at the start of a line: they break no line, hold no backtick, and do not start with
a digit. -/
def Fixed (cs : List Char) : Prop :=
  '\n' ∉ cs ∧ '\x60' ∉ cs ∧ cs.head?.any isDecimal = false

instance (cs : List Char) : Decidable (Fixed cs) :=
  inferInstanceAs (Decidable (_ ∧ _ ∧ _))

/-- A line that is neither the first line about a step nor one of the diagram. -/
inductive Aside (g : Graph) : String → Prop where
  | fixed {cs : List Char} (words : Fixed cs) : Aside g (String.ofList cs)
  | remark {cs : List Char} (words : Fixed cs) (nonempty : cs ≠ []) {text : String}
    (own : text ∈ g.texts) : Aside g (String.ofList cs ++ text)
  | branch (b : Branch) {source target : String} (ownSource : source ∈ g.texts)
    (ownTarget : target ∈ g.texts) :
    Aside g ("- **" ++ b.keyword ++ ":** \"" ++ source ++ "\" → \"" ++ target ++ "\"")

/-- The lines about the role are beside the steps. -/
theorem aside_roleLines (o : Options) : ∀ line ∈ roleLines o, Aside g line := by
  have goal : Aside g o.purpose.goal := by
    cases o.purpose <;> exact .fixed (by decide)
  have rule : ∀ line ∈ (o.strictness.map Strictness.rule).toList, Aside g line := by
    rw [Option.toList_map, List.forall_mem_map]
    intro strictness _
    cases strictness <;> exact .fixed (by decide)
  rw [roleLines, List.forall_mem_append, List.forall_mem_cons, List.forall_mem_cons,
    List.forall_mem_singleton]
  exact ⟨⟨.fixed (by decide), .fixed (by decide), goal⟩, rule⟩

/-- So are the lines of the overview. -/
theorem aside_overviewLines : ∀ line ∈ overviewLines g, Aside g line := by
  have title : Aside g ("Title: " ++ g.title) :=
    .remark (by decide) (by decide) List.mem_cons_self
  unfold overviewLines
  split
  · rw [List.forall_mem_append, List.forall_mem_cons, List.forall_mem_cons,
      List.forall_mem_singleton]
    refine ⟨⟨.fixed (by decide), .fixed (by decide), title⟩, ?_⟩
    intro line mem
    obtain ⟨text, given, rfl⟩ := Option.map_eq_some_iff.1 (Option.mem_toList.1 mem)
    have own : g.description = some text := (Option.filter_eq_some_iff.1 given).1
    exact .remark (by decide) (by decide) (by simp [Graph.texts, own])
  · simp

/-- The lines about a step are its first line and asides. -/
theorem stepLines_cases (number : Nat) {n : Node} (mem : n ∈ g.nodes) :
    ∃ others, stepLines number n = stepHead number n :: others ∧
      ∀ line ∈ others, Aside g line := by
  refine ⟨_, rfl, ?_⟩
  intro line isLine
  rcases List.mem_append.1 isLine with inDescription | inCondition
  · obtain ⟨text, shown, rfl⟩ := Option.map_eq_some_iff.1 (Option.mem_toList.1 inDescription)
    have own : text ∈ g.texts :=
      mem_texts_of_node mem (by simp [Option.mem_def.1 (mem_description shown)])
    exact .remark (by decide) (by decide) own
  · obtain ⟨text, shown, rfl⟩ := Option.map_eq_some_iff.1 (Option.mem_toList.1 inCondition)
    have own : text ∈ g.texts :=
      mem_texts_of_node mem (by simp [Option.mem_def.1 (mem_condition shown)])
    exact .remark (by decide) (by decide) own

/-- A line of a prompt that is not one of the diagram. -/
inductive Line (g : Graph) : String → Prop where
  | step (number : Nat) {n : Node} (mem : n ∈ g.nodes) : Line g (stepHead number n)
  | aside {line : String} (aside : Aside g line) : Line g line

/-- The numbered steps are lines of a prompt. -/
theorem line_numberedSteps {nodes : List Node} (inGraph : ∀ n ∈ nodes, n ∈ g.nodes) (number : Nat) :
    ∀ line ∈ numberedSteps number nodes, Line g line := by
  induction nodes generalizing number with
  | nil => simp [numberedSteps]
  | cons n rest ih =>
    have step := inGraph n List.mem_cons_self
    obtain ⟨others, lines, asides⟩ := stepLines_cases number step
    have below := ih (fun m mem => inGraph m (List.mem_cons_of_mem n mem)) (number + 1)
    rw [numberedSteps, lines, List.forall_mem_append, List.forall_mem_cons]
    exact ⟨⟨.step number step, fun line mem => .aside (asides line mem)⟩, below⟩

/-- The lines about the branches are beside the steps. -/
theorem aside_branchLines : ∀ line ∈ branchLines g, Aside g line := by
  have listed : ∀ line ∈ g.edges.filterMap (branchLine? g), Aside g line := by
    intro line mem
    obtain ⟨e, inGraph, isLine⟩ := List.mem_filterMap.1 mem
    obtain ⟨b, -, rfl⟩ := Option.map_eq_some_iff.1 isLine
    exact .branch b (nameOf_mem_texts inGraph (by simp)) (nameOf_mem_texts inGraph (by simp))
  unfold branchLines
  split
  · simp
  · rename_i first rest lines
    rw [lines, List.forall_mem_cons] at listed
    rw [List.forall_mem_append, List.forall_mem_cons, List.forall_mem_cons,
      List.forall_mem_singleton]
    exact ⟨⟨.fixed (by decide), .fixed (by decide), listed.1⟩, listed.2⟩

/-- So are the lines about the details. -/
theorem aside_detailLines (o : Options) : ∀ line ∈ detailLines o, Aside g line := by
  unfold detailLines
  split
  · rename_i detail _
    cases detail
    all_goals
      simp only [Detail.requirements, List.cons_append, List.nil_append, List.forall_mem_cons,
        List.not_mem_nil, false_imp_iff, implies_true, and_true]
      and_intros <;> exact .fixed (by decide)
  · simp

/-- So are the instructions. -/
theorem aside_instructionLines (o : Options) : ∀ line ∈ instructionLines o, Aside g line := by
  unfold instructionLines
  split
  · cases o.purpose
    all_goals
      simp only [Purpose.instructions, List.cons_append, List.nil_append, List.forall_mem_cons,
        List.not_mem_nil, false_imp_iff, implies_true, and_true]
      and_intros <;> exact .fixed (by decide)
  · simp

/-- So are the constraints. -/
theorem aside_constraintLines : ∀ line ∈ constraintLines, Aside g line := by
  simp only [constraintLines, List.forall_mem_cons, List.not_mem_nil, false_imp_iff, implies_true,
    and_true]
  and_intros <;> exact .fixed (by decide)

end Prompt

end Flowchart
