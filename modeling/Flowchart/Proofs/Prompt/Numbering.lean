import Flowchart.Proofs.Diagram.Lines
import Flowchart.Proofs.Prompt.Lines

/-!
# The numbered lines of a prompt

A prompt lists the steps of a flow by numbered lines. Nothing else in it starts with a number: all
other lines begin with a fixed word or mark, and the lines of the diagram with a directive or an
indent. So where no text of the graph breaks a line, a reader who looks for the numbered lines finds
the steps in reading order, and numbered without gaps, whichever sections the prompt has and
whatever the texts say.
-/

set_option autoImplicit false

namespace Flowchart.Prompt

/-! ## Numbered lines -/

/-- Whether a line starts with a number, a point, a space and two asterisks. -/
def isNumbered (line : List Char) : Bool :=
  !(line.takeWhile isDecimal).isEmpty && ". **".toList.isPrefixOf (line.dropWhile isDecimal)

/-- A numbered line starts with digits, with a point, a space and two asterisks behind them. -/
theorem isNumbered_iff {line : List Char} :
    isNumbered line = true ↔ ∃ digits rest, digits ≠ [] ∧ (∀ c ∈ digits, isDecimal c = true) ∧
      line = digits ++ ". **".toList ++ rest := by
  constructor
  · intro numbered
    obtain ⟨some, mark⟩ := Bool.and_eq_true_iff.1 numbered
    obtain ⟨rest, after⟩ := List.isPrefixOf_iff_prefix.1 mark
    refine ⟨line.takeWhile isDecimal, rest, by simpa using some, ?_, ?_⟩
    · intro c mem
      exact List.mem_takeWhile_imp mem
    · rw [List.append_assoc, after, List.takeWhile_append_dropWhile]
  · rintro ⟨digits, rest, nonempty, decimal, rfl⟩
    have point : isDecimal '.' = false := by decide
    have mark : ". **".toList ++ rest = '.' :: (" **".toList ++ rest) := rfl
    rw [isNumbered, List.append_assoc, List.takeWhile_append_of_pos decimal,
      List.dropWhile_append_of_pos decimal, mark, List.takeWhile_cons_of_neg (by simp [point]),
      List.dropWhile_cons_of_neg (by simp [point]), List.append_nil]
    simp [nonempty]

/-- An ASCII digit is a decimal digit. -/
theorem isDecimal_of_isDigit {c : Char} (digit : c.isDigit = true) : isDecimal c = true := by
  obtain ⟨low, high⟩ : 48 ≤ c.toNat ∧ c.toNat ≤ 57 := Diagram.toNat_between digit
  rw [isDecimal, Number.digitValue?, Option.isSome_map, List.find?_isSome]
  refine ⟨0x30, List.mem_cons_self, ?_⟩
  simp only [Bool.and_eq_true, decide_eq_true_eq]
  omega

/-- The line at the head of a step is numbered. -/
theorem isNumbered_stepHead (number : Nat) (n : Node) :
    isNumbered (stepHead number n).toList = true := by
  rw [isNumbered_iff]
  refine ⟨(Nat.repr number).toList, (n.kind.label ++ ":** " ++ n.title).toList, ?_, ?_, ?_⟩
  · rw [Nat.toList_repr]
    exact Nat.toDigits_ne_nil
  · intro c mem
    rw [Nat.toList_repr] at mem
    exact isDecimal_of_isDigit (Nat.isDigit_of_mem_toDigits (by decide) (by decide) mem)
  · simp [stepHead]

/-! ## Quiet lines -/

/-- A text without a line feed. -/
def Flat (text : String) : Prop :=
  '\n' ∉ text.toList

instance (text : String) : Decidable (Flat text) :=
  inferInstanceAs (Decidable (¬ '\n' ∈ text.toList))

/-- Two flat texts make a flat text. -/
theorem Flat.append {s t : String} (hs : Flat s) (ht : Flat t) : Flat (s ++ t) := by
  unfold Flat
  rw [String.toList_append, List.mem_append]
  exact not_or.2 ⟨hs, ht⟩

/-- A line that does not start with a digit. -/
structure Quiet (line : String) : Prop where
  flat : Flat line
  first : ∀ c ∈ line.toList.head?, isDecimal c = false

/-- A fixed line is quiet if its characters say so. -/
theorem Quiet.ofList {cs : List Char} (quiet : '\n' ∉ cs ∧ cs.head?.any isDecimal = false) :
    Quiet (String.ofList cs) := by
  refine ⟨?_, ?_⟩
  · rw [Flat, String.toList_ofList]
    exact quiet.1
  · rw [String.toList_ofList]
    exact (Option.any_eq_false _ _).1 quiet.2

/-- A quiet opening makes a line quiet, whatever flat text follows. -/
theorem Quiet.append {opening : String} (quiet : Quiet opening) (nonempty : opening ≠ "")
    {text : String} (flat : Flat text) : Quiet (opening ++ text) := by
  refine ⟨quiet.flat.append flat, ?_⟩
  have chars : opening.toList ≠ [] := by simpa using nonempty
  rw [String.toList_append, List.head?_append_of_ne_nil _ chars]
  exact quiet.first

/-- A quiet line is not numbered. -/
theorem Quiet.isNumbered_eq_false {line : String} (quiet : Quiet line) :
    isNumbered line.toList = false := by
  have none : line.toList.takeWhile isDecimal = [] := by
    cases chars : line.toList with
    | nil => rfl
    | cons c rest => exact List.takeWhile_cons_of_neg (by simp [quiet.first c (by simp [chars])])
  rw [isNumbered, none]
  rfl

/-- Quiet lines are passed over by whoever looks for numbered ones. -/
theorem filter_isNumbered_eq_nil {lines : List String} (quiet : ∀ line ∈ lines, Quiet line) :
    (lines.map String.toList).filter isNumbered = [] := by
  rw [List.filter_eq_nil_iff, List.forall_mem_map]
  intro line mem
  simp [(quiet line mem).isNumbered_eq_false]

/-! ## The lines about the steps -/

variable {g : Graph}

/-- What is beside the steps is quiet if the texts of the graph are flat. -/
theorem Aside.quiet {line : String} (aside : Aside g line) (flat : ∀ text ∈ g.texts, Flat text) :
    Quiet line := by
  cases aside with
  | fixed words => exact .ofList ⟨words.1, words.2.2⟩
  | remark words nonempty own =>
    exact (Quiet.ofList ⟨words.1, words.2.2⟩).append (by simpa using nonempty) (flat _ own)
  | branch b ownSource ownTarget =>
    have opening : Quiet "- **" := .ofList (by decide)
    have keyword : Flat b.keyword := by cases b <;> decide
    have colon : Flat ":** \"" := by decide
    have arrow : Flat "\" → \"" := by decide
    have closing : Flat "\"" := by decide
    have tail := ((((keyword.append colon).append (flat _ ownSource)).append arrow).append
      (flat _ ownTarget)).append closing
    simpa only [String.append_assoc] using opening.append (by decide) tail

/-- The head of a step is flat if the texts of the graph are. -/
theorem flat_stepHead (flat : ∀ text ∈ g.texts, Flat text) {n : Node} (mem : n ∈ g.nodes)
    (number : Nat) : Flat (stepHead number n) := by
  obtain ⟨opening, line, noFeed, -⟩ := exists_stepHead_eq number n
  rw [line]
  exact Flat.append noFeed (flat _ (mem_texts_of_node mem (by simp)))

/-- So are all lines about the steps. -/
theorem flat_numberedSteps (flat : ∀ text ∈ g.texts, Flat text) {nodes : List Node}
    (inGraph : ∀ n ∈ nodes, n ∈ g.nodes) (number : Nat) :
    ∀ line ∈ numberedSteps number nodes, Flat line := by
  intro line mem
  cases line_numberedSteps inGraph number line mem with
  | step k isStep => exact flat_stepHead flat isStep k
  | aside aside => exact (aside.quiet flat).flat

/-- The numbered lines about some steps are those with their titles, numbered in order. -/
theorem filter_numberedSteps (flat : ∀ text ∈ g.texts, Flat text) {nodes : List Node}
    (inGraph : ∀ n ∈ nodes, n ∈ g.nodes) (number : Nat) :
    ((numberedSteps number nodes).map String.toList).filter isNumbered =
      nodes.mapIdx fun k n => (stepHead (number + k) n).toList := by
  induction nodes generalizing number with
  | nil => rfl
  | cons n rest ih =>
    obtain ⟨others, lines, asides⟩ := stepLines_cases number (inGraph n List.mem_cons_self)
    have quiet : ∀ line ∈ others, Quiet line := fun line mem => (asides line mem).quiet flat
    have below := ih (fun m mem => inGraph m (List.mem_cons_of_mem n mem)) (number + 1)
    have next : (fun (k : Nat) (m : Node) => (stepHead (number + (k + 1)) m).toList) =
        fun k m => (stepHead (number + 1 + k) m).toList := by
      funext k m
      rw [Nat.add_right_comm, Nat.add_assoc]
    rw [numberedSteps, lines, List.cons_append, List.map_cons,
      List.filter_cons_of_pos (isNumbered_stepHead number n), List.map_append, List.filter_append,
      filter_isNumbered_eq_nil quiet, List.nil_append, below, List.mapIdx_cons, next]
    rfl

/-! ## The lines of the diagram -/

/-- The lines of the section with the diagram, with those of the diagram one by one. -/
def pictureLines (g : Graph) (o : Options) : List String :=
  if o.withDiagram then
    ["", "## DIAGRAM", "\x60\x60\x60mermaid"] ++ (Diagram.diagramLines g Diagram.topDown ++
      ["\x60\x60\x60"])
  else []

/-- The lines of the diagram are quiet. -/
theorem quiet_pictureLines (g : Graph) (o : Options) : ∀ line ∈ pictureLines g o, Quiet line := by
  have drawn : ∀ line ∈ Diagram.diagramLines g Diagram.topDown, Quiet line := by
    intro line mem
    have plain := (Diagram.plain_diagramLines g (by decide) line mem).2
    have flat : Flat line := fun feed => absurd (plain '\n' feed) (by decide)
    have indent : ∀ rest : String, ∀ c ∈ ("  " ++ rest).toList.head?, isDecimal c = false := by
      intro rest c first
      obtain rfl : ' ' = c := by simpa using first
      decide
    rcases Diagram.mem_diagramLines_iff.1 mem with rfl | ⟨n, -, isLine⟩ | ⟨e, -, isLine⟩
    · have directive : Quiet "flowchart " := .ofList (by decide)
      exact directive.append (by decide) (by decide)
    · obtain ⟨opening, closing, -, rfl⟩ := Diagram.nodeLine?_eq_some_iff.1 isLine
      refine ⟨flat, ?_⟩
      simpa only [String.append_assoc] using indent _
    · obtain ⟨source, target, -, -, rfl⟩ := Diagram.edgeLine?_eq_some_iff.1 isLine
      refine ⟨flat, ?_⟩
      simpa only [String.append_assoc] using indent _
  unfold pictureLines
  split
  · rw [List.forall_mem_append, List.forall_mem_append, List.forall_mem_singleton,
      List.forall_mem_cons, List.forall_mem_cons, List.forall_mem_singleton]
    exact ⟨⟨.ofList (by decide), .ofList (by decide), .ofList (by decide)⟩, drawn,
      .ofList (by decide)⟩
  · simp

/-! ## Prompts as texts -/

/-- The lines of a prompt behind those about the steps. -/
def laterLines (g : Graph) (o : Options) : List String :=
  branchLines g ++ (detailLines o ++ (instructionLines o ++ (pictureLines g o ++ constraintLines)))

/-- The lines of a prompt before those about the steps. -/
def earlierLines (g : Graph) (o : Options) : List String :=
  roleLines o ++ (overviewLines g ++ ["", "## LOGIC FLOW"])

/-- The lines of a prompt are those before the steps, those about the steps, and those behind. -/
theorem render_eq (g : Graph) (o : Options) : render g o = Text.unlines
    (earlierLines g o ++ (numberedSteps 1 g.inReadingOrder ++ laterLines g o)) := by
  unfold render parts flowLines earlierLines laterLines diagramLines pictureLines
  split
  · have drawn : Diagram.diagramLines g Diagram.topDown ≠ [] := List.cons_ne_nil _ _
    have before : roleLines o ++ overviewLines g ++ ["", "## LOGIC FLOW"] ++
        numberedSteps 1 g.inReadingOrder ++ branchLines g ++ detailLines o ++ instructionLines o ++
        ["", "## DIAGRAM", "\x60\x60\x60mermaid"] ≠ [] := by simp
    have after : "\x60\x60\x60" :: constraintLines ≠ [] := List.cons_ne_nil _ _
    have flattened := Text.unlines_unlines before drawn after
    simpa only [Diagram.render, List.append_assoc, List.cons_append, List.nil_append]
      using flattened
  · simp only [List.append_assoc, List.nil_append]

/-- The lines in front of the steps are quiet. -/
theorem quiet_earlierLines (flat : ∀ text ∈ g.texts, Flat text) (o : Options) :
    ∀ line ∈ earlierLines g o, Quiet line := by
  rw [earlierLines, List.forall_mem_append, List.forall_mem_append, List.forall_mem_cons,
    List.forall_mem_singleton]
  exact ⟨fun line mem => (aside_roleLines o line mem).quiet flat,
    fun line mem => (aside_overviewLines line mem).quiet flat, .ofList (by decide),
    .ofList (by decide)⟩

/-- The lines behind the steps are quiet. -/
theorem quiet_laterLines (flat : ∀ text ∈ g.texts, Flat text) (o : Options) :
    ∀ line ∈ laterLines g o, Quiet line := by
  rw [laterLines, List.forall_mem_append, List.forall_mem_append, List.forall_mem_append,
    List.forall_mem_append]
  exact ⟨fun line mem => (aside_branchLines line mem).quiet flat,
    fun line mem => (aside_detailLines o line mem).quiet flat,
    fun line mem => (aside_instructionLines o line mem).quiet flat, quiet_pictureLines g o,
    fun line mem => (aside_constraintLines line mem).quiet flat⟩

/-- Where no text of a graph breaks a line, the numbered lines of its prompts are those about its
steps in reading order, and with different ids every step has one of them. -/
theorem numbered_lines {g : Graph} (flat : ∀ text ∈ g.texts, Flat text) (o : Options) :
    ((render g o).toList.splitOn '\n').filter isNumbered =
      g.inReadingOrder.mapIdx (fun k n =>
        (Nat.repr (k + 1) ++ ". **" ++ n.kind.label ++ ":** " ++ n.title).toList) ∧
    (g.ids.Nodup → ∀ n ∈ g.steps, ∃! k : Nat, g.inReadingOrder[k]? = some n) := by
  have earlier := quiet_earlierLines flat o
  have later := quiet_laterLines flat o
  have inGraph : ∀ n ∈ g.inReadingOrder, n ∈ g.nodes :=
    fun n mem => List.mem_of_mem_filter (Graph.mem_steps_of_mem_inReadingOrder mem)
  have steps := filter_numberedSteps flat inGraph 1
  constructor
  · have flatLines : ∀ line ∈ (earlierLines g o ++ (numberedSteps 1 g.inReadingOrder ++
        laterLines g o)).map String.toList, '\n' ∉ line := by
      rw [List.forall_mem_map, List.forall_mem_append, List.forall_mem_append]
      exact ⟨fun line mem => (earlier line mem).flat, flat_numberedSteps flat inGraph 1,
        fun line mem => (later line mem).flat⟩
    have feed : "\n".toList = ['\n'] := rfl
    -- No line of another section is numbered, so only those of the steps are left.
    rw [render_eq, Text.unlines, String.toList_intercalate, feed,
      List.splitOn_intercalate '\n' flatLines (by simp [earlierLines, roleLines]), List.map_append,
      List.map_append, List.filter_append, List.filter_append, filter_isNumbered_eq_nil earlier,
      filter_isNumbered_eq_nil later, List.nil_append, List.append_nil, steps]
    simp only [stepHead, Nat.add_comm 1]
  · intro distinct n step
    have listed : g.inReadingOrder.Perm g.steps := Graph.perm_steps_inReadingOrder distinct
    have once : g.inReadingOrder.Nodup := listed.nodup_iff.2 (Graph.nodup_steps distinct)
    obtain ⟨k, here⟩ := List.mem_iff_getElem?.1 (listed.mem_iff.2 step)
    refine ⟨k, here, ?_⟩
    intro j there
    obtain ⟨inBounds, -⟩ := List.getElem?_eq_some_iff.1 there
    exact (List.getElem?_inj inBounds once).1 (there.trans here.symm)

/-- A step whose title and description look like numbered lines, a branch that leads nowhere, and an
anchor. -/
def listGraph : Graph where
  title := "1. **Input:** Order"
  nodes := [
    { id := "end", kind := .finish, title := "End" },
    { id := "2", kind := .decision, title := "2. **Paid?",
      description := some "3. **Output:** Done" },
    { id := "1", kind := .output, title := "Done" }]
  edges := [
    { source := "2", target := "1", branch := some .yes },
    { source := "2", target := "4. **", branch := some .no }]

/-- In the prompt for this flow, just the heads of its two steps are numbered. -/
theorem numbered_lines_listGraph : (∀ text ∈ listGraph.texts, Flat text) ∧ listGraph.ids.Nodup ∧
    ((render listGraph { withDiagram := true }).toList.splitOn '\n').filter isNumbered =
      ["1. **Decision:** 2. **Paid?".toList, "2. **Output:** Done".toList] ∧
    ∀ n ∈ listGraph.steps, ∃! k : Nat, listGraph.inReadingOrder[k]? = some n := by
  have flat : ∀ text ∈ listGraph.texts, Flat text := by decide
  have distinct : listGraph.ids.Nodup := by decide
  obtain ⟨lines, once⟩ := numbered_lines flat { withDiagram := true }
  refine ⟨flat, distinct, ?_, once distinct⟩
  rw [lines]
  decide +kernel

end Flowchart.Prompt
