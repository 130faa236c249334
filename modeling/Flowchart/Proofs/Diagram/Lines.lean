import Flowchart.Compile
import Flowchart.Proofs.Diagram.Identifier
import Flowchart.Proofs.Text.Trimming
import Flowchart.Proofs.Text.Words
import Mathlib.Data.List.Forall2

/-!
# The lines of a diagram

Whatever the ids and the titles of a graph are, its diagram has one line for the directive, one for
each step and one for each edge between steps. Ids come down to letters, digits and underscores, and
titles are put on one line with codes for the characters that could do harm, so neither of them can
end a line, close a shape, or start a fence or a tag. That is why every diagram that is made passes
the check for diagrams.
-/

set_option autoImplicit false

namespace Flowchart

/-- Both ends of an edge are steps. -/
def Graph.draws (g : Graph) (e : Edge) : Bool :=
  (g.lastNode? e.source).any Node.isStep && (g.lastNode? e.target).any Node.isStep

namespace Diagram

/-! ## Plain characters -/

/-- A character that ends no line and could not be taken for the start of a fence or a tag. -/
def isPlain (c : Char) : Bool :=
  !Text.isLineBreak c && c != '<' && c != '\x60'

/-- A text of plain characters. -/
def Plain (text : String) : Prop :=
  ∀ c ∈ text.toList, isPlain c = true

instance (text : String) : Decidable (Plain text) :=
  decidable_of_iff (text.toList.all isPlain = true) List.all_eq_true

/-- A plain character ends no line, opens no tag and is no backtick. -/
theorem isPlain_iff {c : Char} :
    isPlain c = true ↔ Text.isLineBreak c = false ∧ c ≠ '<' ∧ c ≠ '\x60' := by
  simp [isPlain, and_assoc]

/-- Two plain texts make a plain text. -/
theorem Plain.append {s t : String} (hs : Plain s) (ht : Plain t) : Plain (s ++ t) := by
  intro c mem
  rw [String.toList_append, List.mem_append] at mem
  exact mem.elim (hs c) (ht c)

/-- The directions of a diagram are plain. -/
theorem plain_of_mem_directions {direction : String} (known : direction ∈ directions) :
    Plain direction := by
  revert direction
  decide

/-- A plain text is on one line. -/
theorem Plain.oneLine {text : String} (plain : Plain text) : Text.OneLine text :=
  fun c mem => (isPlain_iff.1 (plain c mem)).1

/-- The code of a character that is tested to lie between two others lies between theirs. -/
theorem toNat_between {low high c : Char}
    (between : (decide (low.val ≤ c.val) && decide (c.val ≤ high.val)) = true) :
    low.toNat ≤ c.toNat ∧ c.toNat ≤ high.toNat := by
  obtain ⟨above, below⟩ := Bool.and_eq_true_iff.1 between
  exact ⟨UInt32.le_iff_toNat_le.1 (of_decide_eq_true above),
    UInt32.le_iff_toNat_le.1 (of_decide_eq_true below)⟩

/-- The codes of identifier characters lie in four ranges. -/
theorem toNat_of_isIdentifierChar {c : Char} (h : isIdentifierChar c = true) :
    48 ≤ c.toNat ∧ c.toNat ≤ 57 ∨ 65 ≤ c.toNat ∧ c.toNat ≤ 90 ∨ c.toNat = 95 ∨
      97 ≤ c.toNat ∧ c.toNat ≤ 122 := by
  rcases Bool.or_eq_true_iff.1 h with alphanumeric | underscore
  · rcases Bool.or_eq_true_iff.1 alphanumeric with letter | digit
    · rcases Bool.or_eq_true_iff.1 letter with upper | lower
      · exact .inr (.inl (toNat_between ((Bool.decide_and _ _).symm.trans upper)))
      · exact .inr (.inr (.inr (toNat_between lower)))
    · exact .inl (toNat_between digit)
  · rw [of_decide_eq_true underscore]
    exact .inr (.inr (.inl rfl))

/-- Identifier characters are plain. -/
theorem isPlain_of_isIdentifierChar {c : Char} (h : isIdentifierChar c = true) :
    isPlain c = true := by
  have code := toNat_of_isIdentifierChar h
  refine isPlain_iff.2 ⟨?_, ?_, ?_⟩
  · simp only [Text.isLineBreak, Bool.or_eq_false_iff, Bool.and_eq_false_iff,
      decide_eq_false_iff_not,
      beq_eq_false_iff_ne]
    omega
  · rintro rfl
    exact absurd h (by decide)
  · rintro rfl
    exact absurd h (by decide)

/-- Identifier characters are not blank. -/
theorem isBlank_eq_false_of_isIdentifierChar {c : Char} (h : isIdentifierChar c = true) :
    Text.isBlank c = false := by
  have code := toNat_of_isIdentifierChar h
  simp only [Text.isBlank, Bool.or_eq_false_iff, Bool.and_eq_false_iff, decide_eq_false_iff_not,
    beq_eq_false_iff_ne]
  omega

/-- An identifier is plain. -/
theorem plain_identifier (id : String) : Plain (identifier id) :=
  fun _ mem => isPlain_of_isIdentifierChar (isIdentifierChar_of_mem mem)

/-- An identifier holds no quote. -/
theorem quote_not_mem_identifier (id : String) : '\x22' ∉ (identifier id).toList :=
  fun mem => absurd (isIdentifierChar_of_mem mem) (by decide)

/-- A character that ends no line is written in a label without quotes and by plain characters. -/
theorem plain_labelChar {c : Char} (oneLine : Text.isLineBreak c = false) :
    ∀ d ∈ labelChar c, isPlain d = true ∧ d ≠ '\x22' := by
  have code {cs : List Char} (harmless : cs.all isPlain = true ∧ '\x22' ∉ cs) :
      ∀ d ∈ cs, isPlain d = true ∧ d ≠ '\x22' := by
    intro d mem
    exact ⟨List.all_eq_true.1 harmless.1 d mem, fun same => harmless.2 (same ▸ mem)⟩
  unfold labelChar
  split_ifs with quote opens closes backtick
  · exact code (by decide)
  · exact code (by decide)
  · exact code (by decide)
  · exact code (by decide)
  · intro d mem
    rw [List.mem_singleton.1 mem]
    exact ⟨isPlain_iff.2 ⟨oneLine, opens, backtick⟩, quote⟩

/-- A label is plain and holds no quote, whatever the title holds. -/
theorem plain_of_mem_label {title : String} {c : Char} (mem : c ∈ (label title).toList) :
    isPlain c = true ∧ c ≠ '\x22' := by
  rw [label, String.toList_ofList] at mem
  obtain ⟨d, inTitle, inCode⟩ := List.mem_flatMap.1 mem
  exact plain_labelChar (Text.isLineBreak_eq_false_of_mem_collapse inTitle) c inCode

/-! ## Plain lines -/

/-- Each of the two marks of a shape has one quote. -/
theorem marks_of_shape {kind : NodeKind} {opening closing : String}
    (shape : shape? kind = some (opening, closing)) :
    (Plain opening ∧ opening.toList.count '\x22' = 1) ∧
      Plain closing ∧ closing.toList.count '\x22' = 1 := by
  cases kind <;> cases shape
  all_goals decide

/-- The closing mark of a shape does not end in a blank. -/
theorem isBlank_getLast_of_shape {kind : NodeKind} {opening closing : String}
    (shape : shape? kind = some (opening, closing)) :
    closing.toList ≠ [] ∧ ∀ c ∈ closing.toList.getLast?, Text.isBlank c = false := by
  have ends : closing.toList ≠ [] ∧ closing.toList.getLast?.any Text.isBlank = false := by
    cases kind <;> cases shape
    all_goals decide
  exact ⟨ends.1, (Option.any_eq_false _ _).1 ends.2⟩

/-- A line that shows a step: its identifier, and its label between the marks of its shape, which
hold the only quotes of the line. -/
def Shows (n : Node) (line : List Char) : Prop :=
  ∃ opening closing, shape? n.kind = some (opening, closing) ∧
    line = ("  " ++ identifier n.id ++ opening ++ label n.title ++ closing).toList ∧
    opening.toList.count '\x22' = 1 ∧ closing.toList.count '\x22' = 1 ∧ line.count '\x22' = 2

/-- The line about a step shows it. -/
theorem shows_nodeLine {n : Node} {line : String} (isLine : nodeLine? n = some line) :
    Shows n line.toList := by
  obtain ⟨opening, closing, shape, rfl⟩ := nodeLine?_eq_some_iff.1 isLine
  obtain ⟨⟨-, opens⟩, -, closes⟩ := marks_of_shape shape
  have inIdentifier : (identifier n.id).toList.count '\x22' = 0 :=
    List.count_eq_zero.2 (quote_not_mem_identifier n.id)
  have inLabel : (label n.title).toList.count '\x22' = 0 :=
    List.count_eq_zero.2 fun mem => (plain_of_mem_label mem).2 rfl
  refine ⟨opening, closing, shape, rfl, opens, closes, ?_⟩
  simp [List.count_append, inIdentifier, inLabel, opens, closes]

/-- The line about a step is plain and not empty. -/
theorem plain_nodeLine {n : Node} {line : String} (isLine : nodeLine? n = some line) :
    line ≠ "" ∧ Plain line := by
  obtain ⟨opening, closing, shape, rfl⟩ := nodeLine?_eq_some_iff.1 isLine
  obtain ⟨⟨opens, -⟩, closes, -⟩ := marks_of_shape shape
  have words : Plain (label n.title) := fun c mem => (plain_of_mem_label mem).1
  have indent : Plain "  " := by decide
  exact ⟨by simp,
    (((indent.append (plain_identifier n.id)).append opens).append words).append closes⟩

/-- The line about an edge is plain and not empty. -/
theorem plain_edgeLine {g : Graph} {e : Edge} {line : String} (isLine : edgeLine? g e = some line) :
    line ≠ "" ∧ Plain line := by
  obtain ⟨source, target, -, -, rfl⟩ := edgeLine?_eq_some_iff.1 isLine
  have indent : Plain "  " := by decide
  have arrow : Plain " -->" := by decide
  have space : Plain " " := by decide
  have marked : Plain (mark e.branch) := by
    rcases e.branch with _ | _ | _ <;> decide
  refine ⟨by simp, ?_⟩
  exact ((((indent.append (plain_identifier source.id)).append arrow).append marked).append
    space).append (plain_identifier target.id)

/-- A diagram has a line for its direction, one for each step, and one for each edge between steps.
-/
theorem mem_diagramLines_iff {g : Graph} {direction line : String} :
    line ∈ diagramLines g direction ↔ line = "flowchart " ++ direction ∨
      (∃ n ∈ g.inReadingOrder, nodeLine? n = some line) ∨
        ∃ e ∈ g.edges, edgeLine? g e = some line := by
  rw [diagramLines, List.cons_append, List.mem_cons, List.mem_append, List.mem_filterMap,
    List.mem_filterMap]

/-- All lines of a diagram are plain and not empty. -/
theorem plain_diagramLines (g : Graph) {direction : String} (plain : Plain direction) :
    ∀ line ∈ diagramLines g direction, line ≠ "" ∧ Plain line := by
  intro line mem
  rcases mem_diagramLines_iff.1 mem with rfl | ⟨n, -, isLine⟩ | ⟨e, -, isLine⟩
  · have directive : Plain "flowchart " := by decide
    exact ⟨by simp, directive.append plain⟩
  · exact plain_nodeLine isLine
  · exact plain_edgeLine isLine

/-- No line of a diagram ends in a blank. -/
theorem isBlank_getLast_diagramLines (g : Graph) {direction : String}
    (known : direction ∈ directions) : ∀ line ∈ diagramLines g direction,
      ∀ c ∈ line.toList.getLast?, Text.isBlank c = false := by
  intro line mem
  rcases mem_diagramLines_iff.1 mem with rfl | ⟨n, -, isLine⟩ | ⟨e, -, isLine⟩
  · have ends : ("flowchart " ++ direction).toList.getLast?.any Text.isBlank = false := by
      clear mem
      revert direction
      decide
    exact (Option.any_eq_false _ _).1 ends
  · obtain ⟨opening, closing, shape, rfl⟩ := nodeLine?_eq_some_iff.1 isLine
    obtain ⟨nonempty, last⟩ := isBlank_getLast_of_shape shape
    rw [String.toList_append, List.getLast?_append_of_ne_nil _ nonempty]
    exact last
  · obtain ⟨source, target, -, -, rfl⟩ := edgeLine?_eq_some_iff.1 isLine
    rw [String.toList_append, List.getLast?_append_of_ne_nil _ (toList_identifier_ne_nil target.id)]
    intro c last
    exact isBlank_eq_false_of_isIdentifierChar (isIdentifierChar_of_mem (List.mem_of_getLast? last))

/-! ## Diagrams as texts -/

/-- A diagram comes apart into the lines that it was made of. -/
theorem lines_render (g : Graph) {direction : String} (plain : Plain direction) :
    Text.lines (render g direction).toList = (diagramLines g direction).map String.toList :=
  Text.lines_unlines fun line mem =>
    ⟨(plain_diagramLines g plain line mem).1, (plain_diagramLines g plain line mem).2.oneLine⟩

/-- What is not plain, line feeds apart, does not occur in a diagram. -/
theorem not_mem_render (g : Graph) {direction : String} (plain : Plain direction) {c : Char}
    (harmful : isPlain c = false) (noFeed : c ≠ '\n') : c ∉ (render g direction).toList := by
  intro mem
  rcases Text.mem_unlines mem with feed | ⟨line, isLine, inLine⟩
  · exact noFeed feed
  · rw [(plain_diagramLines g plain line isLine).2 c inLine] at harmful
    cases harmful

/-- A diagram starts with the word for a flowchart. -/
theorem head?_render (g : Graph) (direction : String) :
    (render g direction).toList.head? = some 'f' := by
  rw [render, diagramLines, List.cons_append, Text.head?_unlines (by simp), String.toList_append]
  rfl

/-- A diagram is not empty. -/
theorem render_ne_empty (g : Graph) (direction : String) : render g direction ≠ "" := by
  intro empty
  have first := head?_render g direction
  rw [empty] at first
  cases first

/-- A diagram is trimmed. -/
theorem trimmed_render (g : Graph) {direction : String} (known : direction ∈ directions) :
    Text.trimmed (render g direction) = render g direction := by
  have plain := plain_of_mem_directions known
  rw [Text.trimmed_eq_self_iff]
  apply Text.trim_unlines
  · rw [← render, head?_render]
    rintro c ⟨⟩
    decide
  · intro line mem
    exact ⟨(plain_diagramLines g plain line mem).1, isBlank_getLast_diagramLines g known line mem⟩

/-- A word is not mentioned where its first letter does not occur. -/
theorem mentions_eq_false {letter : Char} {word cs : List Char}
    (absent : ∀ c ∈ cs, Text.sameLetter letter c = false) :
    Text.mentions (letter :: word) cs = false := by
  induction cs with
  | nil => rfl
  | cons c rest ih =>
    have tail := ih fun d mem => absent d (List.mem_cons_of_mem c mem)
    rw [Text.mentions, Text.takeWord, absent c List.mem_cons_self, tail]
    rfl

/-- What is no small letter is the lower case of itself only. -/
theorem eq_of_toLower_eq {letter c : Char} (low : letter.toNat < 97) (same : c.toLower = letter) :
    c = letter := by
  unfold Char.toLower at same
  split at same
  · rename_i upper
    have above : 65 ≤ c.toNat := UInt32.le_iff_toNat_le.1 upper.1
    have below : c.toNat ≤ 90 := UInt32.le_iff_toNat_le.1 upper.2
    have code : letter.toNat = c.toNat + 32 := by
      have shift : ('a'.val - 'A'.val).toNat = 32 := rfl
      rw [← same]
      change (c.val + ('a'.val - 'A'.val)).toNat = c.toNat + 32
      rw [UInt32.toNat_add, shift]
      exact Nat.mod_eq_of_lt (by change c.toNat + 32 < 2 ^ 32; omega)
    omega
  · exact same

/-- A character that is no small letter, and has none, is recognised only as itself. -/
theorem sameLetter_eq_false {letter : Char} (low : letter.toNat < 97)
    (own : letter.toLower = letter) {cs : List Char} (absent : letter ∉ cs) :
    ∀ c ∈ cs, Text.sameLetter letter c = false := by
  intro c mem
  have notI : letter ≠ 'i' := by rintro rfl; exact absurd low (by decide)
  have notS : letter ≠ 's' := by rintro rfl; exact absurd low (by decide)
  have notK : letter ≠ 'k' := by rintro rfl; exact absurd low (by decide)
  have other : letter ≠ c.toLower := by
    intro lowered
    exact absent (eq_of_toLower_eq low lowered.symm ▸ mem)
  simp [Text.sameLetter, own, notI, notS, notK, other]

/-- Without tags and backticks, nothing forbidden is mentioned. -/
theorem mentions_forbidden_eq_false {cs : List Char} (noTag : '<' ∉ cs) (noFence : '\x60' ∉ cs)
    {word : String} (mem : word ∈ forbidden) : Text.mentions word.toList cs = false := by
  have tag := sameLetter_eq_false (by decide) (by decide) noTag
  have fence := sameLetter_eq_false (by decide) (by decide) noFence
  simp only [forbidden, List.mem_cons, List.not_mem_nil, or_false] at mem
  rcases mem with rfl | rfl | rfl
  · exact mentions_eq_false tag
  · exact mentions_eq_false tag
  · exact mentions_eq_false fence

/-- Every diagram that is made in one of the directions passes the check for diagrams. -/
theorem isDiagram_render (g : Graph) {direction : String} (known : direction ∈ directions) :
    isDiagram (render g direction) = true := by
  have directive : (!("flowchart " ++ direction).toList.all Text.isBlank) = true ∧
      isDirective (Text.trim ("flowchart " ++ direction).toList) = true := by
    revert direction
    decide
  obtain ⟨visible, isDirective⟩ := directive
  have plain := plain_of_mem_directions known
  have noTag := not_mem_render g plain (c := '<') (by decide) (by decide)
  have noFence := not_mem_render g plain (c := '\x60') (by decide) (by decide)
  have first : (Text.lines (render g direction).toList).find? (fun line => !line.all Text.isBlank) =
      some ("flowchart " ++ direction).toList := by
    rw [lines_render g plain, diagramLines, List.cons_append, List.map_cons]
    exact List.find?_cons_of_pos visible
  unfold isDiagram
  simp only [first, isDirective, Bool.true_and, List.all_eq_true]
  intro word mem
  rw [mentions_forbidden_eq_false noTag noFence mem]
  rfl

/-! ## What is drawn -/

/-- An edge has a line exactly if both its ends are steps. -/
theorem isSome_edgeLine? (g : Graph) (e : Edge) : (edgeLine? g e).isSome = g.draws e := by
  rw [Bool.eq_iff_iff, Option.isSome_iff_exists, Graph.draws, Bool.and_eq_true, Option.any_eq_true,
    Option.any_eq_true]
  constructor
  · rintro ⟨line, isLine⟩
    obtain ⟨source, target, atSource, atTarget, -⟩ := edgeLine?_eq_some_iff.1 isLine
    exact ⟨⟨source, atSource⟩, ⟨target, atTarget⟩⟩
  · rintro ⟨⟨source, atSource⟩, ⟨target, atTarget⟩⟩
    exact ⟨_, edgeLine?_eq_some_iff.2 ⟨source, target, atSource, atTarget, rfl⟩⟩

/-- A text that shows the steps and the edges of a graph, and nothing else. -/
structure Draws (g : Graph) (text : String) : Prop where
  noFence : '\x60' ∉ text.toList
  noTag : '<' ∉ text.toList
  /-- There is a line for the directive, one for each step, and one for each edge between steps. -/
  length : (Text.lines text.toList).length =
    1 + g.inReadingOrder.length + g.edges.countP g.draws
  /-- Behind the directive come the lines about the steps. -/
  steps : List.Forall₂ Shows g.inReadingOrder
    (((Text.lines text.toList).drop 1).take g.inReadingOrder.length)

/-- Each step has a line. -/
theorem forall₂_nodeLines {nodes : List Node} (steps : ∀ n ∈ nodes, n.isStep = true) :
    List.Forall₂ (fun n line => nodeLine? n = some line) nodes (nodes.filterMap nodeLine?) := by
  induction nodes with
  | nil => exact .nil
  | cons n rest ih =>
    obtain ⟨line, isLine⟩ :=
      Option.isSome_iff_exists.1 (isSome_nodeLine?_iff.2 (steps n List.mem_cons_self))
    rw [List.filterMap_cons_some isLine]
    exact .cons isLine (ih fun m mem => steps m (List.mem_cons_of_mem n mem))

/-- A diagram in a plain direction shows the steps and the edges between them, and nothing else. -/
theorem draws_render (g : Graph) {direction : String} (plain : Plain direction) :
    Draws g (render g direction) := by
  have steps : ∀ n ∈ g.inReadingOrder, n.isStep = true :=
    fun n => Graph.isStep_of_mem_inReadingOrder
  have pictured := forall₂_nodeLines steps
  have size : g.inReadingOrder.length = (g.inReadingOrder.filterMap nodeLine?).length :=
    pictured.length_eq
  refine ⟨?_, ?_, ?_, ?_⟩
  · exact not_mem_render g plain (by decide) (by decide)
  · exact not_mem_render g plain (by decide) (by decide)
  · have edges : g.edges.countP g.draws = (g.edges.filterMap (edgeLine? g)).length := by
      rw [List.length_filterMap_eq_countP]
      simp only [isSome_edgeLine?]
    rw [lines_render g plain, size, edges, diagramLines, List.length_map, List.length_append,
      List.length_cons, Nat.add_comm 1]
  · rw [lines_render g plain, diagramLines, List.cons_append, List.map_cons, List.drop_one,
      List.tail_cons, List.map_append, size]
    rw [List.take_left' (by rw [List.length_map]), List.forall₂_map_right_iff]
    exact pictured.imp fun n line => shows_nodeLine

/-- Whatever a graph holds, everything can be made from it: each lookup on the way finds
something, the diagram passes the check, and it shows the steps and the edges between steps and
nothing else. -/
theorem compile_draws (g : Graph) (o : Prompt.Options) :
    (∀ n ∈ g.entry?, (g.lastNode? n.id).isSome) ∧
      (∀ n ∈ g.inReadingOrder, (shape? n.kind).isSome) ∧
      (g.compile o).diagramIsSound = true ∧ Draws g (g.compile o).diagram := by
  refine ⟨?_, ?_, ?_, ?_⟩
  · intro n isEntry
    obtain ⟨found, isFound⟩ :=
      Graph.lastNode?_of_mem_ids (Graph.id_of_mem_startNodes (List.mem_of_head? isEntry))
    rw [isFound]
    rfl
  · intro n mem
    exact isSome_shape?_iff.2 (Graph.isStep_of_mem_inReadingOrder mem)
  · exact isDiagram_render g (by decide)
  · exact draws_render g (by decide)

end Diagram

end Flowchart
