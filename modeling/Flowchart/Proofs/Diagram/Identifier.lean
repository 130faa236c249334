import Flowchart.Diagram
import Flowchart.Document.Graph
import Flowchart.Proofs.Walk.ReadingOrder
import Mathlib.Data.List.DropRight

/-!
# How a diagram tells steps apart

An identifier is an id with its unsafe characters masked. Where that could not stand in a diagram it
is completed: something is put in front of it if it is empty or starts with a digit, and behind it
if it is the reserved word. So two ids have one identifier exactly if they are masked alike, or if
one of them is masked to what the other is completed to. A diagram names its steps by their
identifiers, in the lines about them and at both ends of every edge, and it tells them apart exactly
if no two steps have such ids. That ids are different is not enough.
-/

set_option autoImplicit false

namespace Flowchart.Diagram

/-! ## Masking and completing -/

/-- What a masked id is completed to if it cannot stand in a diagram. -/
inductive Completes : List Char → List Char → Prop
  | headed {cs : List Char} (bare : ∀ c ∈ cs.head?, c.isDigit = true) :
      Completes cs ("n_".toList ++ cs)
  | tailed {cs : List Char} (reserved : isReserved cs = true) :
      Completes cs (cs ++ "_node".toList)

/-- A masked id that can stand in a diagram as it is. -/
structure Stands (cs : List Char) : Prop where
  first : ∃ c ∈ cs.head?, c.isDigit = false
  free : isReserved cs = false

/-- The reserved word has three letters, and the first of them is an E. -/
theorem exists_of_isReserved {cs : List Char} (reserved : isReserved cs = true) :
    ∃ c d e, cs = [c, d, e] ∧ c.toLower = 'e' := by
  have letters : cs.map Char.toLower = ['e', 'n', 'd'] := by simpa [isReserved] using reserved
  obtain ⟨c, _, rfl, first, more⟩ := List.map_eq_cons_iff.1 letters
  obtain ⟨d, _, rfl, -, more⟩ := List.map_eq_cons_iff.1 more
  obtain ⟨e, _, rfl, -, more⟩ := List.map_eq_cons_iff.1 more
  rw [List.map_eq_nil_iff.1 more]
  exact ⟨c, d, e, rfl, first⟩

/-- A digit has no other case. -/
theorem toLower_of_isDigit {c : Char} (digit : c.isDigit = true) : c.toLower = c := by
  unfold Char.toLower
  rw [dif_neg]
  rintro ⟨upper, -⟩
  have above : 'A'.val ≤ '9'.val := by
    simp only [Char.isDigit, Bool.and_eq_true, decide_eq_true_eq] at digit
    exact UInt32.le_trans upper digit.2
  exact absurd above (by decide)

/-- No digit is an E in lower case. -/
theorem isDigit_eq_false_of_toLower {c : Char} (letter : c.toLower = 'e') :
    c.isDigit = false := by
  by_contra digit
  rw [Bool.not_eq_false] at digit
  rw [toLower_of_isDigit digit] at letter
  rw [letter] at digit
  exact absurd digit (by decide)

/-- What a masked id is completed to can stand in a diagram. -/
theorem Completes.stands {cs ds : List Char} (completes : Completes cs ds) : Stands ds := by
  cases completes with
  | headed bare => exact ⟨⟨'n', by simp, by decide⟩, by simp [isReserved]⟩
  | tailed reserved =>
    obtain ⟨c, d, e, rfl, letter⟩ := exists_of_isReserved reserved
    exact ⟨⟨c, by simp, isDigit_eq_false_of_toLower letter⟩, by simp [isReserved]⟩

/-- What was completed can be told from the outcome. -/
theorem Completes.left_unique {cs ds es : List Char} (completes : Completes cs es)
    (other : Completes ds es) : cs = ds := by
  -- What gets an addition behind it starts with an E, and so with no other addition.
  have apart {as bs : List Char} (reserved : isReserved as = true) :
      "n_".toList ++ bs ≠ as ++ "_node".toList := by
    obtain ⟨c, d, e, rfl, letter⟩ := exists_of_isReserved reserved
    intro same
    obtain rfl : 'n' = c := (List.cons.inj same).1
    exact absurd letter (by decide)
  cases completes with
  | headed bare =>
    generalize whole : "n_".toList ++ cs = es at other
    cases other with
    | headed => exact List.append_cancel_left whole
    | tailed reserved => exact absurd whole (apart reserved)
  | tailed reserved =>
    generalize whole : cs ++ "_node".toList = es at other
    cases other with
    | headed => exact absurd whole.symm (apart reserved)
    | tailed => exact List.append_cancel_right whole

/-- An id whose masked form can stand is not completed. -/
theorem toList_identifier_of_stands {id : String} (stands : Stands (maskedId id)) :
    (identifier id).toList = maskedId id := by
  obtain ⟨⟨c, first, plain⟩, free⟩ := stands
  obtain ⟨rest, masked⟩ := List.head?_eq_some_iff.1 first
  unfold identifier
  rw [masked] at free ⊢
  simp [plain, free]

/-- Any other id is given what its masked form is completed to. -/
theorem toList_identifier_of_completes {id : String} {ds : List Char}
    (completes : Completes (maskedId id) ds) : (identifier id).toList = ds := by
  unfold identifier
  generalize maskedId id = cs at completes
  cases completes with
  | headed bare =>
    cases cs with
    | nil => simp [isReserved]
    | cons c rest => simp [bare c rfl, isReserved]
  | tailed reserved =>
    obtain ⟨c, d, e, rfl, letter⟩ := exists_of_isReserved reserved
    simp [isDigit_eq_false_of_toLower letter, reserved]

/-- An identifier is the masked id if that can stand, and else what it is completed to. -/
theorem identifier_cases (id : String) :
    (identifier id).toList = maskedId id ∧ Stands (maskedId id) ∨
      Completes (maskedId id) (identifier id).toList := by
  have completed {ds : List Char} (completes : Completes (maskedId id) ds) :
      Completes (maskedId id) (identifier id).toList :=
    (toList_identifier_of_completes completes).symm ▸ completes
  by_cases bare : ∀ c ∈ (maskedId id).head?, c.isDigit = true
  · exact .inr (completed (.headed bare))
  · cases reserved : isReserved (maskedId id) with
    | true => exact .inr (completed (.tailed reserved))
    | false =>
      push Not at bare
      obtain ⟨c, first, plain⟩ := bare
      have stands : Stands (maskedId id) := ⟨⟨c, first, by simpa using plain⟩, reserved⟩
      exact .inl ⟨toList_identifier_of_stands stands, stands⟩

/-- No identifier is empty. -/
theorem toList_identifier_ne_nil (id : String) : (identifier id).toList ≠ [] := by
  have stands : Stands (identifier id).toList := by
    rcases identifier_cases id with ⟨kept, stands⟩ | completes
    · exact kept.symm ▸ stands
    · exact completes.stands
  obtain ⟨c, first, -⟩ := stands.first
  exact List.ne_nil_of_mem (List.mem_of_head? first)

/-- Two ids between which identifiers do not tell: they are masked alike, or one of them is masked
to what the other is completed to. -/
def Merged (a b : String) : Prop :=
  maskedId a = maskedId b ∨ Completes (maskedId a) (maskedId b) ∨
    Completes (maskedId b) (maskedId a)

/-- Two ids have the same identifier exactly if they are merged. -/
theorem identifier_eq_iff {a b : String} : identifier a = identifier b ↔ Merged a b := by
  rw [← String.toList_inj]
  constructor
  · intro same
    rcases identifier_cases a with ⟨keptA, -⟩ | completesA
    · rcases identifier_cases b with ⟨keptB, -⟩ | completesB
      · exact .inl (by rw [← keptA, ← keptB, same])
      · exact .inr (.inr (by rwa [← keptA, same]))
    · rcases identifier_cases b with ⟨keptB, -⟩ | completesB
      · exact .inr (.inl (by rwa [← keptB, ← same]))
      · rw [same] at completesA
        exact .inl (completesA.left_unique completesB)
  · rintro (alike | completes | completes)
    · unfold identifier
      rw [alike]
    · rw [toList_identifier_of_completes completes, toList_identifier_of_stands completes.stands]
    · rw [toList_identifier_of_completes completes, toList_identifier_of_stands completes.stands]

/-- Identifiers are made of identifier characters. -/
theorem isIdentifierChar_of_mem {id : String} {c : Char} (mem : c ∈ (identifier id).toList) :
    isIdentifierChar c = true := by
  have masked {d : Char} (mem : d ∈ maskedId id) : isIdentifierChar d = true := by
    obtain ⟨e, -, rfl⟩ := List.mem_map.1 mem
    split
    · assumption
    · rfl
  have head : ∀ d ∈ "n_".toList, isIdentifierChar d = true := List.all_eq_true.1 (by decide)
  have tail : ∀ d ∈ "_node".toList, isIdentifierChar d = true := List.all_eq_true.1 (by decide)
  rcases identifier_cases id with ⟨kept, -⟩ | completes
  · exact masked (kept ▸ mem)
  · generalize (identifier id).toList = whole at completes mem
    cases completes with
    | headed => exact (List.mem_append.1 mem).elim (head c) masked
    | tailed => exact (List.mem_append.1 mem).elim masked (tail c)

/-! ## Identifiers in lines -/

/-- The line about a node has its identifier, and its label between the marks of its shape. -/
theorem nodeLine?_eq_some_iff {n : Node} {line : String} :
    nodeLine? n = some line ↔ ∃ opening closing, shape? n.kind = some (opening, closing) ∧
      line = "  " ++ identifier n.id ++ opening ++ label n.title ++ closing := by
  simp [nodeLine?, @eq_comm _ line]

/-- Exactly the steps have shapes. -/
theorem isSome_shape?_iff {n : Node} : (shape? n.kind).isSome ↔ n.isStep = true := by
  unfold Node.isStep
  cases n.kind <;> decide

/-- Exactly the steps have lines. -/
theorem isSome_nodeLine?_iff {n : Node} : (nodeLine? n).isSome ↔ n.isStep = true := by
  rw [nodeLine?, Option.isSome_map, isSome_shape?_iff]

/-- What an arrow is marked with. -/
def mark : Option Branch → String
  | some b => "|" ++ b.keyword ++ "|"
  | none => ""

/-- An edge is drawn as an arrow if both its ends are steps. -/
theorem edgeLine?_eq_some_iff {g : Graph} {e : Edge} {line : String} :
    edgeLine? g e = some line ↔ ∃ source target,
      (g.lastNode? e.source = some source ∧ source.isStep = true) ∧
      (g.lastNode? e.target = some target ∧ target.isStep = true) ∧
      line = "  " ++ identifier source.id ++ " -->" ++ mark e.branch ++ " " ++
        identifier target.id := by
  unfold edgeLine?
  cases g.lastNode? e.source with
  | none => simp
  | some source =>
    cases g.lastNode? e.target with
    | none => simp
    | some target =>
      cases e.branch <;> simp [Node.isStep, mark, and_assoc, @eq_comm _ line]

/-- The identifier that a line starts with, behind its two spaces. -/
def leading (line : String) : List Char :=
  (line.toList.drop 2).takeWhile isIdentifierChar

/-- The identifier that a line ends with. -/
def trailing (line : String) : List Char :=
  line.toList.rtakeWhile isIdentifierChar

/-- No shape begins with a character that could belong to the identifier in front of it. -/
theorem exists_head_shape {kind : NodeKind} {opening closing : String}
    (shape : shape? kind = some (opening, closing)) :
    ∃ c rest, opening.toList = c :: rest ∧ isIdentifierChar c = false := by
  cases kind <;> cases shape
  all_goals exact ⟨_, _, rfl, by decide⟩

/-- The identifier at the start of a line goes up to the first character that belongs to none. -/
theorem leading_eq {line id : String} (c : Char) (rest : List Char)
    (starts : line.toList = "  ".toList ++ (identifier id).toList ++ c :: rest)
    (stop : isIdentifierChar c = false) : leading line = (identifier id).toList := by
  have behind : line.toList.drop 2 = (identifier id).toList ++ c :: rest := by simp [starts]
  rw [leading, behind, List.takeWhile_append_of_pos fun d mem => isIdentifierChar_of_mem mem,
    List.takeWhile_cons_of_neg (by simp [stop]), List.append_nil]

/-- The identifier at the end of a line begins behind the last character that belongs to none. -/
theorem trailing_eq {line id : String} (c : Char) (front : List Char)
    (ends : line.toList = front ++ c :: (identifier id).toList)
    (stop : isIdentifierChar c = false) : trailing line = (identifier id).toList := by
  have reversed : line.toList.reverse = (identifier id).toList.reverse ++ c :: front.reverse := by
    simp [ends]
  have inside : ∀ d ∈ (identifier id).toList.reverse, isIdentifierChar d = true := by
    intro d mem
    exact isIdentifierChar_of_mem (List.mem_reverse.1 mem)
  rw [trailing, List.rtakeWhile, reversed, List.takeWhile_append_of_pos inside,
    List.takeWhile_cons_of_neg (by simp [stop]), List.append_nil, List.reverse_reverse]

/-- The line about a step starts with its identifier. -/
theorem leading_nodeLine {n : Node} {line : String} (isLine : nodeLine? n = some line) :
    leading line = (identifier n.id).toList := by
  obtain ⟨opening, closing, shape, rfl⟩ := nodeLine?_eq_some_iff.1 isLine
  obtain ⟨c, rest, marks, stop⟩ := exists_head_shape shape
  refine leading_eq c (rest ++ (label n.title).toList ++ closing.toList) ?_ stop
  simp [marks]

/-- The line about an edge has the identifiers of its ends at its own ends. -/
theorem leading_edgeLine {g : Graph} {e : Edge} {line : String}
    (isLine : edgeLine? g e = some line) :
    ∃ source target, g.lastNode? e.source = some source ∧ source.isStep = true ∧
      g.lastNode? e.target = some target ∧ target.isStep = true ∧
      leading line = (identifier source.id).toList ∧
      trailing line = (identifier target.id).toList := by
  obtain ⟨source, target, ⟨foundSource, stepSource⟩, ⟨foundTarget, stepTarget⟩, rfl⟩ :=
    edgeLine?_eq_some_iff.1 isLine
  refine ⟨source, target, foundSource, stepSource, foundTarget, stepTarget, ?_, ?_⟩
  · refine leading_eq ' '
      ("-->".toList ++ (mark e.branch ++ " " ++ identifier target.id).toList) ?_ (by decide)
    simp
  · refine trailing_eq ' '
      ("  " ++ identifier source.id ++ " -->" ++ mark e.branch).toList ?_ (by decide)
    simp

/-- The lines about steps start with their identifiers, in the same order. -/
theorem leading_nodeLines {nodes : List Node} (steps : ∀ n ∈ nodes, n.isStep = true) :
    (nodes.filterMap nodeLine?).map leading = nodes.map fun n => (identifier n.id).toList := by
  rw [List.map_filterMap, ← List.filterMap_eq_map]
  apply List.filterMap_congr
  intro n mem
  obtain ⟨line, isLine⟩ := Option.isSome_iff_exists.1 (isSome_nodeLine?_iff.2 (steps n mem))
  rw [isLine, Option.map_some, leading_nodeLine isLine]
  rfl

/-! ## Which diagrams tell their steps apart -/

/-- A diagram whose lines say which step they are about. -/
structure TellsApart (g : Graph) : Prop where
  /-- No two lines about steps start with one identifier. -/
  steps : ((g.inReadingOrder.filterMap nodeLine?).map leading).Nodup
  /-- Among the steps, the line about an edge names no others than those at its ends. -/
  edges : ∀ e ∈ g.edges, ∀ line ∈ edgeLine? g e, ∀ n ∈ g.steps, ∀ own ∈ nodeLine? n,
    (leading own = leading line ↔ n.id = e.source) ∧
    (leading own = trailing line ↔ n.id = e.target)

/-- If no two steps are merged, an identifier stands for the one step that it is made from. -/
theorem identifier_eq_iff_of_apart {g : Graph}
    (apart : ∀ m ∈ g.steps, ∀ n ∈ g.steps, Merged m.id n.id → m = n) {m n : Node}
    (stepM : m ∈ g.steps) (stepN : n ∈ g.steps) :
    (identifier m.id).toList = (identifier n.id).toList ↔ m.id = n.id := by
  rw [String.toList_inj]
  constructor
  · intro same
    rw [apart m stepM n stepN (identifier_eq_iff.1 same)]
  · exact congrArg identifier

/-- The diagram of a graph with different ids tells its steps apart exactly if no two of them have
ids between which identifiers do not tell. -/
theorem tellsApart_iff {g : Graph} (distinct : g.ids.Nodup) :
    TellsApart g ↔ ∀ m ∈ g.steps, ∀ n ∈ g.steps, Merged m.id n.id → m = n := by
  have listed : g.inReadingOrder.Perm g.steps := Graph.perm_steps_inReadingOrder distinct
  have steps : ∀ n ∈ g.inReadingOrder, n.isStep = true :=
    fun n => Graph.isStep_of_mem_inReadingOrder
  have names := leading_nodeLines steps
  constructor
  · rintro ⟨once, -⟩ m stepM n stepN merged
    rw [names] at once
    apply List.inj_on_of_nodup_map once (listed.mem_iff.2 stepM) (listed.mem_iff.2 stepN)
    rw [identifier_eq_iff.2 merged]
  · intro apart
    refine ⟨?_, ?_⟩
    · rw [names]
      refine List.Nodup.map_on ?_ (listed.nodup_iff.2 (Graph.nodup_steps distinct))
      intro m memM n memN same
      exact apart m (listed.mem_iff.1 memM) n (listed.mem_iff.1 memN)
        (identifier_eq_iff.1 (String.toList_inj.1 same))
    · intro e _ line isLine n step own isOwn
      obtain ⟨source, target, foundSource, stepSource, foundTarget, stepTarget, starts, ends⟩ :=
        leading_edgeLine isLine
      obtain ⟨inGraphSource, sameSource⟩ := Graph.mem_of_lastNode? foundSource
      obtain ⟨inGraphTarget, sameTarget⟩ := Graph.mem_of_lastNode? foundTarget
      rw [leading_nodeLine isOwn, starts, ends, ← sameSource, ← sameTarget]
      exact ⟨identifier_eq_iff_of_apart apart step (List.mem_filter.2 ⟨inGraphSource, stepSource⟩),
        identifier_eq_iff_of_apart apart step (List.mem_filter.2 ⟨inGraphTarget, stepTarget⟩)⟩

/-- A step whose id is the reserved word, and one whose id is what that word is completed to. -/
def closingGraph : Graph where
  nodes := [
    { id := "end", kind := .process, title := "Close" },
    { id := "end_node", kind := .output, title := "Done" }]
  edges := [{ source := "end", target := "end_node" }]

/-- Here it comes down to the two ids of its steps. -/
theorem tellsApart_iff_closingGraph : closingGraph.ids.Nodup ∧ (TellsApart closingGraph ↔
    ∀ m ∈ closingGraph.steps, ∀ n ∈ closingGraph.steps, Merged m.id n.id → m = n) := by
  have distinct : closingGraph.ids.Nodup := by decide
  exact ⟨distinct, tellsApart_iff distinct⟩

/-- The ids are different, but the diagram shows one step that leads to itself. -/
theorem render_closingGraph : closingGraph.ids.Nodup ∧ closingGraph.HasTitles ∧
    ¬ TellsApart closingGraph ∧ render closingGraph topDown =
      "flowchart TD\n  end_node[\"Close\"]\n  end_node([\"Done\"])\n  end_node --> end_node" := by
  refine ⟨by decide, ?_, ?_, by decide +kernel⟩
  · unfold Graph.HasTitles isTitle
    decide
  · rintro ⟨once, -⟩
    revert once
    decide +kernel

end Flowchart.Diagram
