import Flowchart.Proofs.Check.Raised
import Flowchart.Proofs.Outline.Layout

/-!
# What graphs that were read look like

A graph that was read is regular, whatever the outline says: its nodes are numbered in order, its
edges lead from node to node, its titles can be written on lines, and the edges between its steps
are what the kinds of the steps allow. Decisions are left by branches, one edge for each at most;
inputs and processes lead to the step after them, unless that is an output; outputs lead nowhere.
-/

set_option autoImplicit false

namespace Flowchart

open Text (OneLine)

/-- The edges between steps that leave an id. -/
def Graph.stepsFrom (g : Graph) (id : String) : List Edge :=
  g.stepEdges.filter fun x => x.source == id

/-- A graph whose nodes are numbered from one, whose edges lead from node to node, whose titles can
be written on lines, and whose steps are linked as their kinds allow. -/
structure Graph.Regular (g : Graph) : Prop where
  numbered : g.ids = (List.range' 1 g.nodes.length).map ({} : IdSource).numbered
  distinct : g.ids.Nodup
  closed : ∀ x ∈ g.edges, x.source ∈ g.ids ∧ x.target ∈ g.ids
  titles : ∀ n ∈ g.nodes, isTitle n.title ∧ '|' ∉ n.title.toList ∧ OneLine n.title
  branch_iff : ∀ x ∈ g.stepEdges,
    x.branch.isSome ↔ ∃ n ∈ g.steps, n.id = x.source ∧ n.kind = .decision
  decision : ∀ n ∈ g.steps, n.kind = .decision →
    ∀ b, ((g.stepsFrom n.id).filter fun x => x.branch == some b).length ≤ 1
  onward : ∀ n ∈ g.steps, n.kind = .input ∨ n.kind = .process →
    (g.stepsFrom n.id).length ≤ 1 ∧ ∀ x ∈ g.stepsFrom n.id, ∃ before next after,
      g.steps = before ++ n :: next :: after ∧ x.target = next.id ∧ next.kind ≠ .output
  output : ∀ n ∈ g.steps, n.kind = .output → g.stepsFrom n.id = []

namespace Outline

/-! ## The nodes -/

/-- The nodes of what was read are numbered from one, up to some number. -/
theorem ids_readingOf (mode : Mode) (title description : Option String) {s : Scan} :
    ∃ count, (readingOf mode title description s).graph.ids =
      (List.range' 1 count).map ({} : IdSource).numbered := by
  rw [graph_readingOf]
  split
  · rename_i anchored
    refine ⟨s.declarations.length + 2, ?_⟩
    rw [Graph.ids_framed, ids_stepGraph, stepSource, if_pos anchored, (IdSource.take_eq _ _).1,
      List.range'_succ, List.range'_concat, List.map_cons, List.map_append, List.map_singleton]
    have last : 1 + 1 + 1 * s.declarations.length = s.declarations.length + 2 := by omega
    rw [last]
    rfl
  · rename_i bare
    refine ⟨s.declarations.length, ?_⟩
    rw [ids_stepGraph, stepSource, if_neg bare, (IdSource.take_eq _ _).1]

/-- The nodes of what was read are numbered from one, in order. -/
theorem numbered_readingOf (mode : Mode) (title description : Option String) {s : Scan} :
    (readingOf mode title description s).graph.ids =
      (List.range' 1 (readingOf mode title description s).graph.nodes.length).map
        ({} : IdSource).numbered := by
  obtain ⟨count, ids⟩ := ids_readingOf mode title description (s := s)
  have size := congrArg List.length ids
  rw [Graph.ids, List.length_map, List.length_map, List.length_range'] at size
  rw [size, ids]

section Legible

variable {s : Scan} (legible : ∀ d ∈ s.declarations, d.Legible)
include legible

/-- The edges of what was read lead from node to node. -/
theorem closed_readingOf (mode : Mode) (title description : Option String) {x : Edge}
    (mem : x ∈ (readingOf mode title description s).graph.edges) :
    x.source ∈ (readingOf mode title description s).graph.ids ∧
      x.target ∈ (readingOf mode title description s).graph.ids := by
  rw [graph_readingOf] at mem ⊢
  split at mem
  · rename_i anchored
    rw [if_pos anchored]
    exact (framable_stepGraph legible title description anchored).closed_framed mem
  · rename_i bare
    rw [if_neg bare]
    exact closed_stepGraph mode title description s.declarations mem

/-- The titles in what was read can be written on lines. -/
theorem titles_readingOf (mode : Mode) (title description : Option String) {n : Node}
    (mem : n ∈ (readingOf mode title description s).graph.nodes) :
    isTitle n.title ∧ '|' ∉ n.title.toList ∧ OneLine n.title := by
  have declared {n : Node}
      (mem : n ∈ (stepGraph mode title description s.declarations).nodes) :
      isTitle n.title ∧ '|' ∉ n.title.toList ∧ OneLine n.title := by
    obtain ⟨e, inEntries, rfl⟩ := List.mem_map.1 mem
    have label := (legible_entriesIn legible mode e inEntries).label
    exact ⟨label.title, label.noBar, label.oneLine⟩
  have anchor {word : String} (mem : word ∈ ["Start", "End"]) :
      isTitle word ∧ '|' ∉ word.toList ∧ OneLine word := by
    unfold isTitle
    rcases List.mem_pair.1 mem with rfl | rfl <;> decide
  rw [graph_readingOf] at mem
  split at mem
  · rcases List.mem_append.1 mem with front | last
    · rcases List.mem_cons.1 front with rfl | inner
      · exact anchor (by simp [startNode])
      · exact declared inner
    · rw [List.mem_singleton.1 last]
      exact anchor (by simp [endNode])
  · exact declared mem

/-- The edges between the steps are the links between the declared steps. -/
theorem stepEdges_readingOf (mode : Mode) (title description : Option String) :
    (readingOf mode title description s).graph.stepEdges =
      edgesIn (linksIn mode s.declarations) := by
  rw [graph_readingOf]
  split
  · rename_i anchored
    exact (framable_stepGraph legible title description anchored).stepEdges_framed
  · exact Graph.stepEdges_eq_of_isStep (isStep_of_mem_stepGraph legible mode title description)

end Legible

/-! ## The edges -/

/-- A graph of some steps with the links between them. -/
structure Linked (g : Graph) (resolve : String → Option String) (entries : List Entry) : Prop where
  legible : ∀ e ∈ entries, e.declaration.Legible
  distinct : (entries.map (·.id)).Nodup
  steps : g.steps = entries.map Entry.node
  stepEdges : g.stepEdges = edgesIn (links resolve entries)

/-- What was read is a graph of the declared steps with the links between them. -/
theorem linked_readingOf (mode : Mode) (title description : Option String) {s : Scan}
    (legible : ∀ d ∈ s.declarations, d.Legible) :
    Linked (readingOf mode title description s).graph
      (idOfTitle? (entriesIn mode s.declarations)) (entriesIn mode s.declarations) where
  legible := legible_entriesIn legible mode
  distinct := by
    rw [ids_entriesIn]
    exact IdSource.nodup_take _ _
  steps := (holds_readingOf mode title description legible).steps
  stepEdges := stepEdges_readingOf legible mode title description

namespace Linked

variable {g : Graph} {resolve : String → Option String} {entries : List Entry}

/-- Every step stands somewhere among the declared steps, and the edges that leave it are its links
to those after it. -/
theorem exists_stepsFrom_eq (h : Linked g resolve entries) {n : Node} (mem : n ∈ g.steps) :
    ∃ before e rest, entries = before ++ e :: rest ∧ n = e.node ∧
      g.stepsFrom n.id = edgesIn (linksOf resolve e rest) := by
  rw [h.steps] at mem
  obtain ⟨e, inEntries, rfl⟩ := List.mem_map.1 mem
  obtain ⟨before, rest, whole⟩ := List.append_of_mem inEntries
  refine ⟨before, e, rest, whole, rfl, ?_⟩
  have distinct := h.distinct
  rw [whole] at distinct
  rw [Graph.stepsFrom, h.stepEdges, whole]
  exact filter_source_links resolve distinct

/-- An edge between steps leaves one of the declared steps and is one of its links. -/
theorem exists_of_mem_stepEdges (h : Linked g resolve entries) {x : Edge} (mem : x ∈ g.stepEdges) :
    ∃ e ∈ entries, ∃ rest, x.source = e.id ∧ x ∈ edgesIn (linksOf resolve e rest) := by
  have source : x.source ∈ entries.map (·.id) := by
    rw [h.stepEdges] at mem
    exact source_of_mem_links mem
  obtain ⟨e, inEntries, same⟩ := List.mem_map.1 source
  have step : e.node ∈ g.steps := h.steps ▸ List.mem_map_of_mem inEntries
  obtain ⟨before, other, rest, whole, node, leaving⟩ := h.exists_stepsFrom_eq step
  have leaves : x ∈ g.stepsFrom e.node.id := List.mem_filter.2 ⟨mem, by simp [same]⟩
  rw [leaving] at leaves
  refine ⟨other, by simp [whole], rest, ?_, leaves⟩
  exact source_of_mem_linksOf leaves

/-- A link has a branch when a decision makes it, and none otherwise. -/
theorem isSome_branch_iff {e : Entry} {rest : List Entry} {x : Edge}
    (mem : x ∈ edgesIn (linksOf resolve e rest)) :
    x.branch.isSome ↔ e.declaration.kind = .decision := by
  by_cases decision : e.declaration.kind = .decision
  · rw [edgesIn_linksOf_decision resolve rest decision, List.mem_filterMap] at mem
    obtain ⟨b, -, edge⟩ := mem
    obtain ⟨id, -, rfl⟩ := Option.map_eq_some_iff.1 edge
    simp [decision]
  · by_cases output : e.declaration.kind = .output
    · rw [edgesIn_linksOf_output resolve rest output] at mem
      simp at mem
    · rw [edgesIn_linksOf_other resolve rest decision output, Option.mem_toList] at mem
      obtain ⟨next, -, rfl⟩ := nextEdge?_eq_some mem
      simp [decision]

/-- An edge between steps is a branch exactly if it leaves a decision. -/
theorem branch_iff (h : Linked g resolve entries) {x : Edge} (mem : x ∈ g.stepEdges) :
    x.branch.isSome ↔ ∃ n ∈ g.steps, n.id = x.source ∧ n.kind = .decision := by
  obtain ⟨e, inEntries, rest, source, link⟩ := h.exists_of_mem_stepEdges mem
  rw [isSome_branch_iff link, source, h.steps]
  constructor
  · intro decision
    exact ⟨e.node, List.mem_map_of_mem inEntries, rfl, decision⟩
  · rintro ⟨n, step, same, decision⟩
    obtain ⟨other, inOthers, rfl⟩ := List.mem_map.1 step
    rw [← List.inj_on_of_nodup_map h.distinct inOthers inEntries same]
    exact decision

/-- A decision is left by one edge at most for each branch. -/
theorem length_branch_le (h : Linked g resolve entries) {n : Node} (step : n ∈ g.steps)
    (decision : n.kind = .decision) (b : Branch) :
    ((g.stepsFrom n.id).filter fun x => x.branch == some b).length ≤ 1 := by
  obtain ⟨before, e, rest, -, rfl, leaving⟩ := h.exists_stepsFrom_eq step
  rw [leaving, filter_branch_linksOf resolve rest decision]
  cases branchEdgeOf? resolve e b <;> simp

/-- An input or a process leads to the next step, if anywhere, and never to an output. -/
theorem onward (h : Linked g resolve entries) {n : Node} (step : n ∈ g.steps)
    (inner : n.kind = .input ∨ n.kind = .process) :
    (g.stepsFrom n.id).length ≤ 1 ∧ ∀ x ∈ g.stepsFrom n.id, ∃ before next after,
      g.steps = before ++ n :: next :: after ∧ x.target = next.id ∧ next.kind ≠ .output := by
  obtain ⟨before, e, rest, whole, rfl, leaving⟩ := h.exists_stepsFrom_eq step
  have noDecision : e.declaration.kind ≠ .decision := by
    intro decision
    simp [decision] at inner
  have noOutput : e.declaration.kind ≠ .output := by
    intro output
    simp [output] at inner
  rw [leaving, edgesIn_linksOf_other resolve rest noDecision noOutput]
  constructor
  · cases nextEdge? e rest <;> simp
  · intro x mem
    rw [Option.mem_toList] at mem
    cases rest with
    | nil => simp [nextEdge?] at mem
    | cons next after =>
      by_cases output : next.declaration.kind = .output
      · simp [nextEdge?, output] at mem
      · simp only [nextEdge?, output, if_false, Option.some.injEq] at mem
        refine ⟨before.map Entry.node, next.node, after.map Entry.node, ?_, ?_, output⟩
        · rw [h.steps, whole, List.map_append, List.map_cons, List.map_cons]
        · rw [← mem]
          rfl

/-- No edge leads from an output to a step. -/
theorem stepsFrom_output (h : Linked g resolve entries) {n : Node} (step : n ∈ g.steps)
    (output : n.kind = .output) : g.stepsFrom n.id = [] := by
  obtain ⟨before, e, rest, -, rfl, leaving⟩ := h.exists_stepsFrom_eq step
  rw [leaving, edgesIn_linksOf_output resolve rest output]

end Linked

/-- Every graph that was read is regular, and no report on it finds a branch that leads nowhere. -/
theorem regular_of_read {mode : Mode} {text : String} {title description : Option String}
    {r : Reading} (isRead : read mode text title description = .ok r) :
    r.graph.Regular ∧
      ∀ deep, ∀ i ∈ (Check.report r.graph deep).issues, i.code ≠ "DANGLING_BRANCH" := by
  obtain ⟨s, scanned, rfl⟩ := read_eq_ok_iff.1 isRead
  have legible := legible_of_scan scanned
  have linked := linked_readingOf mode title description legible
  constructor
  · exact {
      numbered := numbered_readingOf mode title description
      distinct := (holds_readingOf mode title description legible).distinct
      closed := fun _ mem => closed_readingOf legible mode title description mem
      titles := fun _ mem => titles_readingOf legible mode title description mem
      branch_iff := fun _ mem => linked.branch_iff mem
      decision := fun _ step decision b => linked.length_branch_le step decision b
      onward := fun _ step inner => linked.onward step inner
      output := fun _ step output => linked.stepsFrom_output step output }
  · intro deep i mem
    apply Check.code_ne_of_closed _ mem
    intro x inGraph
    exact (closed_readingOf legible mode title description inGraph).2

/-- Two steps share a title, a decision names itself and gives one branch twice, and the last line
is no statement. -/
def parcelText : String :=
  "INPUT: Parcel\nDECISION: Parcel\n YES -> Send\n no -> Parcel\n Yes -> Sent\nprocess: Pack\n" ++
    "OUTPUT: Sent\nThank you"

/-- What is read from it with anchors, prose being taken for process steps. -/
def parcelReading : Reading where
  graph := {
    nodes := [
      { id := "node_1", kind := .start, title := "Start" },
      { id := "node_2", kind := .input, title := "Parcel" },
      { id := "node_3", kind := .decision, title := "Parcel" },
      { id := "node_4", kind := .process, title := "Pack" },
      { id := "node_5", kind := .output, title := "Sent" },
      { id := "node_6", kind := .process, title := "Thank you" },
      { id := "node_7", kind := .finish, title := "End" }]
    edges := [
      { source := "node_1", target := "node_2" },
      { source := "node_2", target := "node_3" },
      { source := "node_3", target := "node_5", branch := some .yes },
      { source := "node_3", target := "node_3", branch := some .no },
      { source := "node_5", target := "node_7" },
      { source := "node_6", target := "node_7" }] }
  diagnostics := [
    ⟨.repeatedBranch "Parcel" .yes "Sent", 5, "Yes -> Sent"⟩,
    ⟨.repeatedTitle "Parcel", 2, "Parcel"⟩]

/-- What is read from the outline. -/
theorem read_parcelText : read ⟨true, true⟩ parcelText = .ok parcelReading := by
  decide +kernel

/-- The graph that was read is regular, and none of its branches dangles. -/
theorem regular_of_read_parcelText :
    read ⟨true, true⟩ parcelText = .ok parcelReading ∧ parcelReading.graph.Regular ∧
      ∀ deep, ∀ i ∈ (Check.report parcelReading.graph deep).issues, i.code ≠ "DANGLING_BRANCH" :=
  ⟨read_parcelText, regular_of_read read_parcelText⟩

end Outline

end Flowchart
