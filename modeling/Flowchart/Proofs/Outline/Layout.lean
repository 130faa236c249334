import Flowchart.Proofs.Graph.Framed
import Flowchart.Proofs.Outline.Links
import Flowchart.Proofs.Outline.Scan

/-!
# The graph of declared steps

What laying out declared steps comes to, in either mode. The steps of the graph are the declared
ones with distinct ids, its anchors lie outside them, and none of the edges that anchors add is a
branch. So the signature of the graph can be read off the declarations: it is what they say, less
the descriptions that only repeat a title and the branches that lead to no step.
-/

set_option autoImplicit false

namespace Flowchart

namespace Outline

/-- The node of a step has the id of the step. -/
@[simp] theorem Entry.id_node (e : Entry) : e.node.id = e.id := rfl

/-- The node of a step is of the declared kind. -/
@[simp] theorem Entry.kind_node (e : Entry) : e.node.kind = e.declaration.kind := rfl

/-- The node of a step has the declared title. -/
@[simp] theorem Entry.title_node (e : Entry) : e.node.title = e.declaration.title := rfl

/-- The node of a step has the declared description. -/
@[simp] theorem Entry.description_node (e : Entry) :
    e.node.description = e.declaration.label.description := rfl

/-- The source of the ids of the steps. Where there are anchors, the start has the first id. -/
def stepSource (mode : Mode) (declarations : List Declaration) : IdSource :=
  if mode.anchors && !declarations.isEmpty then { issued := 1 } else {}

/-- The declared steps with their ids. -/
def entriesIn (mode : Mode) (declarations : List Declaration) : List Entry :=
  List.zipWith Entry.mk ((stepSource mode declarations).take declarations.length).1 declarations

/-- Declared steps get the next ids from the source, in order. -/
theorem ids_entriesIn (mode : Mode) (declarations : List Declaration) :
    (entriesIn mode declarations).map (·.id) =
      ((stepSource mode declarations).take declarations.length).1 := by
  unfold entriesIn
  rw [← List.map_uncurry_zip_eq_zipWith, List.map_map]
  exact List.map_fst_zip (IdSource.length_take _ _).le

/-- Every declared step gets an id, and the order stays. -/
theorem declarations_entriesIn (mode : Mode) (declarations : List Declaration) :
    (entriesIn mode declarations).map (·.declaration) = declarations := by
  unfold entriesIn
  rw [← List.map_uncurry_zip_eq_zipWith, List.map_map]
  exact List.map_snd_zip (IdSource.length_take _ _).ge

/-- The links between the declared steps. -/
def linksIn (mode : Mode) (declarations : List Declaration) : List (Except Diagnostic Edge) :=
  let entries := entriesIn mode declarations
  links (idOfTitle? entries) entries

/-- What reading makes of a scan. -/
def readingOf (mode : Mode) (title description : Option String) (s : Scan) : Reading where
  graph := {
    title := (title.filter (· != "")).getD untitled
    description
    nodes := (layOutIn mode s.declarations).nodes
    edges := (layOutIn mode s.declarations).edges }
  diagnostics := s.diagnostics ++ (layOutIn mode s.declarations).diagnostics

/-- An outline is read exactly if it can be scanned, and then it is the scan that is laid out. -/
theorem read_eq_ok_iff {mode : Mode} {text : String} {title description : Option String}
    {r : Reading} : read mode text title description = .ok r ↔
      ∃ s, scan mode text = .ok s ∧ r = readingOf mode title description s := by
  have unfolded : read mode text title description =
      (scan mode text).map (readingOf mode title description) := rfl
  rw [unfolded]
  cases scan mode text with
  | error e => simp [Except.map]
  | ok s => simp [Except.map, eq_comm]

/-- Laying out reports repeated titles and then branches to no step, with anchors or without. -/
theorem diagnostics_layOutIn (mode : Mode) (declarations : List Declaration) :
    (layOutIn mode declarations).diagnostics =
      repeatedTitles [] declarations ++ reportsIn (linksIn mode declarations) := by
  by_cases anchored : (mode.anchors && !declarations.isEmpty) = true
  · simp only [layOutIn, linksIn, entriesIn, stepSource, anchored, if_true]
    rfl
  · simp only [layOutIn, linksIn, entriesIn, stepSource, anchored, if_false, Bool.false_eq_true]
    rfl

/-- Reports on repeated titles are of that kind. -/
theorem kind_of_mem_repeatedTitles {seen : List String} {declarations : List Declaration}
    {d : Diagnostic} (mem : d ∈ repeatedTitles seen declarations) : d.kind = .duplicateTitle := by
  induction declarations generalizing seen with
  | nil => simp [repeatedTitles] at mem
  | cons first rest ih =>
    unfold repeatedTitles at mem
    split at mem
    · rcases List.mem_cons.1 mem with rfl | later
      · rfl
      · exact ih later
    · exact ih mem

/-- The graph of the declared steps, without anchors. -/
def stepGraph (mode : Mode) (title description : Option String)
    (declarations : List Declaration) : Graph where
  title := (title.filter (· != "")).getD untitled
  description
  nodes := (entriesIn mode declarations).map Entry.node
  edges := edgesIn (linksIn mode declarations)

/-- The id of the start. -/
def startId : String := ({} : IdSource).numbered 1

/-- The id of the end of so many steps. -/
def endId (count : Nat) : String := ({} : IdSource).numbered (count + 2)

/-- Reading makes the graph of the declared steps, and frames it if there are to be anchors. -/
theorem graph_readingOf (mode : Mode) (title description : Option String) (s : Scan) :
    (readingOf mode title description s).graph =
      if mode.anchors && !s.declarations.isEmpty then
        (stepGraph mode title description s.declarations).framed startId
          (endId s.declarations.length)
      else stepGraph mode title description s.declarations := by
  unfold readingOf
  split
  · rename_i anchored
    have after : (({ issued := 1 } : IdSource).take s.declarations.length).2 =
        { issued := 1 + s.declarations.length } := (IdSource.take_eq _ _).2
    have last : (IdSource.next { issued := 1 + s.declarations.length }).1 =
        endId s.declarations.length := by
      have count : 1 + s.declarations.length + 1 = s.declarations.length + 2 := by omega
      exact congrArg ({} : IdSource).numbered count
    have next : ({} : IdSource).next = (startId, { issued := 1 }) := rfl
    simp only [stepGraph, linksIn, entriesIn, stepSource, layOutIn, anchored, if_true, next, after,
      last, Graph.framed, endEdges, ← List.append_assoc]
    rfl
  · rename_i bare
    simp only [stepGraph, linksIn, entriesIn, stepSource, layOutIn, bare, if_false,
      Bool.false_eq_true]
    rfl

/-- The nodes of the graph have the next ids from the source, in order. -/
theorem ids_stepGraph (mode : Mode) (title description : Option String)
    (declarations : List Declaration) : (stepGraph mode title description declarations).ids =
      ((stepSource mode declarations).take declarations.length).1 := by
  rw [← ids_entriesIn, Graph.ids, stepGraph, List.map_map]
  rfl

/-- No two nodes of the graph share an id. -/
theorem nodup_ids_stepGraph (mode : Mode) (title description : Option String)
    (declarations : List Declaration) :
    (stepGraph mode title description declarations).ids.Nodup := by
  rw [ids_stepGraph]
  exact IdSource.nodup_take _ _

/-- The edges between the declared steps lead from step to step. -/
theorem closed_stepGraph (mode : Mode) (title description : Option String)
    (declarations : List Declaration) {x : Edge}
    (mem : x ∈ (stepGraph mode title description declarations).edges) :
    x.source ∈ (stepGraph mode title description declarations).ids ∧
      x.target ∈ (stepGraph mode title description declarations).ids := by
  have ids : (stepGraph mode title description declarations).ids =
      (entriesIn mode declarations).map (·.id) := by
    rw [ids_stepGraph, ids_entriesIn]
  rw [ids]
  exact ⟨source_of_mem_links mem, target_of_mem_titleLinks mem⟩

/-- The node of a legible declaration is a step. -/
theorem isStep_node {e : Entry} (legible : e.declaration.Legible) : e.node.isStep = true := by
  have step : e.node.kind.isAnchor = false := mem_declarable_iff.1 legible.kind
  rw [Node.isStep, step]
  rfl

section Legible

variable {declarations : List Declaration} (legible : ∀ d ∈ declarations, d.Legible)
include legible

/-- Declarations stay legible when they get ids. -/
theorem legible_entriesIn (mode : Mode) : ∀ e ∈ entriesIn mode declarations,
    e.declaration.Legible := by
  intro e mem
  have declared : e.declaration ∈ declarations := by
    rw [← declarations_entriesIn mode declarations]
    exact List.mem_map_of_mem mem
  exact legible e.declaration declared

/-- All nodes of the graph are steps. -/
theorem isStep_of_mem_stepGraph (mode : Mode) (title description : Option String) :
    ∀ n ∈ (stepGraph mode title description declarations).nodes, n.isStep = true := by
  intro n mem
  obtain ⟨e, inEntries, rfl⟩ := List.mem_map.1 mem
  exact isStep_node (legible_entriesIn legible mode e inEntries)

/-- Where there are anchors, the graph of the steps leaves them their ids. -/
theorem framable_stepGraph {mode : Mode} (title description : Option String)
    (anchored : (mode.anchors && !declarations.isEmpty) = true) :
    (stepGraph mode title description declarations).Framable startId
      (endId declarations.length) where
  steps := isStep_of_mem_stepGraph legible mode title description
  closed _ mem := closed_stepGraph mode title description declarations mem
  startNew := by
    rw [ids_stepGraph, stepSource, if_pos anchored, IdSource.mem_take_iff]
    rintro ⟨k, low, -, same⟩
    have number : k = 1 := ({} : IdSource).numbered_injective same
    simp only at low
    omega
  endNew := by
    rw [ids_stepGraph, stepSource, if_pos anchored, IdSource.mem_take_iff]
    rintro ⟨k, -, high, same⟩
    have number : k = declarations.length + 2 := ({} : IdSource).numbered_injective same
    simp only at high
    omega
  apart := by
    intro same
    have number := ({} : IdSource).numbered_injective same
    omega

end Legible

/-! ## What the graph has of the declarations -/

/-- A graph that holds some steps and nothing else but anchors: its steps are these, no two nodes
share an id, and its branches are those of the links between the steps. -/
structure Holds (g : Graph) (entries : List Entry) : Prop where
  legible : ∀ e ∈ entries, e.declaration.Legible
  steps : g.steps = entries.map Entry.node
  distinct : g.ids.Nodup
  branches : g.branchEdges =
    (edgesIn (links (idOfTitle? entries) entries)).filter fun x => x.branch.isSome

/-- A graph still holds its steps when it is put between anchors. -/
theorem Holds.framed {g : Graph} {entries : List Entry} {first last : String} (h : Holds g entries)
    (framable : g.Framable first last) : Holds (g.framed first last) entries where
  legible := h.legible
  steps := by
    rw [framable.steps_framed, ← framable.steps_eq]
    exact h.steps
  distinct := framable.nodup_framed h.distinct
  branches := by
    rw [Graph.branchEdges_framed]
    exact h.branches

/-- No two of the steps that a graph holds share an id. -/
theorem Holds.nodup_ids {g : Graph} {entries : List Entry} (h : Holds g entries) :
    (entries.map (·.id)).Nodup := by
  have within : (g.steps.map (·.id)).Sublist g.ids := List.filter_sublist.map _
  rw [h.steps, List.map_map] at within
  exact within.nodup h.distinct

/-- The only edge that leaves a held decision by a branch is the one that the decision declares. -/
theorem Holds.filter_edges {g : Graph} {entries : List Entry} (h : Holds g entries) {e : Entry}
    (mem : e ∈ entries) (decision : e.declaration.kind = .decision) (b : Branch) :
    (g.edges.filter fun x => x.source == e.id && x.branch == some b) =
      (branchEdgeOf? (idOfTitle? entries) e b).toList := by
  have branches : (g.branchEdges.filter fun x => x.source == e.id && x.branch == some b) =
      g.edges.filter fun x => x.source == e.id && x.branch == some b := by
    rw [Graph.branchEdges, List.filter_filter]
    congr 1
    funext x
    cases x.branch <;> simp
  rw [← branches, h.branches, ← filter_edgesIn_links _ h.nodup_ids mem decision,
    List.filter_filter]
  congr 1
  funext x
  cases x.branch <;> simp

/-- What reading makes of a scan holds the steps that the scan declared. -/
theorem holds_readingOf (mode : Mode) (title description : Option String) {s : Scan}
    (legible : ∀ d ∈ s.declarations, d.Legible) :
    Holds (readingOf mode title description s).graph (entriesIn mode s.declarations) := by
  have holds : Holds (stepGraph mode title description s.declarations)
      (entriesIn mode s.declarations) := by
    refine ⟨legible_entriesIn legible mode, ?_, nodup_ids_stepGraph _ _ _ _, rfl⟩
    exact List.filter_eq_self.2 (isStep_of_mem_stepGraph legible mode title description)
  rw [graph_readingOf]
  split
  · rename_i anchored
    exact holds.framed (framable_stepGraph legible title description anchored)
  · exact holds

end Outline

end Flowchart
