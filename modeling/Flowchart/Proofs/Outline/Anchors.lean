import Flowchart.Proofs.Flow.Texts
import Flowchart.Proofs.Outline.Layout

/-!
# Reading with and without anchors

Whether anchors are asked for changes neither what an outline declares nor what is found odd about
it. The steps get other ids, the graph of the steps is put between a start and an end, and it shows
the same flow as without them to all who use it.
-/

set_option autoImplicit false

namespace Flowchart.Outline

/-! ## The same declarations -/

/-- What lines declare does not depend on whether anchors are asked for. -/
theorem lines_anchors (anchors other prose : Bool) (s : Scan) (number : Nat)
    (raws : List (List Char)) :
    Scan.lines ⟨anchors, prose⟩ s number raws = Scan.lines ⟨other, prose⟩ s number raws := by
  induction raws generalizing s number with
  | nil => rfl
  | cons raw rest ih =>
    have first : s.line ⟨anchors, prose⟩ raw number = s.line ⟨other, prose⟩ raw number := rfl
    rw [Scan.lines, Scan.lines, first]
    cases s.line ⟨other, prose⟩ raw number with
    | error e => rfl
    | ok next => exact ih next (number + 1)

/-- What an outline declares does not depend on whether anchors are asked for. -/
theorem scan_anchors (anchors other prose : Bool) (text : String) :
    scan ⟨anchors, prose⟩ text = scan ⟨other, prose⟩ text :=
  lines_anchors anchors other prose {} 1 _

/-! ## The same links under other ids -/

/-- The step with another id. -/
def Entry.rename (f : String → String) (e : Entry) : Entry :=
  { e with id := f e.id }

variable {f : String → String}

/-- When the steps get other ids, a title stands for the other id of the same step. -/
theorem idOfTitle?_rename (entries : List Entry) (title : String) :
    idOfTitle? (entries.map (Entry.rename f)) title = (idOfTitle? entries title).map f := by
  unfold idOfTitle?
  rw [← List.map_reverse, List.find?_map, Option.map_map, Option.map_map]
  rfl

/-- The links of a step go along when the steps get other ids. -/
theorem linksOf_rename (resolve : String → Option String) (e : Entry) (rest : List Entry) :
    linksOf (fun t => (resolve t).map f) (e.rename f) (rest.map (Entry.rename f)) =
      (linksOf resolve e rest).map (Except.map (Edge.rename f)) := by
  unfold linksOf
  have kind : (e.rename f).declaration.kind = e.declaration.kind := rfl
  rw [kind]
  split
  · rw [List.map_filterMap]
    congr 1
    funext b
    have target : (e.rename f).declaration.target? b = e.declaration.target? b := rfl
    rw [target, Option.map_map]
    congr 1
    funext t
    unfold branchLink
    cases found : resolve t.title <;> simp [found] <;> rfl
  · rfl
  · cases rest with
    | nil => rfl
    | cons next rest =>
      have nextKind : (next.rename f).declaration.kind = next.declaration.kind := rfl
      simp only [List.map_cons, nextKind]
      split <;> rfl

/-- The links between steps go along when the steps get other ids. -/
theorem links_rename (resolve : String → Option String) (entries : List Entry) :
    links (fun t => (resolve t).map f) (entries.map (Entry.rename f)) =
      (links resolve entries).map (Except.map (Edge.rename f)) := by
  induction entries with
  | nil => rfl
  | cons e rest ih => rw [List.map_cons, links, links, linksOf_rename, ih, List.map_append]

/-- When the ids in some links are replaced, so are those in the edges among them. -/
theorem edgesIn_map (found : List (Except Diagnostic Edge)) :
    edgesIn (found.map (Except.map (Edge.rename f))) = (edgesIn found).map (Edge.rename f) := by
  unfold edgesIn
  rw [List.filterMap_map, List.map_filterMap]
  congr 1
  funext link
  cases link <;> rfl

/-- Reports do not mention ids. -/
theorem reportsIn_map (found : List (Except Diagnostic Edge)) :
    reportsIn (found.map (Except.map (Edge.rename f))) = reportsIn found := by
  unfold reportsIn
  rw [List.filterMap_map]
  congr 1
  funext link
  cases link <;> rfl

/-- With anchors, every step gets the id after the one that it has without them. -/
theorem entriesIn_anchors (prose : Bool) (declarations : List Declaration) :
    entriesIn ⟨true, prose⟩ declarations =
      (entriesIn ⟨false, prose⟩ declarations).map
        (Entry.rename ({} : IdSource).following) := by
  cases declarations with
  | nil => rfl
  | cons d rest =>
    have ids (count : Nat) : (IdSource.take count { issued := 1 }).1 =
        (IdSource.take count {}).1.map ({} : IdSource).following := by
      rw [(IdSource.take_eq _ _).1, (IdSource.take_eq _ _).1, List.map_map]
      have moved : List.range' 2 count = (List.range' 1 count).map (1 + ·) := by
        rw [List.map_add_range']
      simp only
      rw [moved, List.map_map]
      congr 1
      funext k
      rw [Function.comp_apply, Function.comp_apply, IdSource.following_numbered, Nat.add_comm]
      rfl
    unfold entriesIn
    rw [List.map_zipWith, stepSource, stepSource]
    simp only [List.isEmpty_cons, Bool.not_false, Bool.and_true, if_true, Bool.false_eq_true,
      if_false]
    rw [ids, List.zipWith_map_left]
    rfl

/-- With anchors, the steps have the same links under the ids that follow. -/
theorem linksIn_anchors (prose : Bool) (declarations : List Declaration) :
    linksIn ⟨true, prose⟩ declarations =
      (linksIn ⟨false, prose⟩ declarations).map
        (Except.map (Edge.rename ({} : IdSource).following)) := by
  unfold linksIn
  simp only [entriesIn_anchors]
  rw [← links_rename]
  congr 1
  funext title
  exact idOfTitle?_rename _ title

/-- With anchors, the graph of the steps is the same under the ids that follow. -/
theorem stepGraph_anchors (prose : Bool) (title description : Option String)
    (declarations : List Declaration) :
    stepGraph ⟨true, prose⟩ title description declarations =
      (stepGraph ⟨false, prose⟩ title description declarations).rename
        ({} : IdSource).following := by
  unfold stepGraph Graph.rename
  simp only [entriesIn_anchors, linksIn_anchors, edgesIn_map, List.map_map]
  rfl

/-- Anchors change nothing about what is reported. -/
theorem diagnostics_anchors (prose : Bool) (title description : Option String) (s : Scan) :
    (readingOf ⟨true, prose⟩ title description s).diagnostics =
      (readingOf ⟨false, prose⟩ title description s).diagnostics := by
  unfold readingOf
  simp only [diagnostics_layOutIn, linksIn_anchors, reportsIn_map]

/-! ## The same flow -/

/-- The second graph shows the flow of the first one, under other ids, to all who use it. -/
structure SameFlow (f : String → String) (g h : Graph) : Prop where
  steps : h.steps = g.steps.map (Node.rename f)
  stepEdges : h.stepEdges = g.stepEdges.map (Edge.rename f)
  outline : write h = write g
  signature : signature h = signature g
  prompt : ∀ o : Prompt.Options, o.withDiagram = false → Prompt.render h o = Prompt.render g o
  order : h.inReadingOrder = g.inReadingOrder.map (Node.rename f)
  diagram : ∀ direction, Diagram.render h direction = Diagram.render (g.rename f) direction
  report : ∀ deep, (Check.report h deep).issues =
    (Check.report g deep).issues.map (Check.Issue.rename f)
  unreachable : h.unreachable = g.unreachable.map f
  cycle : h.findCycle = g.findCycle.map f
  complexity : h.complexity = g.complexity

/-- Two graphs show the same flow if they are alike but for ids and anchors, and if their diagrams
agree. -/
theorem sameFlow_of_alike {g h : Graph} (alike : g.Alike f (Node.rename f) h) (tidy : g.Tidy)
    (diagram : ∀ direction, Diagram.render h direction = Diagram.render (g.rename f) direction) :
    SameFlow f g h where
  steps := alike.steps
  stepEdges := alike.stepEdges
  outline := write_alike alike tidy
  signature := signature_alike alike tidy
  prompt o noDiagram := by
    apply Prompt.render_alike alike tidy
    unfold Prompt.diagramLines
    rw [noDiagram]
    rfl
  order := alike.order
  diagram := diagram
  report := Check.report_alike alike tidy
  unreachable := alike.unreachable
  cycle := alike.cycle
  complexity := alike.complexity

/-- The graph of declared steps is tidy. -/
theorem tidy_stepGraph (mode : Mode) (title description : Option String)
    {declarations : List Declaration} (legible : ∀ d ∈ declarations, d.Legible) :
    (stepGraph mode title description declarations).Tidy where
  closed _ mem := closed_stepGraph mode title description declarations mem
  titled := by
    intro n mem
    obtain ⟨e, inEntries, rfl⟩ := List.mem_map.1 mem
    exact (legible_entriesIn legible mode e inEntries).label.title.2

/-- What is read with anchors shows the same flow as what is read without them. -/
theorem sameFlow_readingOf (prose : Bool) (title description : Option String) {s : Scan}
    (legible : ∀ d ∈ s.declarations, d.Legible) :
    SameFlow ({} : IdSource).following (readingOf ⟨false, prose⟩ title description s).graph
      (readingOf ⟨true, prose⟩ title description s).graph := by
  have alike := Graph.alike_rename ({} : IdSource).following_injective
    (stepGraph ⟨false, prose⟩ title description s.declarations)
  have tidy := tidy_stepGraph ⟨false, prose⟩ title description legible
  have same := stepGraph_anchors prose title description s.declarations
  rw [graph_readingOf, graph_readingOf, if_neg (by simp)]
  split
  · rename_i anchored
    have framable := framable_stepGraph legible title description anchored
    rw [same] at framable ⊢
    exact sameFlow_of_alike (alike.framed framable) tidy
      fun direction => Diagram.render_framed framable direction
  · rw [same]
    exact sameFlow_of_alike alike tidy fun _ => rfl

/-- With anchors, an outline is refused for the same reason as without them, or read as the same
flow with the same diagnostics. -/
theorem read_anchors (prose : Bool) (text : String) (title description : Option String) :
    (∃ e, read ⟨false, prose⟩ text title description = .error e ∧
      read ⟨true, prose⟩ text title description = .error e) ∨
    ∃ r s, read ⟨false, prose⟩ text title description = .ok r ∧
      read ⟨true, prose⟩ text title description = .ok s ∧
      s.diagnostics = r.diagnostics ∧
      SameFlow ({} : IdSource).following r.graph s.graph := by
  have scans := scan_anchors true false prose text
  cases scanned : scan ⟨false, prose⟩ text with
  | error e =>
    left
    refine ⟨e, ?_, ?_⟩
    · rw [read, scanned]
      rfl
    · rw [read, scans, scanned]
      rfl
  | ok s =>
    right
    refine ⟨_, _, read_eq_ok_iff.2 ⟨s, scanned, rfl⟩,
      read_eq_ok_iff.2 ⟨s, scans.trans scanned, rfl⟩, ?_, ?_⟩
    · exact diagnostics_anchors prose title description s
    · exact sameFlow_readingOf prose title description (legible_of_scan scanned)

end Flowchart.Outline
