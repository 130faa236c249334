import Flowchart.Proofs.Outline.Balance
import Flowchart.Proofs.Outline.Passages
import Mathlib.Data.List.Flatten
import Mathlib.Data.List.Nodup
import Mathlib.Data.List.Perm.Subperm

/-!
# Where branches lead

The last line about a branch decides where the branch leads, and the last step with a title is the
one that the title stands for. The first rule is about the passage of a decision, the second one
about the whole outline. Together they say which branches the graph has: a decision is left by a
branch when the last line about it names a step, by one edge and to the last such step. If the line
names no step, it is reported, once and by its number, since no other branch has a line in common
with it.
-/

set_option autoImplicit false

namespace Flowchart.Outline

open scoped List

/-! ## The lines that branches come from -/

/-- The numbers of the lines that say where the branches of a step lead. -/
def Declaration.targetLines (d : Declaration) : List Nat :=
  (d.yes.map (·.line)).toList ++ (d.no.map (·.line)).toList

/-- A branch that is given to a step comes with one line, which may take the place of an earlier
one. -/
theorem Declaration.targetLines_withTarget (d : Declaration) (b : Branch) (target : Target) :
    (d.withTarget b target).targetLines <+~ target.line :: d.targetLines := by
  cases b with
  | yes => exact (List.subperm_cons _).2 (List.sublist_append_right _ _).subperm
  | no =>
    have moved : (d.withTarget .no target).targetLines ~
        target.line :: (d.yes.map (·.line)).toList := List.perm_append_comm
    exact moved.subperm.trans ((List.subperm_cons _).2 (List.sublist_append_left _ _).subperm)

/-- A line adds at most its own number to the lines that branches come from. -/
theorem Declaration.targetLines_taking (d : Declaration) (raw : List Char) (number : Nat) :
    (d.taking raw number).targetLines <+~ number :: d.targetLines := by
  unfold taking
  cases branchOf? raw with
  | none => exact List.Subperm.cons_self
  | some said =>
    simp only
    split
    · exact d.targetLines_withTarget said.1 ⟨said.2, number⟩
    · exact List.Subperm.cons_self

namespace Scan

/-- The numbers of the lines that say where branches lead. -/
def targetLines (s : Scan) : List Nat :=
  s.latestFirst.flatMap Declaration.targetLines

/-- A line adds at most its own number. -/
theorem targetLines_line {mode : Mode} {s s' : Scan} {raw : List Char} {number : Nat}
    (taken : s.line mode raw number = .ok s') : s'.targetLines <+~ number :: s.targetLines := by
  rcases line_cases taken with ⟨kind, label, -, rfl⟩ | ⟨-, -, adds⟩
  · exact List.Subperm.cons_self
  · rw [targetLines, targetLines, adds]
    cases s.latestFirst with
    | nil => exact List.nil_subperm
    | cons d before =>
      rw [List.modifyHead_cons, List.flatMap_cons, List.flatMap_cons, ← List.cons_append]
      exact (List.subperm_append_right _).2 (d.targetLines_taking raw number)

/-- Branches come from different lines, all of them among those that were taken. -/
theorem targetLines_lines {mode : Mode} {s s' : Scan} {number : Nat} {raws : List (List Char)}
    (earlier : s.targetLines <+~ List.range number)
    (taken : Scan.lines mode s number raws = .ok s') :
    s'.targetLines <+~ List.range (number + raws.length) := by
  refine lines_keep (fun number s => s.targetLines <+~ List.range number) ?_ earlier taken
  intro raw _ number s s' kept first
  have next : number :: List.range number ~ List.range (number + 1) := by
    rw [List.range_succ]
    exact (List.perm_append_singleton _ _).symm
  exact ((targetLines_line first).trans ((List.subperm_cons _).2 kept)).trans next.subperm

end Scan

/-- No two branches of an outline come from the same line. -/
theorem nodup_targetLines_of_scan {mode : Mode} {text : String} {s : Scan}
    (h : scan mode text = .ok s) : (s.declarations.flatMap Declaration.targetLines).Nodup := by
  have none : ({} : Scan).targetLines <+~ List.range 1 := List.nil_subperm
  obtain ⟨lines, same, within⟩ := Scan.targetLines_lines none h
  have distinct : s.targetLines.Nodup := same.nodup_iff.1 (within.nodup List.nodup_range)
  exact ((List.reverse_perm s.latestFirst).flatMap_right _).nodup_iff.2 distinct

/-- The reports on the branches of a step are about lines of that step. -/
theorem line_reportsOf (resolve : String → Option String) (e : Entry) :
    (reportsOf resolve e).map (·.line) <+ e.declaration.targetLines := by
  have own (b : Branch) : ((branchReportOf? resolve e b).map (·.line)).toList <+
      ((e.declaration.target? b).map (·.line)).toList := by
    unfold branchReportOf?
    cases e.declaration.target? b with
    | none => exact List.nil_sublist _
    | some target => cases found : resolve target.title <;> simp [Option.filter, found]
  by_cases decision : e.declaration.kind = .decision
  · have both : (reportsOf resolve e).map (·.line) =
        ((branchReportOf? resolve e .yes).map (·.line)).toList ++
          ((branchReportOf? resolve e .no).map (·.line)).toList := by
      rw [reportsOf, if_pos decision, Branch.all]
      cases yes : branchReportOf? resolve e .yes <;>
        cases no : branchReportOf? resolve e .no <;> simp [yes, no]
    rw [both]
    exact (own .yes).append (own .no)
  · rw [reportsOf, if_neg decision]
    exact List.nil_sublist _

/-- If branches come from different lines, no two reports are about the same line. -/
theorem nodup_line_reportsIn_links (resolve : String → Option String) {entries : List Entry}
    (distinct : (entries.flatMap fun e => e.declaration.targetLines).Nodup) :
    ((reportsIn (links resolve entries)).map (·.line)).Nodup := by
  rw [reportsIn_links, List.map_flatMap]
  exact (List.Sublist.flatMap_right entries fun e _ => line_reportsOf resolve e).nodup distinct

/-- Reports on different lines are found by their lines. -/
theorem filter_line_eq_singleton {reports : List Diagnostic}
    (distinct : (reports.map (·.line)).Nodup) {d : Diagnostic} (mem : d ∈ reports) :
    (reports.filter fun other => other.line == d.line) = [d] := by
  obtain ⟨before, after, rfl⟩ := List.append_of_mem mem
  rw [List.map_append, List.map_cons, List.nodup_middle, List.nodup_cons,
    ← List.map_append] at distinct
  have apart (other : Diagnostic) (mem : other ∈ before ++ after) :
      ¬ (other.line == d.line) = true := by
    intro same
    exact distinct.1 (beq_iff_eq.1 same ▸ List.mem_map_of_mem mem)
  have first : (before.filter fun other => other.line == d.line) = [] :=
    List.filter_eq_nil_iff.2 fun other mem => apart other (List.mem_append_left after mem)
  have last : (after.filter fun other => other.line == d.line) = [] :=
    List.filter_eq_nil_iff.2 fun other mem => apart other (List.mem_append_right before mem)
  rw [List.filter_append, List.filter_cons, if_pos (beq_self_eq_true _), first, last,
    List.nil_append]

/-! ## Branches -/

/-- What reading makes of a branch of a decision, given the last line about it, if there is one. -/
structure Attributed (r : Reading) (n : Node) (b : Branch) (last? : Option Target) : Prop where
  /-- The graph has the branch if the line names a step. -/
  edge_iff : (∃ x ∈ r.graph.edges, x.source = n.id ∧ x.branch = some b) ↔
    ∃ t ∈ last?, ∃ m ∈ r.graph.steps, m.title = t.title
  /-- Then it is one edge, to the last step with the title. -/
  edge : ∀ t ∈ last?, (∃ m ∈ r.graph.steps, m.title = t.title) →
    ∃ before m after, r.graph.steps = before ++ m :: after ∧ m.title = t.title ∧
      (∀ later ∈ after, later.title ≠ t.title) ∧
      (r.graph.edges.filter fun x => x.source == n.id && x.branch == some b) =
        [{ source := n.id, target := m.id, branch := some b }]
  /-- Otherwise the line is reported once. -/
  dangling : ∀ t ∈ last?, (∀ m ∈ r.graph.steps, m.title ≠ t.title) →
    ((r.diagnosticsOf .danglingTarget).filter fun d => d.line == t.line) =
      [⟨.unknownTarget n.title b t.title, t.line, t.title⟩]

/-- What reading makes of a passage: a step that is what its first line declares, with the branches
that its other lines give it. -/
structure ReadFrom (r : Reading) (n : Node) (p : Passage) : Prop where
  kind : n.kind = p.kind
  title : n.title = p.label.title
  description : n.description = p.label.description
  branches : n.kind = .decision → ∀ b, Attributed r n b (p.targets b).getLast?

section Held

variable {g : Graph} {entries : List Entry} (h : Holds g entries)
include h

/-- A held step is the last one with its title if that step was declared last with it. -/
theorem exists_last_of_holds {title id : String} (found : idOfTitle? entries title = some id) :
    ∃ before m after, g.steps = before ++ m :: after ∧ m.id = id ∧ m.title = title ∧
      ∀ later ∈ after, later.title ≠ title := by
  obtain ⟨before, e, after, rfl, same, titled, others⟩ := idOfTitle?_eq_some_iff.1 found
  refine ⟨before.map Entry.node, e.node, after.map Entry.node, ?_, same, titled, ?_⟩
  · rw [h.steps, List.map_append, List.map_cons]
  · intro later mem
    obtain ⟨other, inAfter, rfl⟩ := List.mem_map.1 mem
    exact others other inAfter

/-- Some step of the graph has a title exactly if the title stands for an id. -/
theorem exists_title_iff_of_holds {title : String} :
    (∃ m ∈ g.steps, m.title = title) ↔ ∃ id, idOfTitle? entries title = some id := by
  rw [← Option.ne_none_iff_exists', Ne, idOfTitle?_eq_none_iff, not_not, h.steps, titlesOf]
  simp

end Held

/-- A branch of a declared decision is read as the last line about it says. -/
theorem attributed_readingOf {mode : Mode} {text : String} (title description : Option String)
    {s : Scan} (scanned : scan mode text = .ok s) {e : Entry}
    (mem : e ∈ entriesIn mode s.declarations) (decision : e.declaration.kind = .decision)
    (b : Branch) :
    Attributed (readingOf mode title description s) e.node b (e.declaration.target? b) := by
  have holds := holds_readingOf mode title description (legible_of_scan scanned)
  have edges := holds.filter_edges mem decision b
  constructor
  · have leaves (x : Edge) :
        branchEdgeOf? (idOfTitle? (entriesIn mode s.declarations)) e b = some x ↔
          x ∈ (readingOf mode title description s).graph.edges ∧ x.source = e.id ∧
            x.branch = some b := by
      rw [← Option.mem_toList, ← edges, List.mem_filter, Bool.and_eq_true, beq_iff_eq, beq_iff_eq]
    simp only [e.id_node, ← leaves, exists_title_iff_of_holds holds, branchEdgeOf?,
      Option.map_eq_some_iff, Option.bind_eq_some_iff, Option.mem_def]
    constructor
    · rintro ⟨x, id, ⟨t, last, found⟩, -⟩
      exact ⟨t, last, id, found⟩
    · rintro ⟨t, last, id, found⟩
      exact ⟨_, id, ⟨t, last, found⟩, rfl⟩
  · intro t last named
    obtain ⟨id, found⟩ := (exists_title_iff_of_holds holds).1 named
    obtain ⟨before, m, after, whole, rfl, titled, others⟩ := exists_last_of_holds holds found
    refine ⟨before, m, after, whole, titled, others, ?_⟩
    rw [e.id_node, edges, branchEdgeOf?, Option.mem_def.1 last, Option.bind_some, found]
    rfl
  · intro t last unnamed
    have unknown : idOfTitle? (entriesIn mode s.declarations) t.title = none := by
      by_contra known
      obtain ⟨m, step, titled⟩ := (exists_title_iff_of_holds holds).2
        (Option.ne_none_iff_exists'.1 known)
      exact unnamed m step titled
    have reported : ⟨.unknownTarget e.node.title b t.title, t.line, t.title⟩ ∈
        reportsIn (linksIn mode s.declarations) := by
      rw [linksIn, reportsIn_links]
      refine List.mem_flatMap.2 ⟨e, mem, mem_reportsOf_iff.2 ⟨decision, b, ?_⟩⟩
      exact branchReportOf?_eq_some_iff.2 ⟨t, last, unknown, rfl⟩
    have distinct : ((entriesIn mode s.declarations).flatMap
        fun e => e.declaration.targetLines).Nodup := by
      have same := nodup_targetLines_of_scan scanned
      rw [← declarations_entriesIn mode s.declarations, List.flatMap_map] at same
      exact same
    -- No other report is about this line, since no other branch comes from it.
    obtain ⟨-, number, orderly⟩ := accounted_of_scan scanned
    rw [(diagnosticsOf_readingOf mode title description orderly).2.2]
    exact filter_line_eq_singleton (nodup_line_reportsIn_links _ distinct) reported

/-- The steps of a graph that was read stem from the passages of the outline, one from each, and so
do the branches of the decisions. -/
theorem readFrom_passages_of_read {mode : Mode} {text : String} {title description : Option String}
    {r : Reading} (isRead : read mode text title description = .ok r) :
    r.graph.ids.Nodup ∧
      List.Forall₂ (ReadFrom r) r.graph.steps
        (passages mode false 1 (Text.lines text.toList)) := by
  obtain ⟨s, scanned, rfl⟩ := read_eq_ok_iff.1 isRead
  have holds := holds_readingOf mode title description (legible_of_scan scanned)
  refine ⟨holds.distinct, ?_⟩
  have declared : List.Forall₂ (fun (e : Entry) (p : Passage) => e.declaration = p.declaration)
      (entriesIn mode s.declarations) (passages mode false 1 (Text.lines text.toList)) := by
    have same : List.Forall₂ (· = ·) ((entriesIn mode s.declarations).map (·.declaration))
        ((passages mode false 1 (Text.lines text.toList)).map Passage.declaration) := by
      rw [List.forall₂_eq_eq_eq, declarations_entriesIn, ← declarations_of_scan scanned]
    exact List.forall₂_map_left_iff.1 (List.forall₂_map_right_iff.1 same)
  rw [holds.steps, List.forall₂_map_left_iff]
  refine ((List.forall₂_and_left _ _).2 ⟨fun e mem => mem, declared⟩).imp ?_
  rintro e p ⟨mem, same⟩
  have kind : e.declaration.kind = p.kind := by rw [same, p.kind_declaration]
  have label : e.declaration.label = p.label := by rw [same, p.label_declaration]
  refine ⟨kind, congrArg Label.title label, congrArg Label.description label, ?_⟩
  intro decision b
  rw [← p.target?_declaration (kind.symm.trans decision) b, ← same]
  exact attributed_readingOf title description scanned mem decision b

/-- A decision names its yes branch twice and no step on its no branch, a remark stands between
the lines of its passage, and prose ends the passage before another branch line. -/
def refundText : String :=
  "DECISION: Paid?\n  YES -> Check\n  YES -> Close\n| remark\n  NO -> Ask\n" ++
    "tell the client\n  NO -> Close\nPROCESS: Close\nPROCESS: Check\nPROCESS: Close"

/-- What is read from it with anchors, prose being taken for process steps. -/
def refundReading : Reading where
  graph := {
    nodes := [
      { id := "node_1", kind := .start, title := "Start" },
      { id := "node_2", kind := .decision, title := "Paid?" },
      { id := "node_3", kind := .process, title := "tell the client" },
      { id := "node_4", kind := .process, title := "NO -> Close" },
      { id := "node_5", kind := .process, title := "Close" },
      { id := "node_6", kind := .process, title := "Check" },
      { id := "node_7", kind := .process, title := "Close" },
      { id := "node_8", kind := .finish, title := "End" }]
    edges := [
      { source := "node_1", target := "node_2" },
      { source := "node_2", target := "node_7", branch := some .yes },
      { source := "node_3", target := "node_4" },
      { source := "node_4", target := "node_5" },
      { source := "node_5", target := "node_6" },
      { source := "node_6", target := "node_7" },
      { source := "node_7", target := "node_8" }] }
  diagnostics := [
    ⟨.repeatedBranch "Paid?" .yes "Close", 3, "YES -> Close"⟩,
    ⟨.ignoredLine, 4, "| remark"⟩,
    ⟨.repeatedTitle "Close", 10, "Close"⟩,
    ⟨.unknownTarget "Paid?" .no "Ask", 5, "Ask"⟩]

/-- Its passages in the same mode. -/
def refundPassages : List Passage :=
  [⟨1, .decision, ⟨"Paid?", none⟩,
      ["  YES -> Check".toList, "  YES -> Close".toList, "| remark".toList, "  NO -> Ask".toList]⟩,
    ⟨6, .process, ⟨"tell the client", none⟩, []⟩,
    ⟨7, .process, ⟨"NO -> Close", none⟩, []⟩,
    ⟨8, .process, ⟨"Close", none⟩, []⟩,
    ⟨9, .process, ⟨"Check", none⟩, []⟩,
    ⟨10, .process, ⟨"Close", none⟩, []⟩]

/-- The branch that is given twice leads where its last line says, and the one that names no step is
reported at its line. -/
theorem readFrom_passages_of_read_refundText :
    read ⟨true, true⟩ refundText = .ok refundReading ∧
      passages ⟨true, true⟩ false 1 (Text.lines refundText.toList) = refundPassages ∧
      List.Forall₂ (ReadFrom refundReading) refundReading.graph.steps refundPassages := by
  have isRead : read ⟨true, true⟩ refundText = .ok refundReading := by
    decide +kernel
  have cut : passages ⟨true, true⟩ false 1 (Text.lines refundText.toList) = refundPassages := by
    decide +kernel
  refine ⟨isRead, cut, ?_⟩
  rw [← cut]
  exact (readFrom_passages_of_read isRead).2

end Flowchart.Outline
