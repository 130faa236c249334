import Flowchart.Outline.Reader
import Flowchart.Proofs.Graph.Distinct

/-!
# The links between declared steps

Which edges the second half of reading makes, and what it reports. A title stands for the last step
that has it, so it stands for nothing exactly when no step has it. Every link leaves the step that
it was made for, and so the only edge that leaves a decision by a branch is the one that the
decision itself declares. The branches that lead nowhere are reported, step by step.
-/

set_option autoImplicit false

namespace Flowchart.Outline

/-- The titles of some steps, in order. -/
def titlesOf (entries : List Entry) : List String :=
  entries.map (·.declaration.title)

/-- A title stands for the last step that has it. -/
theorem idOfTitle?_eq_some_iff {entries : List Entry} {title id : String} :
    idOfTitle? entries title = some id ↔ ∃ before e after, entries = before ++ e :: after ∧
      e.id = id ∧ e.declaration.title = title ∧
        ∀ later ∈ after, later.declaration.title ≠ title := by
  rw [idOfTitle?, Option.map_eq_some_iff]
  constructor
  · rintro ⟨e, found, rfl⟩
    obtain ⟨titled, after, before, whole, others⟩ := List.find?_eq_some_iff_append.1 found
    refine ⟨before.reverse, e, after.reverse, ?_, rfl, by simpa using titled, ?_⟩
    · rw [← List.reverse_reverse entries, whole]
      simp
    · intro later mem
      simpa using others later (List.mem_reverse.1 mem)
  · rintro ⟨before, e, after, rfl, rfl, titled, others⟩
    refine ⟨e, List.find?_eq_some_iff_append.2 ⟨by simpa using titled, after.reverse,
      before.reverse, by simp, ?_⟩, rfl⟩
    intro later mem
    simpa using others later (List.mem_reverse.1 mem)

/-- A title that stands for an id is the title of a step with that id. -/
theorem idOfTitle?_eq_some {entries : List Entry} {title id : String}
    (h : idOfTitle? entries title = some id) :
    ∃ e ∈ entries, e.id = id ∧ e.declaration.title = title := by
  obtain ⟨before, e, after, rfl, same, titled, -⟩ := idOfTitle?_eq_some_iff.1 h
  exact ⟨e, by simp, same, titled⟩

/-- A title stands for nothing exactly if no step has it. -/
theorem idOfTitle?_eq_none_iff {entries : List Entry} {title : String} :
    idOfTitle? entries title = none ↔ title ∉ titlesOf entries := by
  rw [idOfTitle?, Option.map_eq_none_iff, List.find?_eq_none]
  simp [titlesOf]

/-- What a title stands for depends on the ids and the titles of the steps only. -/
theorem idOfTitle?_congr {entries others : List Entry}
    (ids : others.map (·.id) = entries.map (·.id))
    (titles : titlesOf others = titlesOf entries) : idOfTitle? others = idOfTitle? entries := by
  funext title
  have pairs : others.map (fun e => (e.id, e.declaration.title)) =
      entries.map (fun e => (e.id, e.declaration.title)) := by
    have zipped (es : List Entry) : es.map (fun e => (e.id, e.declaration.title)) =
        (es.map (·.id)).zip (titlesOf es) := by
      rw [titlesOf, List.zip_map']
    rw [zipped, zipped, ids, titles]
  have through (es : List Entry) : idOfTitle? es title =
      (((es.map (fun e => (e.id, e.declaration.title))).reverse.find?
        fun p => p.2 == title).map (·.1)) := by
    rw [idOfTitle?, ← List.map_reverse, List.find?_map, Option.map_map]
    rfl
  rw [through, through, pairs]

/-! ## Edges -/

/-- The edges among two lists of links, one after the other. -/
theorem edgesIn_append (first second : List (Except Diagnostic Edge)) :
    edgesIn (first ++ second) = edgesIn first ++ edgesIn second := by
  simp [edgesIn]

/-- The reports among two lists of links, one after the other. -/
theorem reportsIn_append (first second : List (Except Diagnostic Edge)) :
    reportsIn (first ++ second) = reportsIn first ++ reportsIn second := by
  simp [reportsIn]

/-- The edge that a branch of a step comes to, if the branch leads to a step. -/
def branchEdgeOf? (resolve : String → Option String) (e : Entry) (b : Branch) : Option Edge :=
  ((e.declaration.target? b).bind fun target => resolve target.title).map fun id =>
    { source := e.id, target := id, branch := some b }

/-- The edge that leads from a step to the next one, if there is a next one and it is no output. -/
def nextEdge? (e : Entry) : List Entry → Option Edge
  | [] => none
  | next :: _ =>
    if next.declaration.kind = .output then none else some { source := e.id, target := next.id }

/-- The edges that leave a decision are those of its branches. -/
theorem edgesIn_linksOf_decision (resolve : String → Option String) {e : Entry} (rest : List Entry)
    (decision : e.declaration.kind = .decision) :
    edgesIn (linksOf resolve e rest) = Branch.all.filterMap (branchEdgeOf? resolve e) := by
  unfold linksOf edgesIn
  rw [decision, List.filterMap_filterMap]
  congr 1
  funext b
  cases leads : e.declaration.target? b with
  | none => simp [branchEdgeOf?, leads]
  | some target =>
    cases found : resolve target.title <;> simp [branchEdgeOf?, leads, branchLink, found]

/-- No edge leaves an output. -/
theorem edgesIn_linksOf_output (resolve : String → Option String) {e : Entry} (rest : List Entry)
    (output : e.declaration.kind = .output) : edgesIn (linksOf resolve e rest) = [] := by
  unfold linksOf
  rw [output]
  rfl

/-- From any other step, one edge at most leads on, to the next step. -/
theorem edgesIn_linksOf_other (resolve : String → Option String) {e : Entry} (rest : List Entry)
    (noDecision : e.declaration.kind ≠ .decision) (noOutput : e.declaration.kind ≠ .output) :
    edgesIn (linksOf resolve e rest) = (nextEdge? e rest).toList := by
  have choice : linksOf resolve e rest = (nextEdge? e rest).toList.map .ok := by
    unfold linksOf
    cases rest with
    | nil => cases kind : e.declaration.kind <;> first | rfl | exact absurd kind ‹_›
    | cons next rest =>
      by_cases output : next.declaration.kind = .output
      · cases kind : e.declaration.kind <;>
          first | exact absurd kind ‹_› | simp [nextEdge?, output]
      · cases kind : e.declaration.kind <;>
          first | exact absurd kind ‹_› | simp [nextEdge?, output]
  rw [choice]
  cases nextEdge? e rest <;> rfl

/-- The edge that leads on from a step leads to one of the steps after it. -/
theorem nextEdge?_eq_some {e : Entry} {rest : List Entry} {x : Edge}
    (h : nextEdge? e rest = some x) :
    ∃ next ∈ rest, x = { source := e.id, target := next.id } := by
  cases rest with
  | nil => simp [nextEdge?] at h
  | cons next rest =>
    by_cases output : next.declaration.kind = .output
    · simp [nextEdge?, output] at h
    · simp only [nextEdge?, output, if_false, Option.some.injEq] at h
      exact ⟨next, List.mem_cons_self, h.symm⟩

/-- A link leaves the step that it was made for. -/
theorem source_of_mem_linksOf {resolve : String → Option String} {e : Entry} {rest : List Entry}
    {x : Edge} (mem : x ∈ edgesIn (linksOf resolve e rest)) : x.source = e.id := by
  by_cases decision : e.declaration.kind = .decision
  · rw [edgesIn_linksOf_decision resolve rest decision, List.mem_filterMap] at mem
    obtain ⟨b, -, edge⟩ := mem
    obtain ⟨id, -, rfl⟩ := Option.map_eq_some_iff.1 edge
    rfl
  · by_cases output : e.declaration.kind = .output
    · rw [edgesIn_linksOf_output resolve rest output] at mem
      simp at mem
    · rw [edgesIn_linksOf_other resolve rest decision output, Option.mem_toList] at mem
      obtain ⟨next, -, rfl⟩ := nextEdge?_eq_some mem
      rfl

/-- Every edge among the links leaves one of the steps. -/
theorem source_of_mem_links {resolve : String → Option String} {entries : List Entry} {x : Edge}
    (mem : x ∈ edgesIn (links resolve entries)) : x.source ∈ entries.map (·.id) := by
  induction entries with
  | nil => simp [links, edgesIn] at mem
  | cons e rest ih =>
    rw [links, edgesIn_append, List.mem_append] at mem
    rw [List.map_cons, List.mem_cons]
    rcases mem with own | later
    · exact .inl (source_of_mem_linksOf own)
    · exact .inr (ih later)

/-- Every edge among the links leads to one of the steps, if titles stand for ids of steps. -/
theorem target_of_mem_links {titles : String → Option String} {entries : List Entry} {x : Edge}
    {ids : List String} (resolved : ∀ t id, titles t = some id → id ∈ ids)
    (within : ∀ e ∈ entries, e.id ∈ ids) (mem : x ∈ edgesIn (links titles entries)) :
    x.target ∈ ids := by
  induction entries with
  | nil => simp [links, edgesIn] at mem
  | cons e rest ih =>
    rw [links, edgesIn_append, List.mem_append] at mem
    rcases mem with own | later
    · by_cases decision : e.declaration.kind = .decision
      · rw [edgesIn_linksOf_decision titles rest decision, List.mem_filterMap] at own
        obtain ⟨b, -, edge⟩ := own
        obtain ⟨id, found, rfl⟩ := Option.map_eq_some_iff.1 edge
        obtain ⟨target, -, known⟩ := Option.bind_eq_some_iff.1 found
        exact resolved target.title id known
      · by_cases output : e.declaration.kind = .output
        · rw [edgesIn_linksOf_output titles rest output] at own
          simp at own
        · rw [edgesIn_linksOf_other titles rest decision output, Option.mem_toList] at own
          obtain ⟨next, inRest, rfl⟩ := nextEdge?_eq_some own
          exact within next (List.mem_cons_of_mem e inRest)
    · exact ih (fun other inRest => within other (List.mem_cons_of_mem e inRest)) later

/-- Where titles stand for steps, links lead to steps. -/
theorem target_of_mem_titleLinks {entries : List Entry} {x : Edge}
    (mem : x ∈ edgesIn (links (idOfTitle? entries) entries)) : x.target ∈ entries.map (·.id) := by
  refine target_of_mem_links ?_ (fun e inEntries => List.mem_map_of_mem inEntries) mem
  intro t id found
  obtain ⟨e, inEntries, rfl, -⟩ := idOfTitle?_eq_some found
  exact List.mem_map_of_mem inEntries

/-- The edges that leave a step are the ones that were made for it. -/
theorem filter_source_links (resolve : String → Option String)
    {before rest : List Entry} {e : Entry}
    (distinct : ((before ++ e :: rest).map (·.id)).Nodup) :
    ((edgesIn (links resolve (before ++ e :: rest))).filter fun x => x.source == e.id) =
      edgesIn (linksOf resolve e rest) := by
  -- Every link leaves its own step, and no other step has this id.
  induction before with
  | nil =>
    rw [List.nil_append, List.map_cons, List.nodup_cons] at distinct
    have own : ((edgesIn (linksOf resolve e rest)).filter fun x => x.source == e.id) =
        edgesIn (linksOf resolve e rest) := by
      rw [List.filter_eq_self]
      intro x mem
      simp [source_of_mem_linksOf mem]
    have later : ((edgesIn (links resolve rest)).filter fun x => x.source == e.id) = [] := by
      rw [List.filter_eq_nil_iff]
      intro x mem same
      exact distinct.1 (beq_iff_eq.1 same ▸ source_of_mem_links mem)
    rw [List.nil_append, links, edgesIn_append, List.filter_append, own, later, List.append_nil]
  | cons first before ih =>
    rw [List.cons_append, List.map_cons, List.nodup_cons] at distinct
    have earlier : ((edgesIn (linksOf resolve first (before ++ e :: rest))).filter fun x =>
        x.source == e.id) = [] := by
      rw [List.filter_eq_nil_iff]
      intro x mem same
      have source : first.id = e.id := (source_of_mem_linksOf mem).symm.trans (beq_iff_eq.1 same)
      exact distinct.1 (source ▸ List.mem_map_of_mem (by simp))
    rw [List.cons_append, links, edgesIn_append, List.filter_append, earlier, ih distinct.2,
      List.nil_append]

/-- The edge of a branch is found among the edges of a decision as the one edge with that branch. -/
theorem filter_branch_linksOf (resolve : String → Option String) {e : Entry} (rest : List Entry)
    (decision : e.declaration.kind = .decision) (b : Branch) :
    ((edgesIn (linksOf resolve e rest)).filter fun x => x.branch == some b) =
      (branchEdgeOf? resolve e b).toList := by
  have own (c : Branch) : (branchEdgeOf? resolve e c).filter (fun x => x.branch == some b) =
      if c = b then branchEdgeOf? resolve e c else none := by
    unfold branchEdgeOf?
    cases (e.declaration.target? c).bind fun target => resolve target.title with
    | none => simp
    | some id => by_cases same : c = b <;> simp [Option.filter, same]
  rw [edgesIn_linksOf_decision resolve rest decision, List.filter_filterMap]
  simp only [own, Branch.all]
  cases b with
  | yes => cases leads : branchEdgeOf? resolve e .yes <;> simp [leads]
  | no => cases leads : branchEdgeOf? resolve e .no <;> simp [leads]

/-- A decision itself declares the only edge that leaves it by a branch. -/
theorem filter_edgesIn_links (resolve : String → Option String) {entries : List Entry}
    (distinct : (entries.map (·.id)).Nodup) {e : Entry} (mem : e ∈ entries)
    (decision : e.declaration.kind = .decision) (b : Branch) :
    ((edgesIn (links resolve entries)).filter fun x => x.source == e.id && x.branch == some b) =
      (branchEdgeOf? resolve e b).toList := by
  obtain ⟨before, rest, rfl⟩ := List.append_of_mem mem
  rw [← filter_branch_linksOf resolve rest decision, ← filter_source_links resolve distinct,
    List.filter_filter]
  congr 1
  funext x
  exact Bool.and_comm _ _

/-! ## Reports -/

/-- The report on a branch of a step, if the branch leads to no step. -/
def branchReportOf? (resolve : String → Option String) (e : Entry) (b : Branch) :
    Option Diagnostic :=
  ((e.declaration.target? b).filter fun target => (resolve target.title).isNone).map fun target =>
    ⟨.unknownTarget e.declaration.title b target.title, target.line, target.title⟩

/-- The reports on the branches of a step. Only decisions have them. -/
def reportsOf (resolve : String → Option String) (e : Entry) : List Diagnostic :=
  if e.declaration.kind = .decision then Branch.all.filterMap (branchReportOf? resolve e) else []

/-- The reports among the links of a step are those on its branches. -/
theorem reportsIn_linksOf (resolve : String → Option String) (e : Entry) (rest : List Entry) :
    reportsIn (linksOf resolve e rest) = reportsOf resolve e := by
  unfold linksOf reportsOf
  cases e.declaration.kind with
  | decision =>
    rw [if_pos rfl, reportsIn, List.filterMap_filterMap]
    congr 1
    funext b
    cases leads : e.declaration.target? b with
    | none => simp [branchReportOf?, leads]
    | some target =>
      cases found : resolve target.title <;>
        simp [branchReportOf?, leads, branchLink, found, Option.filter]
  | output => rfl
  | _ =>
    cases rest with
    | nil => rfl
    | cons next rest =>
      simp only
      split <;> rfl

/-- The reports on the branches of all steps, in the order of the steps. -/
theorem reportsIn_links (resolve : String → Option String) (entries : List Entry) :
    reportsIn (links resolve entries) = entries.flatMap (reportsOf resolve) := by
  induction entries with
  | nil => rfl
  | cons e rest ih => rw [links, reportsIn_append, reportsIn_linksOf, ih, List.flatMap_cons]

/-- A branch is reported, with its line and title, exactly if the title stands for nothing. -/
theorem branchReportOf?_eq_some_iff {resolve : String → Option String} {e : Entry} {b : Branch}
    {d : Diagnostic} : branchReportOf? resolve e b = some d ↔
      ∃ target ∈ e.declaration.target? b, resolve target.title = none ∧
        d = ⟨.unknownTarget e.declaration.title b target.title, target.line, target.title⟩ := by
  unfold branchReportOf?
  cases leads : e.declaration.target? b with
  | none => simp
  | some target => cases found : resolve target.title <;> simp [Option.filter, found, eq_comm]

/-- The reports on a step are those on the branches of a decision. -/
theorem mem_reportsOf_iff {resolve : String → Option String} {e : Entry} {d : Diagnostic} :
    d ∈ reportsOf resolve e ↔ e.declaration.kind = .decision ∧
      ∃ b, branchReportOf? resolve e b = some d := by
  have both (b : Branch) : b ∈ Branch.all := by cases b <;> decide
  by_cases decision : e.declaration.kind = .decision <;> simp [reportsOf, decision, both]

end Flowchart.Outline
