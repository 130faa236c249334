import Flowchart.Proofs.Outline.Signature

/-!
# Steps that were written and read again

The steps of a second reading have the ids of the first one, and say what those said once the
branches that lead nowhere are left out. That is enough for the same edges, since a title stands for
the same id in both, and for nodes that differ at most in a description that repeats a title.
-/

set_option autoImplicit false

namespace Flowchart.Outline

/-- Two steps with the same id that lead to the same steps, where titles stand for ids. -/
structure SameLinks (resolve : String → Option String) (e other : Entry) : Prop where
  id : other.id = e.id
  kind : other.declaration.kind = e.declaration.kind
  branch : ∀ b, branchEdgeOf? resolve other b = branchEdgeOf? resolve e b

/-- A step with the same links has the same edges. -/
theorem edgesIn_linksOf_congr {resolve : String → Option String} {e other : Entry}
    {rest others : List Entry} (same : SameLinks resolve e other)
    (rests : List.Forall₂ (SameLinks resolve) rest others) :
    edgesIn (linksOf resolve other others) = edgesIn (linksOf resolve e rest) := by
  by_cases decision : e.declaration.kind = .decision
  · rw [edgesIn_linksOf_decision resolve rest decision,
      edgesIn_linksOf_decision resolve others (same.kind.trans decision)]
    congr 1
    funext b
    exact same.branch b
  · by_cases output : e.declaration.kind = .output
    · rw [edgesIn_linksOf_output resolve rest output,
        edgesIn_linksOf_output resolve others (same.kind.trans output)]
    · rw [edgesIn_linksOf_other resolve rest decision output,
        edgesIn_linksOf_other resolve others (same.kind ▸ decision) (same.kind ▸ output)]
      cases rests with
      | nil => rfl
      | cons next _ => simp only [nextEdge?, next.kind, next.id, same.id]

/-- Steps with the same links have the same edges between them. -/
theorem edgesIn_links_congr {resolve : String → Option String} {entries others : List Entry}
    (same : List.Forall₂ (SameLinks resolve) entries others) :
    edgesIn (links resolve others) = edgesIn (links resolve entries) := by
  induction same with
  | nil => rfl
  | cons first rests ih =>
    rw [links, links, edgesIn_append, edgesIn_append, ih, edgesIn_linksOf_congr first rests]

/-- Two steps with the same id, of which the second says what the first says, resolved among some
titles. -/
structure Rewritten (titles : List String) (e other : Entry) : Prop where
  id : other.id = e.id
  signature : other.declaration.signature = e.declaration.signature.resolved titles

/-- Steps with the same ids were rewritten if they say what the first ones say, resolved. -/
theorem forall₂_rewritten {titles : List String} {entries others : List Entry}
    (ids : others.map (·.id) = entries.map (·.id))
    (signatures : others.map (·.declaration.signature) =
      entries.map fun e => e.declaration.signature.resolved titles) :
    List.Forall₂ (Rewritten titles) entries others := by
  induction entries generalizing others with
  | nil =>
    rw [List.map_nil, List.map_eq_nil_iff] at ids
    rw [ids]
    exact .nil
  | cons e rest ih =>
    cases others with
    | nil => simp at ids
    | cons other others =>
      rw [List.map_cons, List.map_cons, List.cons.injEq] at ids signatures
      exact .cons ⟨ids.1, signatures.1⟩ (ih ids.2 signatures.2)

namespace Rewritten

variable {titles : List String} {e other : Entry}

/-- A step keeps its title. -/
theorem title (h : Rewritten titles e other) : other.declaration.title = e.declaration.title :=
  congrArg StepSignature.title h.signature

/-- A step keeps its kind. -/
theorem kind (h : Rewritten titles e other) : other.declaration.kind = e.declaration.kind :=
  congrArg StepSignature.kind h.signature

/-- A step keeps the branches that lead to one of the titles, and loses the others. -/
theorem target? (h : Rewritten titles e other) (b : Branch) :
    (other.declaration.target? b).map (·.title) =
      ((e.declaration.target? b).map (·.title)).filter titles.contains := by
  rw [← target?_signature, ← target?_signature, h.signature, StepSignature.target?_resolved]

/-- Titles that stand for nothing can be left out of a step without a change to its branches. -/
theorem sameLinks {resolve : String → Option String}
    (unknown : ∀ t, t ∉ titles → resolve t = none) (h : Rewritten titles e other) :
    SameLinks resolve e other := by
  refine ⟨h.id, h.kind, ?_⟩
  intro b
  have byTitle (entry : Entry) : branchEdgeOf? resolve entry b =
      ((((entry.declaration.target? b).map (·.title)).bind resolve).map fun id =>
        { source := entry.id, target := id, branch := some b }) := by
    unfold branchEdgeOf?
    rw [Option.bind_map]
    rfl
  rw [byTitle, byTitle, h.id, h.target?]
  cases (e.declaration.target? b).map (·.title) with
  | none => rfl
  | some t =>
    by_cases known : t ∈ titles
    · simp [Option.filter, known]
    · simp [Option.filter, known, unknown t known]

end Rewritten

/-- A node without a description that only repeats its title. -/
def plainNode (n : Node) : Node :=
  { n with description := n.description.filter (· != n.title) }

/-- A graph without descriptions that only repeat a title. -/
def plain (g : Graph) : Graph :=
  { g with nodes := g.nodes.map plainNode }

/-- The nodes of the second steps are those of the first ones, made plain. -/
theorem nodes_rewritten {titles : List String} {entries others : List Entry}
    (h : List.Forall₂ (Rewritten titles) entries others) :
    others.map Entry.node = (entries.map Entry.node).map plainNode := by
  induction h with
  | nil => rfl
  | @cons e other _ _ first _ ih =>
    have node : other.node = plainNode e.node := by
      have description := congrArg StepSignature.description first.signature
      unfold Entry.node plainNode
      rw [Node.mk.injEq]
      exact ⟨first.id, first.kind, first.title, description, rfl⟩
    rw [List.map_cons, List.map_cons, List.map_cons, node, ih]

/-- The edge from the start does not depend on descriptions. -/
theorem startEdges_map_plainNode (id : String) (nodes : List Node) :
    startEdges id (nodes.map plainNode) = startEdges id nodes := by
  unfold startEdges
  rw [List.head?_map, Option.map_map]
  rfl

/-- The edges to the end do not depend on descriptions. -/
theorem endEdges_map_plainNode (id : String) (nodes : List Node) :
    endEdges id (nodes.map plainNode) = endEdges id nodes := by
  unfold endEdges outputEdges lastEdges
  rw [List.filter_map, List.map_map, List.getLast?_map, Option.filter_map, Option.map_map]
  rfl

/-- Anchors are plain, so a graph can be made plain before or after it gets them. -/
theorem plain_framed (g : Graph) (first last : String) :
    (plain g).framed first last = plain (g.framed first last) := by
  unfold plain Graph.framed
  simp only [startEdges_map_plainNode, endEdges_map_plainNode, List.cons_append, List.map_cons,
    List.map_append, List.map_nil]
  rfl

/-! ## Reports -/

/-- Branches are not reported if their titles stand for ids. -/
theorem reportsIn_links_eq_nil {resolve : String → Option String} {entries : List Entry}
    (known : ∀ e ∈ entries, ∀ b, ∀ target ∈ e.declaration.target? b,
      (resolve target.title).isSome) : reportsIn (links resolve entries) = [] := by
  rw [reportsIn_links, List.flatMap_eq_nil_iff]
  intro e mem
  rw [List.eq_nil_iff_forall_not_mem]
  intro d own
  obtain ⟨-, b, report⟩ := mem_reportsOf_iff.1 own
  obtain ⟨target, given, unknown, -⟩ := branchReportOf?_eq_some_iff.1 report
  have found := known e mem b target given
  rw [unknown] at found
  exact Bool.false_ne_true found

/-- The second steps have the titles of the first ones. -/
theorem titlesOf_rewritten {titles : List String} {entries others : List Entry}
    (h : List.Forall₂ (Rewritten titles) entries others) : titlesOf others = titlesOf entries := by
  induction h with
  | nil => rfl
  | cons first _ ih =>
    unfold titlesOf at ih ⊢
    rw [List.map_cons, List.map_cons, first.title, ih]

/-- A title stands for the same id among the second steps. -/
theorem idOfTitle?_rewritten {titles : List String} {entries others : List Entry}
    (h : List.Forall₂ (Rewritten titles) entries others) :
    idOfTitle? others = idOfTitle? entries := by
  have ids : others.map (·.id) = entries.map (·.id) := by
    induction h with
    | nil => rfl
    | cons first _ ih => rw [List.map_cons, List.map_cons, first.id, ih]
  exact idOfTitle?_congr ids (titlesOf_rewritten h)

/-- All branches of the second steps lead to one of the titles. -/
theorem title_mem_of_rewritten {titles : List String} {entries others : List Entry}
    (h : List.Forall₂ (Rewritten titles) entries others) :
    ∀ other ∈ others, ∀ b, ∀ target ∈ other.declaration.target? b, target.title ∈ titles := by
  induction h with
  | nil => simp
  | cons first _ ih =>
    intro other mem b target leads
    rcases List.mem_cons.1 mem with rfl | later
    · have filtered := first.target? b
      rw [Option.mem_def.1 leads] at filtered
      have kept := (Option.filter_eq_some_iff.1 filtered.symm).2
      simpa using kept
    · exact ih other later b target leads

section Again

variable {m m' : Mode} {declarations others : List Declaration}

/-- The second steps get anchors exactly if the first ones do. -/
theorem anchored_congr (anchors : m'.anchors = m.anchors)
    (count : others.length = declarations.length) :
    (m'.anchors && !others.isEmpty) = (m.anchors && !declarations.isEmpty) := by
  have empty : others.isEmpty = declarations.isEmpty := by
    rw [Bool.eq_iff_iff, List.isEmpty_iff_length_eq_zero, List.isEmpty_iff_length_eq_zero, count]
  rw [anchors, empty]

/-- The steps of the second reading have the ids of the first one and say what it says. -/
theorem rewritten_entriesIn (anchors : m'.anchors = m.anchors)
    (count : others.length = declarations.length)
    (signatures : others.map (·.signature) = (entriesIn m declarations).map fun e =>
      e.declaration.signature.resolved (titlesOf (entriesIn m declarations))) :
    List.Forall₂ (Rewritten (titlesOf (entriesIn m declarations)))
      (entriesIn m declarations) (entriesIn m' others) := by
  apply forall₂_rewritten
  · rw [ids_entriesIn, ids_entriesIn, stepSource, stepSource, anchored_congr anchors count, count]
  · rw [← signatures]
    conv_rhs => rw [← declarations_entriesIn m' others, List.map_map]
    rfl

/-- The graph of the second steps is that of the first ones, made plain. -/
theorem stepGraph_rewritten {title title' description : Option String}
    (titles : (title'.filter (· != "")).getD untitled = (title.filter (· != "")).getD untitled)
    (rewritten : List.Forall₂ (Rewritten (titlesOf (entriesIn m declarations)))
      (entriesIn m declarations) (entriesIn m' others)) :
    stepGraph m' title' description others =
      plain (stepGraph m title description declarations) := by
  have nodes := nodes_rewritten rewritten
  have edges : edgesIn (linksIn m' others) = edgesIn (linksIn m declarations) := by
    unfold linksIn
    simp only [idOfTitle?_rewritten rewritten]
    apply edgesIn_links_congr
    refine rewritten.imp fun e other same => same.sameLinks ?_
    intro t unknown
    exact idOfTitle?_eq_none_iff.2 unknown
  unfold stepGraph plain
  rw [titles, nodes, edges]

/-- The second reading finds every step that a branch names. -/
theorem reportsIn_linksIn_rewritten
    (rewritten : List.Forall₂ (Rewritten (titlesOf (entriesIn m declarations)))
      (entriesIn m declarations) (entriesIn m' others)) :
    reportsIn (linksIn m' others) = [] := by
  apply reportsIn_links_eq_nil
  intro other mem b target leads
  have known := title_mem_of_rewritten rewritten other mem b target leads
  rw [← titlesOf_rewritten rewritten] at known
  rw [← Option.ne_none_iff_isSome]
  intro unknown
  exact idOfTitle?_eq_none_iff.1 unknown known

end Again

end Flowchart.Outline
