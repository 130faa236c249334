import Flowchart.Document.Graph
import Flowchart.Proofs.Text.Trimming
import Mathlib.Data.List.Forall2

/-!
# What reading accepts

A document is accepted if all its parts are, and what it stands for is made from what they stand
for. Graphs are written so that reading accepts what was written, up to one point: reading trims
titles and refuses blank ones. So the graphs that reading can come to are those with titles, and
they are at the same time those that are read from their own documents. Nothing else is asked of a
graph; ids may repeat, and edges may lead nowhere.
-/

set_option autoImplicit false

namespace Flowchart.Document

/-! ## The parts of an outcome -/

namespace Checked

variable {α β : Type}

/-- What is made of a reading is accepted if the reading is. -/
theorem map_eq_accepted_iff {f : α → β} {x : Checked α} {b : β} :
    f <$> x = .accepted b ↔ ∃ a, x = .accepted a ∧ f a = b := by
  cases x <;> simp

/-- A whole is accepted if both of its parts are. -/
theorem seq_eq_accepted_iff {f : Checked (α → β)} {x : Checked α} {b : β} :
    f <*> x = .accepted b ↔ ∃ g a, f = .accepted g ∧ x = .accepted a ∧ g a = b := by
  cases f <;> cases x <;> simp

/-- A key makes no difference to what is accepted. -/
theorem under_eq_accepted_iff {key : String} {x : Checked α} {a : α} :
    x.under key = .accepted a ↔ x = .accepted a := by
  cases x <;> simp

end Checked

variable {α : Type} {read : Reader α}

/-! ## Lists -/

/-- Items are accepted, from whatever position on, if each of them is. -/
theorem itemsFrom_eq_accepted_iff {position : Nat} {items : List Json} {found : List α} :
    itemsFrom read position items = .accepted found ↔
      List.Forall₂ (fun item a => read item = .accepted a) items found := by
  induction items generalizing position found with
  | nil =>
    rw [itemsFrom, Checked.accepted.injEq, List.forall₂_nil_left_iff]
    exact eq_comm
  | cons item rest ih =>
    simp only [itemsFrom, Checked.seq_eq_accepted_iff, Checked.map_eq_accepted_iff,
      Checked.under_eq_accepted_iff, ih, List.forall₂_cons_left_iff]
    constructor
    · rintro ⟨_, others, ⟨a, isItem, rfl⟩, areOthers, rfl⟩
      exact ⟨a, others, isItem, areOthers, rfl⟩
    · rintro ⟨a, others, isItem, areOthers, rfl⟩
      exact ⟨_, others, ⟨a, isItem, rfl⟩, areOthers, rfl⟩

/-- A list of documents that are all read back is read back. -/
theorem list_map {write : α → Json} {values : List α}
    (back : ∀ a ∈ values, read (write a) = .accepted a) :
    list read (.array (values.map write)) = .accepted values := by
  rw [list, itemsFrom_eq_accepted_iff, List.forall₂_map_left_iff, List.forall₂_same]
  exact back

/-- Whatever stands in an accepted list was read from an item. -/
theorem exists_item_of_list {document : Json} {found : List α}
    (accepted : list read document = .accepted found) {a : α} (mem : a ∈ found) :
    ∃ item, read item = .accepted a := by
  cases document with
  | array items =>
    rw [list, itemsFrom_eq_accepted_iff] at accepted
    induction accepted with
    | nil => cases mem
    | @cons item b _ _ isItem _ ih =>
      rcases List.mem_cons.1 mem with rfl | later
      · exact ⟨item, isItem⟩
      · exact ih later
  | _ => cases accepted

/-! ## Names and texts -/

/-- A kind is read from its name. -/
theorem kind_name (k : NodeKind) : kind (.string k.name) = .accepted k := by
  cases k <;> rfl

/-- A branch is read from its name, and no branch from null. -/
theorem branch_name (b : Option Branch) :
    nullable branch (Json.ofOption (b.map Branch.name)) = .accepted b := by
  rcases b with _ | _ | _ <;> rfl

/-- A text that may be absent is read as it was written. -/
theorem text_ofOption (s : Option String) : nullable text (Json.ofOption s) = .accepted s := by
  cases s <;> rfl

/-! ## Titles -/

/-- The check of a title accepts what is a title already, and accepts it as it is. -/
theorem title_eq_accepted_iff {s : String} : title (.string s) = .accepted s ↔ isTitle s := by
  simp only [title, text, Checked.andThen]
  split
  · rename_i blank
    refine iff_of_false (fun same => by cases same) ?_
    rintro ⟨trimmed, nonempty⟩
    exact nonempty (trimmed.symm.trans blank)
  · rename_i visible
    rw [Checked.accepted.injEq]
    exact ⟨fun same => ⟨same, same ▸ visible⟩, And.left⟩

/-- Whatever the check of a title comes to is a title. -/
theorem isTitle_of_title {document : Json} {s : String} (accepted : title document = .accepted s) :
    isTitle s := by
  cases document with
  | string raw =>
    simp only [title, text, Checked.andThen] at accepted
    split at accepted
    · cases accepted
    · rename_i visible
      cases accepted
      exact isTitle_ofList_trim visible
  | _ => cases accepted

/-! ## Nodes and edges -/

/-- An accepted node has a title. -/
theorem isTitle_of_node {document : Json} {n : Node} (accepted : node document = .accepted n) :
    isTitle n.title := by
  cases document with
  | object fields =>
    simp only [node, object, Checked.seq_eq_accepted_iff, Checked.map_eq_accepted_iff] at accepted
    obtain ⟨_, condition, ⟨_, description, ⟨_, t, ⟨_, k, ⟨id, -, rfl⟩, -, rfl⟩, titled, rfl⟩, -,
      rfl⟩, -, rfl⟩ := accepted
    unfold required at titled
    split at titled
    · exact isTitle_of_title (Checked.under_eq_accepted_iff.1 titled)
    · cases titled
  | _ => cases accepted

/-- A node with a title is read as it was written. -/
theorem node_toJson {n : Node} (titled : isTitle n.title) : node n.toJson = .accepted n := by
  have parts : node n.toJson = (Node.mk <$> (text (.string n.id)).under "id"
      <*> (kind (.string n.kind.name)).under "kind"
      <*> (title (.string n.title)).under "title"
      <*> (nullable text (Json.ofOption n.description)).under "description"
      <*> (nullable text (Json.ofOption n.condition)).under "condition") := rfl
  rw [parts, kind_name, title_eq_accepted_iff.2 titled, text_ofOption, text_ofOption]
  rfl

/-- An edge is read as it was written. -/
theorem edge_toJson (x : Edge) : edge x.toJson = .accepted x := by
  have parts : edge x.toJson = (Edge.mk <$> (text (.string x.source)).under "source"
      <*> (text (.string x.target)).under "target"
      <*> (nullable branch (Json.ofOption (x.branch.map Branch.name))).under "branch") := rfl
  rw [parts, branch_name]
  rfl

/-! ## Graphs -/

/-- The nodes of an accepted graph have titles. -/
theorem hasTitles_of_graph {document : Json} {g : Graph} (accepted : graph document = .accepted g) :
    g.HasTitles := by
  cases document with
  | object fields =>
    simp only [graph, object, Checked.seq_eq_accepted_iff, Checked.map_eq_accepted_iff] at accepted
    obtain ⟨_, edges, ⟨_, nodes, ⟨_, description, ⟨t, -, rfl⟩, -, rfl⟩, read, rfl⟩, -, rfl⟩ :=
      accepted
    intro n mem
    unfold optional at read
    split at read
    · obtain ⟨item, isItem⟩ := exists_item_of_list (Checked.under_eq_accepted_iff.1 read) mem
      exact isTitle_of_node isItem
    · cases read
      cases mem
  | _ => cases accepted

/-- A graph whose nodes have titles is read as it was written. -/
theorem graph_toJson {g : Graph} (valid : g.HasTitles) : graph g.toJson = .accepted g := by
  have parts : graph g.toJson = (Graph.mk <$> (text (.string g.title)).under "title"
      <*> (nullable text (Json.ofOption g.description)).under "description"
      <*> (list node (.array (g.nodes.map Node.toJson))).under "nodes"
      <*> (list edge (.array (g.edges.map Edge.toJson))).under "edges") := rfl
  rw [parts, text_ofOption, list_map fun n mem => node_toJson (valid n mem),
    list_map fun x _ => edge_toJson x]
  rfl

/-- The graphs that are read from any documents are those with titles, which are read from their own
documents among others. -/
theorem exists_graph_iff {g : Graph} : (∃ document, graph document = .accepted g) ↔ g.HasTitles :=
  ⟨fun ⟨_, accepted⟩ => hasTitles_of_graph accepted, fun valid => ⟨_, graph_toJson valid⟩⟩

end Flowchart.Document
