import Flowchart.Proofs.Outline.Layout
import Mathlib.Algebra.Order.Ring.Nat
import Mathlib.Data.Finset.Card

/-!
# Every line counts once

No line of an outline gets lost, and none counts twice. A line that is not blank declares a step,
gives a decision a branch that it lacked, or is reported. A branch later becomes an edge or is
reported in its place. A repeated branch line takes the place of an earlier one, and its report
stands for the line that went. So the lines can be counted in what was read: in steps, branches,
ambiguities and dangling targets. Apart from these there are reports on repeated titles, one for
each step whose title was there before.
-/

set_option autoImplicit false

namespace Flowchart.Outline

/-! ## Lines -/

/-- How many branches were given to a step. -/
def Declaration.branchCount (d : Declaration) : Nat :=
  Branch.all.countP fun b => (d.target? b).isSome

/-- Giving a branch to a step adds a branch, unless the step had it. -/
theorem branchCount_withTarget (d : Declaration) (b : Branch) (target : Target) :
    (d.withTarget b target).branchCount + (if (d.target? b).isSome then 1 else 0) =
      d.branchCount + 1 := by
  obtain ⟨kind, label, line, yes, no⟩ := d
  cases b with
  | yes => cases yes <;> simp [Declaration.branchCount, Branch.all, Declaration.withTarget,
      Declaration.target?, List.countP_cons]
  | no => cases no <;> simp [Declaration.branchCount, Branch.all, Declaration.withTarget,
      Declaration.target?, List.countP_cons, Nat.add_comm]

namespace Scan

/-- How many lines are accounted for: there was one for each step, each branch and each report. -/
def accounted (s : Scan) : Nat :=
  s.latestFirst.length + (s.latestFirst.map (·.branchCount)).sum + s.diagnostics.length

/-- A declared step accounts for one more line. -/
theorem accounted_declare (s : Scan) (kind : NodeKind) (label : Label) (number : Nat) :
    (s.declare { kind, label, line := number }).accounted = s.accounted + 1 := by
  have bare : Declaration.branchCount { kind, label, line := number } = 0 := rfl
  simp only [accounted, declare, List.length_cons, List.map_cons, List.sum_cons, bare]
  omega

/-- A line that is no statement is accounted for, whether it becomes a step or is reported. -/
theorem accounted_prose (mode : Mode) (s : Scan) (line : List Char) (number : Nat) :
    (s.prose mode line number).accounted = s.accounted + 1 := by
  unfold prose
  simp only
  split
  · exact accounted_declare s .process (Label.ofText line) number
  · simp only [accounted, report, List.length_append, List.length_singleton]
    omega

/-- A branch line is accounted for, whether the branch is new or takes the place of another one. -/
theorem accounted_attach {s : Scan} {d : Declaration} {before : List Declaration}
    (latest : s.latestFirst = d :: before) (b : Branch) (target : String) (line : List Char)
    (number : Nat) : (s.attach d before b target line number).accounted = s.accounted + 1 := by
  have given := branchCount_withTarget d b ⟨target, number⟩
  unfold attach
  split
  · rename_i repeated
    rw [if_pos repeated] at given
    simp only [accounted, report, latest, List.length_cons, List.map_cons, List.sum_cons,
      List.length_append, List.length_nil]
    omega
  · rename_i new
    rw [if_neg new] at given
    simp only [accounted, latest, List.length_cons, List.map_cons, List.sum_cons]
    omega

/-- Taking a line accounts for that line and no other, unless it is blank. -/
theorem accounted_line {mode : Mode} {s s' : Scan} {raw : List Char} {number : Nat}
    (taken : s.line mode raw number = .ok s') :
    s'.accounted = s.accounted + if (Text.trim raw).isEmpty then 0 else 1 := by
  have spoken {statement : Statement} (reads : Statement.read (Text.trim raw) = statement)
      (other : statement ≠ .blank) : (Text.trim raw).isEmpty = false := by
    rw [List.isEmpty_eq_false_iff]
    intro empty
    exact other (reads.symm.trans (read_eq_blank_iff.2 empty))
  cases taken_of_line taken with
  | blank reads => rw [read_eq_blank_iff.1 reads, List.isEmpty_nil, if_pos rfl, Nat.add_zero]
  | step reads =>
    rw [spoken reads (by simp), accounted_declare]
    rfl
  | branch reads opened =>
    rw [spoken reads (by simp), accounted_attach (openDecision?_eq_some opened).1]
    rfl
  | prose reads =>
    rw [accounted_prose]
    rcases reads with reads | ⟨keyword, target, reads, -⟩
    · rw [spoken reads (by simp)]
      rfl
    · rw [spoken reads (by simp)]
      rfl

/-- Taking some lines accounts for those that are not blank. -/
theorem accounted_lines {mode : Mode} {s s' : Scan} {number : Nat} {raws : List (List Char)}
    (taken : Scan.lines mode s number raws = .ok s') :
    s'.accounted = s.accounted + raws.countP fun raw => !(Text.trim raw).isEmpty := by
  induction raws generalizing s number with
  | nil =>
    obtain rfl := Except.ok.inj taken
    rfl
  | cons raw rest ih =>
    obtain ⟨next, first, later⟩ := lines_cons_eq_ok_iff.1 taken
    rw [ih later, accounted_line first, List.countP_cons]
    cases (Text.trim raw).isEmpty with
    | true => simp
    | false =>
      simp only [Bool.false_eq_true, if_false, Bool.not_false, if_true]
      omega

/-! ## Reports on lines -/

/-- What was reported are ambiguities, in the order of their lines, and none is about a line from a
number on. -/
structure Orderly (s : Scan) (number : Nat) : Prop where
  ambiguity : ∀ d ∈ s.diagnostics, d.kind = .ambiguity
  earlier : ∀ d ∈ s.diagnostics, d.line < number
  increasing : (s.diagnostics.map (·.line)).Pairwise (· < ·)

variable {s : Scan} {number : Nat}

/-- What is orderly stays so after a line that adds nothing. -/
theorem Orderly.next (h : s.Orderly number) : s.Orderly (number + 1) where
  ambiguity := h.ambiguity
  earlier d mem := Nat.lt_succ_of_lt (h.earlier d mem)
  increasing := h.increasing

/-- What is orderly stays so when an ambiguity is reported about the next line. -/
theorem Orderly.report (h : s.Orderly number) (finding : Finding) (text : String)
    (kind : finding.kind = .ambiguity) :
    (s.report ⟨finding, number, text⟩).Orderly (number + 1) where
  ambiguity := by
    intro d mem
    rcases List.mem_append.1 mem with old | new
    · exact h.ambiguity d old
    · rw [List.mem_singleton.1 new]
      exact kind
  earlier := by
    intro d mem
    rcases List.mem_append.1 mem with old | new
    · exact h.next.earlier d old
    · rw [List.mem_singleton.1 new]
      exact Nat.lt_succ_self number
  increasing := by
    rw [Scan.report, List.map_append, List.map_singleton, List.pairwise_append]
    refine ⟨h.increasing, List.pairwise_singleton _ _, ?_⟩
    intro line mem other same
    obtain ⟨d, old, rfl⟩ := List.mem_map.1 mem
    rw [List.mem_singleton.1 same]
    exact h.earlier d old

/-- Reports are made line after line. -/
theorem orderly_line {mode : Mode} {s' : Scan} {raw : List Char} (h : s.Orderly number)
    (taken : s.line mode raw number = .ok s') : s'.Orderly (number + 1) := by
  have prose (line : List Char) : (s.prose mode line number).Orderly (number + 1) := by
    unfold Scan.prose
    simp only
    split
    · exact ⟨h.next.ambiguity, h.next.earlier, h.next.increasing⟩
    · exact h.report .ignoredLine _ rfl
  cases taken_of_line taken with
  | blank => exact h.next
  | step => exact ⟨h.next.ambiguity, h.next.earlier, h.next.increasing⟩
  | @branch keyword target decision before b reads opened named =>
    unfold attach
    split
    · have reported := h.report (.repeatedBranch decision.title b target)
        (String.ofList (Text.trim raw)) rfl
      exact ⟨reported.ambiguity, reported.earlier, reported.increasing⟩
    · exact ⟨h.next.ambiguity, h.next.earlier, h.next.increasing⟩
  | prose => exact prose _

/-- Lines that are taken one after the other are reported in order. -/
theorem orderly_lines {mode : Mode} {s' : Scan} {raws : List (List Char)} (h : s.Orderly number)
    (taken : Scan.lines mode s number raws = .ok s') : s'.Orderly (number + raws.length) :=
  lines_keep (fun number s => s.Orderly number)
    (fun _ _ _ _ _ kept first => orderly_line kept first) h taken

end Scan

/-- What a scan comes to accounts for the lines that are not blank, and its reports are ambiguities
in the order of their lines. -/
theorem accounted_of_scan {mode : Mode} {text : String} {s : Scan} (h : scan mode text = .ok s) :
    s.accounted = ((Text.lines text.toList).countP fun raw => !(Text.trim raw).isEmpty) ∧
      ∃ number, s.Orderly number := by
  have nothing : ({} : Scan).Orderly 1 := ⟨by simp, by simp, by simp⟩
  constructor
  · rw [Scan.accounted_lines h]
    exact Nat.zero_add _
  · exact ⟨_, Scan.orderly_lines nothing h⟩

/-! ## Branches -/

/-- How many branches some links stand for: those that became edges and those that were reported. -/
def branchesIn (found : List (Except Diagnostic Edge)) : Nat :=
  ((edgesIn found).countP fun x => x.branch.isSome) + (reportsIn found).length

/-- The branches of two lists of links add up. -/
theorem branchesIn_append (first second : List (Except Diagnostic Edge)) :
    branchesIn (first ++ second) = branchesIn first + branchesIn second := by
  simp only [branchesIn, edgesIn_append, reportsIn_append, List.countP_append, List.length_append]
  omega

/-- The link of a branch is one edge with a branch, or one report. -/
theorem branchesIn_branchLink (resolve : String → Option String) (e : Entry) (b : Branch)
    (target : Target) : branchesIn [branchLink resolve e b target] = 1 := by
  unfold branchLink
  cases resolve target.title <;> rfl

/-- The links of some branches stand for those branches that were given to the step. -/
theorem branchesIn_branchLinks (resolve : String → Option String) (e : Entry)
    (branches : List Branch) :
    branchesIn (branches.filterMap fun b =>
      (e.declaration.target? b).map (branchLink resolve e b)) =
        branches.countP fun b => (e.declaration.target? b).isSome := by
  induction branches with
  | nil => rfl
  | cons b branches ih =>
    cases given : e.declaration.target? b with
    | none => simpa [given] using ih
    | some target =>
      have link := branchesIn_append [branchLink resolve e b target]
        (branches.filterMap fun b => (e.declaration.target? b).map (branchLink resolve e b))
      rw [branchesIn_branchLink, ih] at link
      simpa [given, Nat.add_comm] using link

/-- The links of a legible step stand for the branches that were given to it. -/
theorem branchesIn_linksOf (resolve : String → Option String) {e : Entry} (rest : List Entry)
    (legible : e.declaration.Legible) :
    branchesIn (linksOf resolve e rest) = e.declaration.branchCount := by
  by_cases decision : e.declaration.kind = .decision
  · unfold linksOf
    rw [decision]
    exact branchesIn_branchLinks resolve e Branch.all
  · -- Any other step was given no branch, and its link, if it has one, is no branch either.
    have free : e.declaration.branchCount = 0 := by
      rw [Declaration.branchCount, List.countP_eq_zero]
      intro b _ given
      exact decision (legible.decision b given)
    rw [free]
    unfold linksOf
    split
    · contradiction
    · rfl
    · cases rest with
      | nil => rfl
      | cons next rest =>
        simp only
        split <;> rfl

/-- The links between some steps stand for all branches that were given to them. -/
theorem branchesIn_links (resolve : String → Option String) {entries : List Entry}
    (legible : ∀ e ∈ entries, e.declaration.Legible) :
    branchesIn (links resolve entries) = (entries.map (·.declaration.branchCount)).sum := by
  induction entries with
  | nil => rfl
  | cons e rest ih =>
    rw [links, branchesIn_append, branchesIn_linksOf resolve rest (legible e List.mem_cons_self),
      ih fun other mem => legible other (List.mem_cons_of_mem e mem), List.map_cons, List.sum_cons]

/-- Among links, branches without a target are all that is reported. -/
theorem kind_of_mem_reportsIn_links {resolve : String → Option String} {entries : List Entry}
    {d : Diagnostic} (mem : d ∈ reportsIn (links resolve entries)) : d.kind = .danglingTarget := by
  rw [reportsIn_links] at mem
  obtain ⟨e, -, own⟩ := List.mem_flatMap.1 mem
  obtain ⟨-, b, report⟩ := mem_reportsOf_iff.1 own
  obtain ⟨target, -, -, rfl⟩ := branchReportOf?_eq_some_iff.1 report
  rfl

/-! ## Titles -/

/-- The reports on repeated titles and the distinct titles together are as many as the steps. -/
theorem length_repeatedTitles (seen : List String) (declarations : List Declaration) :
    (repeatedTitles seen declarations).length +
        (seen ++ declarations.map (·.title)).toFinset.card =
      declarations.length + seen.toFinset.card := by
  induction declarations generalizing seen with
  | nil => simp [repeatedTitles]
  | cons d rest ih =>
    have titles : (seen ++ (d :: rest).map (·.title)).toFinset =
        insert d.title (seen ++ rest.map (·.title)).toFinset := by
      ext title
      simp only [List.map_cons, List.mem_toFinset, List.mem_append, List.mem_cons,
        Finset.mem_insert]
      tauto
    unfold repeatedTitles
    rw [titles, List.length_cons]
    by_cases old : d.title ∈ seen
    · have counted := ih seen
      rw [if_pos (by simpa using old), Finset.insert_eq_of_mem (by simp [old]), List.length_cons]
      omega
    · have counted := ih (d.title :: seen)
      have fresh : (d.title :: seen).toFinset.card = seen.toFinset.card + 1 := by
        rw [List.toFinset_cons, Finset.card_insert_of_notMem (by simpa using old)]
      rw [fresh, List.cons_append, List.toFinset_cons] at counted
      rw [if_neg (by simpa using old)]
      omega

/-! ## What was read -/

/-- The parts of what reading reports: each group of diagnostics was made in one place. -/
theorem diagnosticsOf_readingOf (mode : Mode) (title description : Option String) {s : Scan}
    {number : Nat} (orderly : s.Orderly number) :
    (readingOf mode title description s).diagnosticsOf .ambiguity = s.diagnostics ∧
      (readingOf mode title description s).diagnosticsOf .duplicateTitle =
        repeatedTitles [] s.declarations ∧
      (readingOf mode title description s).diagnosticsOf .danglingTarget =
        reportsIn (linksIn mode s.declarations) := by
  have all {kind : DiagnosticKind} {reports : List Diagnostic}
      (same : ∀ d ∈ reports, d.kind = kind) (other : DiagnosticKind) :
      (reports.filter fun d => d.kind == other) = if kind = other then reports else [] := by
    split
    · rename_i equal
      rw [List.filter_eq_self]
      intro d mem
      rw [same d mem, equal, beq_self_eq_true]
    · rename_i apart
      rw [List.filter_eq_nil_iff]
      intro d mem found
      exact apart (same d mem ▸ beq_iff_eq.1 found)
  have ambiguities := all orderly.ambiguity
  have duplicates := all fun (d : Diagnostic) (mem : d ∈ repeatedTitles [] s.declarations) =>
    kind_of_mem_repeatedTitles mem
  have dangling := all fun (d : Diagnostic) (mem : d ∈ reportsIn (linksIn mode s.declarations)) =>
    kind_of_mem_reportsIn_links mem
  simp [Reading.diagnosticsOf, readingOf, diagnostics_layOutIn, List.filter_append, ambiguities,
    duplicates, dangling]

/-- Every line that is not blank counts once: as a step, as a branch, or in a report. Lines are
reported in order, and every step whose title was there before is reported. -/
theorem lines_counted_of_read {mode : Mode} {text : String} {title description : Option String}
    {r : Reading} (isRead : read mode text title description = .ok r) :
    ((Text.lines text.toList).countP fun line => !(Text.trim line).isEmpty) =
        r.graph.steps.length + r.graph.branchEdges.length +
          (r.diagnosticsOf .ambiguity).length + (r.diagnosticsOf .danglingTarget).length ∧
      ((r.diagnosticsOf .ambiguity).map (·.line)).Pairwise (· < ·) ∧
      (r.diagnosticsOf .duplicateTitle).length + (r.graph.steps.map (·.title)).toFinset.card =
        r.graph.steps.length := by
  obtain ⟨s, scanned, rfl⟩ := read_eq_ok_iff.1 isRead
  obtain ⟨counted, number, orderly⟩ := accounted_of_scan scanned
  have legible := legible_of_scan scanned
  have holds := holds_readingOf mode title description legible
  obtain ⟨ambiguities, duplicates, dangling⟩ :=
    diagnosticsOf_readingOf mode title description orderly
  have entries : ((entriesIn mode s.declarations).map fun e => e.declaration) = s.declarations :=
    declarations_entriesIn mode s.declarations
  have steps : (readingOf mode title description s).graph.steps.length =
      s.declarations.length := by
    rw [holds.steps, List.length_map, ← entries, List.length_map, entries]
  refine ⟨?_, ?_, ?_⟩
  · have branches := branchesIn_links (idOfTitle? (entriesIn mode s.declarations)) holds.legible
    have given : ((entriesIn mode s.declarations).map (·.declaration.branchCount)).sum =
        (s.latestFirst.map (·.branchCount)).sum := by
      have through := congrArg (List.map (·.branchCount)) entries
      rw [List.map_map] at through
      rw [Scan.declarations, List.map_reverse] at through
      exact (congrArg List.sum through).trans (List.sum_reverse _)
    -- Every branch that was given to a step is an edge of the graph or was reported.
    rw [branchesIn, List.countP_eq_length_filter, ← holds.branches, given] at branches
    have declared : s.declarations.length = s.latestFirst.length := List.length_reverse
    rw [← counted, Scan.accounted, steps, ambiguities, dangling, declared, ← branches]
    unfold linksIn
    simp only
    omega
  · rw [ambiguities]
    exact orderly.increasing
  · have titles : (readingOf mode title description s).graph.steps.map (·.title) =
        s.declarations.map (·.title) := by
      rw [holds.steps, List.map_map, ← entries, List.map_map, entries]
      rfl
    have repeated := length_repeatedTitles [] s.declarations
    rw [List.nil_append, List.toFinset_nil, Finset.card_empty] at repeated
    rw [duplicates, titles, steps]
    exact repeated

/-- A branch that is given twice and names no step, a line that is no statement, and a title that
comes back. -/
def ticketText : String :=
  "INPUT: Ticket\n\nDECISION: Paid?\nYES -> Refund\nYES -> Archive\nNO -> Ticket\nhello\n" ++
    "PROCESS: Ticket"

/-- What is read from it without anchors. -/
def ticketReading : Reading where
  graph := {
    nodes := [
      { id := "node_1", kind := .input, title := "Ticket" },
      { id := "node_2", kind := .decision, title := "Paid?" },
      { id := "node_3", kind := .process, title := "Ticket" }]
    edges := [
      { source := "node_1", target := "node_2" },
      { source := "node_2", target := "node_3", branch := some .no }] }
  diagnostics := [
    ⟨.repeatedBranch "Paid?" .yes "Archive", 5, "YES -> Archive"⟩,
    ⟨.ignoredLine, 7, "hello"⟩,
    ⟨.repeatedTitle "Ticket", 8, "Ticket"⟩,
    ⟨.unknownTarget "Paid?" .yes "Archive", 5, "Archive"⟩]

/-- Two of its lines are reported as ambiguous, in order, and one title for its repetition. -/
theorem lines_counted_of_read_ticketText :
    read ⟨false, false⟩ ticketText = .ok ticketReading ∧
      ((Text.lines ticketText.toList).countP fun line => !(Text.trim line).isEmpty) =
        ticketReading.graph.steps.length + ticketReading.graph.branchEdges.length +
          (ticketReading.diagnosticsOf .ambiguity).length +
          (ticketReading.diagnosticsOf .danglingTarget).length ∧
      (ticketReading.diagnosticsOf .ambiguity).map (·.line) = [5, 7] ∧
      ((ticketReading.diagnosticsOf .ambiguity).map (·.line)).Pairwise (· < ·) ∧
      (ticketReading.diagnosticsOf .duplicateTitle).map (·.line) = [8] ∧
      (ticketReading.diagnosticsOf .duplicateTitle).length +
          (ticketReading.graph.steps.map (·.title)).toFinset.card =
        ticketReading.graph.steps.length := by
  have isRead : read ⟨false, false⟩ ticketText = .ok ticketReading := by
    decide +kernel
  obtain ⟨counted, increasing, repeated⟩ := lines_counted_of_read isRead
  exact ⟨isRead, counted, by decide +kernel, increasing, by decide +kernel, repeated⟩

end Flowchart.Outline
