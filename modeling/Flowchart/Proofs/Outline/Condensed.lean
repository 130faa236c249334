import Flowchart.Proofs.Outline.Attribution

/-!
# Outlines without prose

Where prose is taken for nothing, an outline can be condensed: the lines that declare a step or give
a branch to the open decision are kept, trimmed, and all other lines go. Whether a line is kept
depends on whether a decision is open, and a line that goes opens and closes none. So a scan of the
kept lines goes through the same states, but for the numbers of the lines, and the condensed outline
gives the same graph. What is reported is the same as well, each report at the new place of its
line, except that no line is left to be ignored.
-/

set_option autoImplicit false

namespace Flowchart.Outline

open scoped List

/-- Whether a line is about the flow, where a decision is open or not. -/
def isKept (isOpen : Bool) (raw : List Char) : Bool :=
  match Statement.read (Text.trim raw) with
  | .step .. => true
  | .branch .. => isOpen
  | .blank | .prose => false

/-- The lines about the flow, trimmed and with their numbers, the first of which is given. -/
def keptLines : Bool → Nat → List (List Char) → List (Nat × List Char)
  | _, _, [] => []
  | isOpen, number, raw :: rest =>
    (if isKept isOpen raw then [(number, Text.trim raw)] else []) ++
      keptLines (opens {} isOpen raw) (number + 1) rest

/-- The lines of an outline that are about the flow. -/
def keptLinesOf (text : String) : List (Nat × List Char) :=
  keptLines false 1 (Text.lines text.toList)

/-- An outline of nothing but these lines. -/
def condensed (text : String) : String :=
  Text.unlines ((keptLinesOf text).map fun kept => String.ofList kept.2)

/-- The number that a line of an outline has in the condensed outline. -/
def placeIn (text : String) (number : Nat) : Nat :=
  ((keptLinesOf text).map (·.1)).idxOf number + 1

/-! ## Other numbers for lines -/

/-- A branch with its line at another place. -/
def Target.moved (place : Nat → Nat) (t : Target) : Target :=
  { t with line := place t.line }

/-- A report with its line at another place. -/
def Diagnostic.moved (place : Nat → Nat) (d : Diagnostic) : Diagnostic :=
  { d with line := place d.line }

/-- A step with its lines at other places. -/
def Declaration.moved (place : Nat → Nat) (d : Declaration) : Declaration :=
  { d with
    line := place d.line
    yes := d.yes.map (·.moved place)
    no := d.no.map (·.moved place) }

/-- What is reported when the lines that were ignored are gone and the others are at other
places. -/
def movedReports (place : Nat → Nat) (reports : List Diagnostic) : List Diagnostic :=
  (reports.filter fun d => d.finding != .ignoredLine).map (·.moved place)

/-- A scan with the lines at other places. -/
def Scan.moved (place : Nat → Nat) (s : Scan) : Scan where
  latestFirst := s.latestFirst.map (·.moved place)
  diagnostics := movedReports place s.diagnostics

/-- Reports in two parts are moved part by part. -/
theorem movedReports_append (place : Nat → Nat) (first second : List Diagnostic) :
    movedReports place (first ++ second) =
      movedReports place first ++ movedReports place second := by
  simp [movedReports]

/-- Reports that are not about ignored lines all stay. -/
theorem movedReports_eq_map (place : Nat → Nat) {reports : List Diagnostic}
    (noneIgnored : ∀ d ∈ reports, d.kind ≠ .ambiguity) :
    movedReports place reports = reports.map (·.moved place) := by
  rw [movedReports, List.filter_eq_self.2]
  intro d mem
  rw [bne_iff_ne]
  intro ignored
  exact noneIgnored d mem (by rw [Diagnostic.kind, ignored]; rfl)

/-- A moved step has its branches moved. -/
theorem Declaration.target?_moved (place : Nat → Nat) (d : Declaration) (b : Branch) :
    (d.moved place).target? b = (d.target? b).map (·.moved place) := by
  cases b <;> rfl

/-- It makes no difference whether a branch is given to a step before or after both are moved. -/
theorem Declaration.withTarget_moved (place : Nat → Nat) (d : Declaration) (b : Branch)
    (target : Target) :
    (d.moved place).withTarget b (target.moved place) = (d.withTarget b target).moved place := by
  cases b <;> rfl

/-! ## The scan -/

namespace Scan

variable (place : Nat → Nat)

/-- A moved scan has the same decision open, moved as well. -/
theorem openDecision?_moved (s : Scan) :
    (s.moved place).openDecision? =
      s.openDecision?.map fun (d, before) => (d.moved place, before.map (·.moved place)) := by
  obtain ⟨latestFirst, reports⟩ := s
  cases latestFirst with
  | nil => rfl
  | cons d before =>
    have kind : (d.moved place).kind = d.kind := rfl
    simp only [moved, openDecision?, List.map_cons, kind]
    split <;> rfl

/-- It makes no difference whether a branch is given to a decision before or after the scan is
moved. -/
theorem attach_moved (s : Scan) (d : Declaration) (before : List Declaration) (b : Branch)
    (target : String) (line : List Char) (number : Nat) :
    (s.moved place).attach (d.moved place) (before.map (·.moved place)) b target line
        (place number) = (s.attach d before b target line number).moved place := by
  have given : (d.moved place).withTarget b ⟨target, place number⟩ =
      (d.withTarget b ⟨target, number⟩).moved place := d.withTarget_moved place b ⟨target, number⟩
  unfold attach
  rw [given, d.target?_moved, Option.isSome_map]
  split
  · simp only [report, moved, movedReports_append, List.map_cons]
    rfl
  · rfl

/-- A line about the flow does the same at another place. -/
theorem line_of_isKept {anchors : Bool} {s s' : Scan} {raw : List Char} {number : Nat}
    (kept : isKept s.isOpen raw = true) (taken : s.line ⟨anchors, false⟩ raw number = .ok s') :
    (s.moved place).line ⟨anchors, false⟩ (Text.trim raw) (place number) =
      .ok (s'.moved place) := by
  unfold line
  rw [Text.trim_trim]
  cases taken_of_line taken with
  | blank reads => simp [isKept, reads] at kept
  | step reads named =>
    simp only [reads, named]
    rfl
  | branch reads opened named =>
    simp only [reads, openDecision?_moved, opened, named, Option.map_some]
    exact congrArg Except.ok (attach_moved place s _ _ _ _ _ number)
  | prose reads =>
    rcases reads with reads | ⟨keyword, target, reads, closed⟩
    · simp [isKept, reads] at kept
    · simp [isKept, reads, isOpen, closed] at kept

/-- Any other line comes to nothing but a report that it was ignored. -/
theorem moved_of_not_isKept {anchors : Bool} {s s' : Scan} {raw : List Char} {number : Nat}
    (ignored : isKept s.isOpen raw = false)
    (taken : s.line ⟨anchors, false⟩ raw number = .ok s') : s'.moved place = s.moved place := by
  cases taken_of_line taken with
  | blank => rfl
  | step reads => simp [isKept, reads] at ignored
  | branch reads opened => simp [isKept, reads, isOpen, opened] at ignored
  | prose =>
    rcases prose_cases ⟨anchors, false⟩ s (Text.trim raw) number with ⟨declares, -⟩ | ⟨-, same⟩
    · simp at declares
    · rw [same, report, moved, movedReports_append]
      exact congrArg (Scan.mk _) (List.append_nil _)

/-- A scan of the kept lines alone. The lines that were kept `earlier` tell the place of the
next. -/
theorem lines_keptLines {anchors : Bool} {s s' : Scan} {number : Nat} {raws : List (List Char)}
    {earlier : List Nat} (before : ∀ n ∈ earlier, n < number)
    (placed : ∀ n, place n =
      (earlier ++ (keptLines s.isOpen number raws).map (·.1)).idxOf n + 1)
    (taken : Scan.lines ⟨anchors, false⟩ s number raws = .ok s') :
    Scan.lines ⟨anchors, false⟩ (s.moved place) (earlier.length + 1)
      ((keptLines s.isOpen number raws).map (·.2)) = .ok (s'.moved place) := by
  -- The kept lines so far are those in `earlier`, which grow by the line if it is kept.
  induction raws generalizing s number earlier with
  | nil =>
    obtain rfl := Except.ok.inj taken
    rfl
  | cons raw rest ih =>
    obtain ⟨next, first, later⟩ := lines_cons_eq_ok_iff.1 taken
    have isOpen : opens {} s.isOpen raw = next.isOpen := (isOpen_line first).symm
    rw [keptLines, isOpen] at placed ⊢
    cases kept : isKept s.isOpen raw with
    | true =>
      rw [kept, if_pos rfl, List.map_append] at placed
      rw [if_pos rfl, List.map_append]
      have new : number ∉ earlier := fun mem => Nat.lt_irrefl number (before number mem)
      have here : place number = earlier.length + 1 := by
        rw [placed, List.idxOf_append_of_notMem new]
        simp
      have beforeNext : ∀ n ∈ earlier ++ [number], n < number + 1 := by
        intro n mem
        rcases List.mem_append.1 mem with old | same
        · exact Nat.lt_succ_of_lt (before n old)
        · exact List.mem_singleton.1 same ▸ Nat.lt_succ_self number
      have rest := ih beforeNext (fun n => by rw [placed, List.append_assoc]; rfl) later
      rw [List.length_append, List.length_singleton] at rest
      refine lines_cons_eq_ok_iff.2 ⟨next.moved place, ?_, rest⟩
      rw [← here]
      exact line_of_isKept place kept first
    | false =>
      rw [kept, if_neg (by simp), List.nil_append] at placed
      rw [if_neg (by simp), List.nil_append, ← moved_of_not_isKept place kept first]
      exact ih (fun n mem => Nat.lt_succ_of_lt (before n mem)) placed later

end Scan

/-! ## The layout -/

section Layout

variable (place : Nat → Nat)

/-- An entry with its lines at other places. -/
def Entry.moved (e : Entry) : Entry :=
  { e with declaration := e.declaration.moved place }

/-- Moved steps get the same ids. -/
theorem entriesIn_moved (mode : Mode) (declarations : List Declaration) :
    entriesIn mode (declarations.map (·.moved place)) =
      (entriesIn mode declarations).map (Entry.moved place) := by
  unfold entriesIn stepSource
  rw [List.isEmpty_map, List.length_map, List.zipWith_map_right, List.map_zipWith]
  rfl

/-- Moved steps have the links of a step with the reports moved. -/
theorem linksOf_moved (resolve : String → Option String) (e : Entry) (rest : List Entry) :
    linksOf resolve (e.moved place) (rest.map (Entry.moved place)) =
      (linksOf resolve e rest).map (Except.mapError (Diagnostic.moved place)) := by
  have kind (e : Entry) : (e.moved place).declaration.kind = e.declaration.kind := rfl
  unfold linksOf
  rw [kind]
  cases e.declaration.kind with
  | decision =>
    simp only [List.map_filterMap]
    congr 1
    funext b
    have target : (e.moved place).declaration.target? b =
        (e.declaration.target? b).map (·.moved place) := e.declaration.target?_moved place b
    rw [target, Option.map_map, Option.map_map]
    congr 1
    funext t
    have title : (t.moved place).title = t.title := rfl
    simp only [Function.comp_apply, branchLink, title]
    cases resolve t.title <;> rfl
  | output => rfl
  | _ =>
    cases rest with
    | nil => rfl
    | cons next rest =>
      simp only [List.map_cons, kind]
      split <;> rfl

/-- Moved steps have the same links with the reports moved. -/
theorem links_moved (resolve : String → Option String) (entries : List Entry) :
    links resolve (entries.map (Entry.moved place)) =
      (links resolve entries).map (Except.mapError (Diagnostic.moved place)) := by
  induction entries with
  | nil => rfl
  | cons e rest ih =>
    rw [List.map_cons, links, links, linksOf_moved, ih, List.map_append]

/-- Moved declarations have the same links with the reports moved. -/
theorem linksIn_moved (mode : Mode) (declarations : List Declaration) :
    linksIn mode (declarations.map (·.moved place)) =
      (linksIn mode declarations).map (Except.mapError (Diagnostic.moved place)) := by
  have titles : idOfTitle? ((entriesIn mode declarations).map (Entry.moved place)) =
      idOfTitle? (entriesIn mode declarations) := by
    apply idOfTitle?_congr
    · rw [List.map_map]
      rfl
    · rw [titlesOf, List.map_map]
      rfl
  simp only [linksIn, entriesIn_moved, titles, links_moved]

/-- The edges among some links do not depend on the reports. -/
theorem edgesIn_mapError (change : Diagnostic → Diagnostic)
    (found : List (Except Diagnostic Edge)) :
    edgesIn (found.map (Except.mapError change)) = edgesIn found := by
  rw [edgesIn, edgesIn, List.filterMap_map]
  congr 1
  funext link
  cases link <;> rfl

/-- When the reports among some links are changed, it is the changed ones that are reported. -/
theorem reportsIn_mapError (change : Diagnostic → Diagnostic)
    (found : List (Except Diagnostic Edge)) :
    reportsIn (found.map (Except.mapError change)) = (reportsIn found).map change := by
  rw [reportsIn, reportsIn, List.filterMap_map, List.map_filterMap]
  congr 1
  funext link
  cases link <;> rfl

/-- Moved steps repeat the same titles, at the new places of their lines. -/
theorem repeatedTitles_moved (seen : List String) (declarations : List Declaration) :
    repeatedTitles seen (declarations.map (·.moved place)) =
      (repeatedTitles seen declarations).map (·.moved place) := by
  induction declarations generalizing seen with
  | nil => rfl
  | cons d rest ih =>
    have title : (d.moved place).title = d.title := rfl
    simp only [List.map_cons, repeatedTitles, title, ih]
    split <;> rfl

/-- The graph of declared steps does not depend on the places of their lines. -/
theorem stepGraph_moved (mode : Mode) (title description : Option String)
    (declarations : List Declaration) :
    stepGraph mode title description (declarations.map (·.moved place)) =
      stepGraph mode title description declarations := by
  unfold stepGraph
  rw [entriesIn_moved, linksIn_moved, edgesIn_mapError, List.map_map]
  rfl

/-- A scan with the lines at other places gives the same graph, and the reports at those places. -/
theorem readingOf_moved (mode : Mode) (title description : Option String) (s : Scan) :
    readingOf mode title description (s.moved place) =
      { graph := (readingOf mode title description s).graph
        diagnostics := movedReports place (readingOf mode title description s).diagnostics } := by
  have declarations : (s.moved place).declarations =
      s.declarations.map (·.moved place) := List.map_reverse.symm
  have graph : (readingOf mode title description (s.moved place)).graph =
      (readingOf mode title description s).graph := by
    simp only [graph_readingOf, declarations, stepGraph_moved, List.isEmpty_map, List.length_map]
  have titles : movedReports place (repeatedTitles [] s.declarations) =
      (repeatedTitles [] s.declarations).map (·.moved place) :=
    movedReports_eq_map place fun d mem => by simp [kind_of_mem_repeatedTitles mem]
  have branches : movedReports place (reportsIn (linksIn mode s.declarations)) =
      (reportsIn (linksIn mode s.declarations)).map (·.moved place) :=
    movedReports_eq_map place fun d mem => by simp [kind_of_mem_reportsIn_links mem]
  have diagnostics : (readingOf mode title description (s.moved place)).diagnostics =
      movedReports place (readingOf mode title description s).diagnostics := by
    simp only [readingOf, diagnostics_layOutIn, declarations, linksIn_moved, repeatedTitles_moved,
      reportsIn_mapError, movedReports_append, titles, branches]
    rfl
  rw [← graph, ← diagnostics]

end Layout

/-! ## The whole outline -/

/-- A line that is kept is not empty and has no end of line in it. -/
theorem ne_nil_and_oneLine_of_mem_keptLines {isOpen : Bool} {number : Nat}
    {raws : List (List Char)} (oneLine : ∀ raw ∈ raws, ∀ c ∈ raw, Text.isLineBreak c = false)
    {kept : Nat × List Char} (mem : kept ∈ keptLines isOpen number raws) :
    kept.2 ≠ [] ∧ ∀ c ∈ kept.2, Text.isLineBreak c = false := by
  induction raws generalizing isOpen number with
  | nil => simp [keptLines] at mem
  | cons raw rest ih =>
    rw [keptLines, List.mem_append] at mem
    rcases mem with here | later
    · split at here
      · rename_i isKept
        obtain rfl := List.mem_singleton.1 here
        constructor
        · intro empty
          simp [Outline.isKept, read_eq_blank_iff.2 empty] at isKept
        · intro c inLine
          exact oneLine raw List.mem_cons_self c (Text.mem_of_mem_trim inLine)
      · simp at here
    · exact ih (fun other mem => oneLine other (List.mem_cons_of_mem raw mem)) later

/-- The lines of the condensed outline are the kept ones. -/
theorem lines_condensed (text : String) :
    Text.lines (condensed text).toList = (keptLinesOf text).map (·.2) := by
  rw [condensed, Text.lines_unlines, List.map_map]
  · simp [Function.comp_def]
  · intro line mem
    obtain ⟨kept, inKept, rfl⟩ := List.mem_map.1 mem
    obtain ⟨nonempty, oneLine⟩ := ne_nil_and_oneLine_of_mem_keptLines
      (fun raw mem c inLine => Text.isLineBreak_eq_false_of_mem_lines mem inLine) inKept
    refine ⟨fun empty => nonempty (String.ofList_eq_empty_iff.1 empty), ?_⟩
    intro c inLine
    exact oneLine c (by simpa using inLine)

/-! ## Lines of reports -/

/-- Every step was declared on a line before a number. -/
def Scan.Earlier (number : Nat) (s : Scan) : Prop :=
  ∀ d ∈ s.latestFirst, d.line < number

/-- After a line was taken, all steps were declared on it or before. -/
theorem Scan.earlier_line {mode : Mode} {s s' : Scan} {raw : List Char} {number : Nat}
    (earlier : s.Earlier number) (taken : s.line mode raw number = .ok s') :
    s'.Earlier (number + 1) := by
  rcases line_cases taken with ⟨kind, label, -, rfl⟩ | ⟨-, -, adds⟩
  · intro d mem
    rcases List.mem_cons.1 mem with rfl | old
    · exact Nat.lt_succ_self number
    · exact Nat.lt_succ_of_lt (earlier d old)
  · rw [Earlier, adds]
    cases latest : s.latestFirst with
    | nil => simp
    | cons d before =>
      have line : (d.taking raw number).line = d.line :=
        congrArg (·.line) (d.bare_taking raw number)
      intro e mem
      rcases List.mem_cons.1 mem with rfl | old
      · exact line.trans_lt (Nat.lt_succ_of_lt (earlier d (latest ▸ List.mem_cons_self)))
      · exact Nat.lt_succ_of_lt (earlier e (latest ▸ List.mem_cons_of_mem d old))

/-- A repeated title is reported at the line of a step. -/
theorem line_mem_of_mem_repeatedTitles {seen : List String} {declarations : List Declaration}
    {d : Diagnostic} (mem : d ∈ repeatedTitles seen declarations) :
    d.line ∈ declarations.map (·.line) := by
  induction declarations generalizing seen with
  | nil => simp [repeatedTitles] at mem
  | cons first rest ih =>
    rw [List.map_cons, List.mem_cons]
    unfold repeatedTitles at mem
    split at mem
    · rcases List.mem_cons.1 mem with rfl | later
      · exact .inl rfl
      · exact .inr (ih later)
    · exact .inr (ih mem)

/-- Whatever is reported is about a line of the outline. -/
theorem line_le_of_mem_diagnostics {mode : Mode} {text : String} {title description : Option String}
    {r : Reading} (isRead : read mode text title description = .ok r) {d : Diagnostic}
    (mem : d ∈ r.diagnostics) : d.line ≤ (Text.lines text.toList).length := by
  obtain ⟨s, scanned, rfl⟩ := read_eq_ok_iff.1 isRead
  suffices d.line < 1 + (Text.lines text.toList).length by omega
  rw [readingOf, diagnostics_layOutIn, List.mem_append, List.mem_append] at mem
  rcases mem with ambiguity | repeated | dangling
  · have orderly : ({} : Scan).Orderly 1 := ⟨by simp, by simp, by simp⟩
    exact (Scan.orderly_lines orderly scanned).earlier d ambiguity
  · obtain ⟨e, declared, same⟩ := List.mem_map.1 (line_mem_of_mem_repeatedTitles repeated)
    have earlier : s.Earlier (1 + (Text.lines text.toList).length) :=
      Scan.lines_keep (fun number s => s.Earlier number)
        (fun _ _ _ _ _ kept first => Scan.earlier_line kept first)
        (by simp [Scan.Earlier]) scanned
    exact same ▸ earlier e (List.mem_reverse.1 declared)
  · rw [linksIn, reportsIn_links] at dangling
    obtain ⟨e, inEntries, own⟩ := List.mem_flatMap.1 dangling
    have declared : e.declaration ∈ s.latestFirst := by
      rw [← List.mem_reverse, ← Scan.declarations, ← declarations_entriesIn mode s.declarations]
      exact List.mem_map_of_mem inEntries
    have inTargets : d.line ∈ s.targetLines :=
      List.mem_flatMap.2 ⟨e.declaration, declared,
        (line_reportsOf _ e).subset (List.mem_map_of_mem own)⟩
    have none : ({} : Scan).targetLines <+~ List.range 1 := List.nil_subperm
    exact List.mem_range.1 ((Scan.targetLines_lines none scanned).subset inTargets)

/-- Where prose is taken for nothing, the condensed outline gives the same graph, and the same
reports but those on ignored lines. Each of them is about a line that was kept, and has the number
that this line got. -/
theorem read_condensed {anchors : Bool} {text : String} {title description : Option String}
    {r : Reading} (isRead : read ⟨anchors, false⟩ text title description = .ok r) :
    read ⟨anchors, false⟩ (condensed text) title description =
        .ok {
          graph := r.graph
          diagnostics := (r.diagnostics.filter fun d => d.finding != .ignoredLine).map fun d =>
            { d with line := placeIn text d.line } } ∧
      ∀ d ∈ r.diagnostics, d.finding ≠ .ignoredLine → d.line ∈ (keptLinesOf text).map (·.1) := by
  obtain ⟨s, scanned, rfl⟩ := read_eq_ok_iff.1 isRead
  have condensedScan : scan ⟨anchors, false⟩ (condensed text) = .ok (s.moved (placeIn text)) := by
    rw [scan, lines_condensed]
    have noneEarlier : ∀ n ∈ ([] : List Nat), n < 1 := by simp
    exact Scan.lines_keptLines (placeIn text) noneEarlier (fun _ => rfl) scanned
  have isReadToo : read ⟨anchors, false⟩ (condensed text) title description =
      .ok {
        graph := (readingOf ⟨anchors, false⟩ title description s).graph
        diagnostics := movedReports (placeIn text)
          (readingOf ⟨anchors, false⟩ title description s).diagnostics } := by
    rw [← readingOf_moved]
    exact read_eq_ok_iff.2 ⟨_, condensedScan, rfl⟩
  refine ⟨isReadToo, ?_⟩
  intro d mem notIgnored
  have moved : d.moved (placeIn text) ∈
      movedReports (placeIn text) (readingOf ⟨anchors, false⟩ title description s).diagnostics :=
    List.mem_map_of_mem (List.mem_filter.2 ⟨mem, by simpa using notIgnored⟩)
  -- A line that was not kept would have a place behind all lines of the condensed outline.
  have within := line_le_of_mem_diagnostics isReadToo moved
  rw [lines_condensed, List.length_map, ← List.length_map (·.1)] at within
  exact List.idxOf_lt_length_iff.1 within

/-- Prose around and between the lines of a decision, a branch given twice, a branch line where no
decision is open, a title that comes back and a branch to no step. -/
def memoText : String :=
  "Dear all,\n  DECISION: Urgent? \n\nas discussed\n\tYES -> Call\r\n-- or rather\n YES -> Mail\n" ++
    "PROCESS: Mail\nNO -> Mail\nregards\nPROCESS: Mail | once\nDECISION: Sent?\nNO -> Nobody"

/-- What is read from it without anchors. -/
def memoReading : Reading where
  graph := {
    nodes := [
      { id := "node_1", kind := .decision, title := "Urgent?" },
      { id := "node_2", kind := .process, title := "Mail" },
      { id := "node_3", kind := .process, title := "Mail", description := "once" },
      { id := "node_4", kind := .decision, title := "Sent?" }]
    edges := [
      { source := "node_1", target := "node_3", branch := some .yes },
      { source := "node_2", target := "node_3" },
      { source := "node_3", target := "node_4" }] }
  diagnostics := [
    ⟨.ignoredLine, 1, "Dear all,"⟩,
    ⟨.ignoredLine, 4, "as discussed"⟩,
    ⟨.ignoredLine, 6, "-- or rather"⟩,
    ⟨.repeatedBranch "Urgent?" .yes "Mail", 7, "YES -> Mail"⟩,
    ⟨.ignoredLine, 9, "NO -> Mail"⟩,
    ⟨.ignoredLine, 10, "regards"⟩,
    ⟨.repeatedTitle "Mail", 11, "Mail"⟩,
    ⟨.unknownTarget "Sent?" .no "Nobody", 13, "Nobody"⟩]

/-- The condensed outline gives the same graph, and the three reports that remain are at the new
places of their lines. -/
theorem read_condensed_memoText :
    read ⟨false, false⟩ memoText = .ok memoReading ∧
      condensed memoText =
        "DECISION: Urgent?\nYES -> Call\nYES -> Mail\nPROCESS: Mail\nPROCESS: Mail | once\n" ++
          "DECISION: Sent?\nNO -> Nobody" ∧
      read ⟨false, false⟩ (condensed memoText) =
        .ok {
          graph := memoReading.graph
          diagnostics := [
            ⟨.repeatedBranch "Urgent?" .yes "Mail", 3, "YES -> Mail"⟩,
            ⟨.repeatedTitle "Mail", 5, "Mail"⟩,
            ⟨.unknownTarget "Sent?" .no "Nobody", 7, "Nobody"⟩] } := by
  have isRead : read ⟨false, false⟩ memoText = .ok memoReading := by
    decide +kernel
  have short : condensed memoText =
      "DECISION: Urgent?\nYES -> Call\nYES -> Mail\nPROCESS: Mail\nPROCESS: Mail | once\n" ++
        "DECISION: Sent?\nNO -> Nobody" := by
    decide +kernel
  have places : (memoReading.diagnostics.filter fun d => d.finding != .ignoredLine).map
      (fun d => { d with line := placeIn memoText d.line }) = [
        ⟨.repeatedBranch "Urgent?" .yes "Mail", 3, "YES -> Mail"⟩,
        ⟨.repeatedTitle "Mail", 5, "Mail"⟩,
        ⟨.unknownTarget "Sent?" .no "Nobody", 7, "Nobody"⟩] := by
    decide +kernel
  refine ⟨isRead, short, ?_⟩
  rw [← places]
  exact (read_condensed isRead).1

end Flowchart.Outline
