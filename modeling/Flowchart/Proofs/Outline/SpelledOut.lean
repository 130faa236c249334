import Flowchart.Proofs.Outline.Declared
import Flowchart.Proofs.Outline.Layout
import Flowchart.Proofs.Text.Endings

/-!
# Process steps spelled out

Taking prose for process steps is a shorthand. In any outline that can be read in this way, the
keyword can be set in front of each line that became such a step, and a reading that takes prose for
nothing then gives the same graph and the same diagnostics. Lines with a keyword count as they did
before, so the same branch lines find a decision open, and the lines that were reported still are.
-/

set_option autoImplicit false

namespace Flowchart.Outline

/-- A line that declares a process step with the label that the text spells out. -/
def processLine (text : List Char) : List Char :=
  (NodeKind.process.keyword ++ ": ").toList ++ text

/-- Some lines with the keyword set in front of those that become process steps without it. -/
def spelledOutLines : Bool → List (List Char) → List (List Char)
  | _, [] => []
  | isOpen, raw :: rest =>
    (if impliesStep isOpen raw then processLine (Text.trim raw) else raw) ::
      spelledOutLines (opens { proseAsProcess := true } isOpen raw) rest

/-- An outline with the keyword set in front of those lines. The ends of the lines stay. -/
def spelledOut (text : String) : String :=
  let cs := text.toList
  String.ofList (Text.joined (spelledOutLines false (Text.lines cs)) (Text.endings cs))

/-! ## One line -/

/-- A blank in front of a label is trimmed. -/
theorem ofText_cons_space (cs : List Char) : Label.ofText (' ' :: cs) = Label.ofText cs := by
  have front : (' ' :: cs).takeWhile (· != '|') = ' ' :: cs.takeWhile (· != '|') :=
    List.takeWhile_cons_of_pos (by decide)
  have back : (' ' :: cs).dropWhile (· != '|') = cs.dropWhile (· != '|') :=
    List.dropWhile_cons_of_pos (by decide)
  rw [Label.ofText, Label.ofText, front, back, Text.trim_cons_blank (by decide)]

/-- The line that spells out a process step declares it. -/
theorem read_processLine {raw : List Char}
    (titled : (Label.ofText (Text.trim raw)).title ≠ "") :
    Statement.read (Text.trim (processLine (Text.trim raw))) =
      .step NodeKind.process.name (Label.ofText (Text.trim raw)) := by
  have nonempty : String.ofList (Text.trim raw) ≠ "" := by
    intro empty
    rw [String.ofList_eq_empty_iff.1 empty] at titled
    exact titled rfl
  have visible : ∃ c rest, NodeKind.process.keyword.toList ++ [':', ' '] = c :: rest ∧
      Text.isBlank c = false := ⟨_, _, rfl, by decide⟩
  have trimmed : Text.trim (processLine (Text.trim raw)) = processLine (Text.trim raw) := by
    have whole := trim_append_title visible (isTitle_ofList_trim nonempty)
    simpa [processLine] using whole
  have declared : NodeKind.process ∈ declarable := by decide
  have declares : step? (processLine (Text.trim raw)) =
      some (.step NodeKind.process.name (Label.ofText (Text.trim raw))) := by
    simp [step?, processLine, stepHead?_keyword declared, keywordText_kind declared,
      ofText_cons_space, titled]
  rw [trimmed, Statement.read, if_neg (by simp [processLine]), declares]

/-- A line becomes a process step if it has a title and is prose, or a branch line where no decision
is open. -/
theorem impliesStep_iff {isOpen : Bool} {raw : List Char} :
    impliesStep isOpen raw = true ↔ (Label.ofText (Text.trim raw)).title ≠ "" ∧
      (Statement.read (Text.trim raw) = .prose ∨ isOpen = false ∧
        ∃ keyword target, Statement.read (Text.trim raw) = .branch keyword target) := by
  cases reads : Statement.read (Text.trim raw) <;> simp [impliesStep, reads, and_comm]

namespace Scan

/-- Prose without a title is reported in every mode. -/
theorem prose_of_untitled {line : List Char} (untitled : (Label.ofText line).title = "")
    (mode : Mode) (s : Scan) (number : Nat) :
    s.prose mode line number = s.report ⟨.ignoredLine, number, String.ofList line⟩ := by
  unfold prose
  simp [untitled]

/-- A line that becomes no process step counts the same in all modes. -/
theorem line_of_not_impliesStep {s : Scan} {raw : List Char}
    (implies : impliesStep s.isOpen raw = false) (mode other : Mode) (number : Nat) :
    s.line mode raw number = s.line other raw number := by
  have untitled (unread : Statement.read (Text.trim raw) = .prose ∨ s.isOpen = false ∧
      ∃ keyword target, Statement.read (Text.trim raw) = .branch keyword target) :
      (Label.ofText (Text.trim raw)).title = "" := by
    by_contra titled
    exact absurd (impliesStep_iff.2 ⟨titled, unread⟩) (by simp [implies])
  cases reads : Statement.read (Text.trim raw) with
  | blank => simp only [line, reads]
  | step keyword label => simp only [line, reads]
  | branch keyword target =>
    cases opened : s.openDecision? with
    | some latest => simp only [line, reads, opened]
    | none =>
      have closed : s.isOpen = false := by rw [isOpen, opened]; rfl
      have empty := untitled (.inr ⟨closed, keyword, target, reads⟩)
      simp only [line, reads, opened, prose_of_untitled empty]
  | prose =>
    have empty := untitled (.inl reads)
    simp only [line, reads, prose_of_untitled empty]

/-- A line that becomes a process step and the line that spells this step out count the same. -/
theorem line_of_impliesStep {s : Scan} {raw : List Char}
    (implies : impliesStep s.isOpen raw = true) {mode : Mode}
    (takesProse : mode.proseAsProcess = true) (other : Mode) (number : Nat) :
    s.line other (processLine (Text.trim raw)) number = s.line mode raw number := by
  obtain ⟨titled, unread⟩ := impliesStep_iff.1 implies
  have declares : s.prose mode (Text.trim raw) number =
      s.declare { kind := .process, label := Label.ofText (Text.trim raw), line := number } := by
    simp [prose, takesProse, titled]
  have implicit : s.line mode raw number = .ok (s.prose mode (Text.trim raw) number) := by
    unfold line
    rcases unread with reads | ⟨closed, keyword, target, reads⟩
    · simp only [reads]
    · have none : s.openDecision? = none := by simpa [isOpen] using closed
      simp only [reads, none]
  rw [implicit, declares]
  unfold line
  simp only [read_processLine titled, kind_named_name]
  rfl

/-- Scanning the lines that are spelled out comes to what scanning the lines came to. -/
theorem lines_spelledOutLines {anchors : Bool} {s s' : Scan} {number : Nat}
    {raws : List (List Char)} (taken : Scan.lines ⟨anchors, true⟩ s number raws = .ok s') :
    Scan.lines ⟨anchors, false⟩ s number (spelledOutLines s.isOpen raws) = .ok s' := by
  induction raws generalizing s number with
  | nil => exact taken
  | cons raw rest ih =>
    have same : s.line ⟨anchors, false⟩
        (if impliesStep s.isOpen raw then processLine (Text.trim raw) else raw) number =
          s.line ⟨anchors, true⟩ raw number := by
      cases implies : impliesStep s.isOpen raw with
      | true => exact line_of_impliesStep implies rfl _ number
      | false => exact line_of_not_impliesStep implies _ _ number
    obtain ⟨next, first, later⟩ := lines_cons_eq_ok_iff.1 taken
    have rest := ih later
    rw [isOpen_line first] at rest
    exact lines_cons_eq_ok_iff.2 ⟨next, same.trans first, rest⟩

end Scan

/-! ## The whole outline -/

/-- The lines that are spelled out can stand in the places of the old ones. -/
theorem fits_spelledOutLines (isOpen : Bool) {raws : List (List Char)}
    (oneLine : ∀ raw ∈ raws, ∀ c ∈ raw, Text.isLineBreak c = false) :
    List.Forall₂ Text.Fits (spelledOutLines isOpen raws) raws := by
  induction raws generalizing isOpen with
  | nil => exact .nil
  | cons raw rest ih =>
    have whole := oneLine raw List.mem_cons_self
    refine .cons ?_ (ih _ fun other mem => oneLine other (List.mem_cons_of_mem raw mem))
    split
    · rename_i implies
      constructor
      · have old : raw ≠ [] := by
          rintro rfl
          exact absurd implies (by cases isOpen <;> decide)
        simp [processLine, old]
      · intro c mem
        have keyword : Text.OneLine (NodeKind.process.keyword ++ ": ") := by decide
        rcases List.mem_append.1 mem with inKeyword | inText
        · exact keyword c inKeyword
        · exact whole c (Text.mem_of_mem_trim inText)
    · exact ⟨Iff.rfl, whole⟩

/-- The lines of the outline that is spelled out are its lines, spelled out. -/
theorem lines_spelledOut (text : String) :
    Text.lines (spelledOut text).toList = spelledOutLines false (Text.lines text.toList) := by
  rw [spelledOut, String.toList_ofList]
  apply Text.lines_joined_endings
  exact fits_spelledOutLines false fun raw mem c inLine =>
    Text.isLineBreak_eq_false_of_mem_lines mem inLine

/-- What is read with prose taken for process steps is read without that once these steps are
spelled out. -/
theorem read_spelledOut {anchors : Bool} {text : String} {title description : Option String}
    {r : Reading} (isRead : read ⟨anchors, true⟩ text title description = .ok r) :
    read ⟨anchors, false⟩ (spelledOut text) title description = .ok r := by
  obtain ⟨s, scanned, rfl⟩ := read_eq_ok_iff.1 isRead
  have explicit : scan ⟨anchors, false⟩ (spelledOut text) = .ok s := by
    rw [scan, lines_spelledOut]
    exact Scan.lines_spelledOutLines scanned
  exact read_eq_ok_iff.2 ⟨s, explicit, rfl⟩

/-- Prose before a decision and after its branches, prose without a title, a branch where no
decision is open and a keyword without a title, on lines that end in different ways. -/
def draftText : String :=
  "take the form | by post\r\nDECISION: Signed?\r\n  YES -> file it\n  NO -> Ask\n| later\n" ++
    "file it\rNO -> Ask\n\nINPUT: | by post"

/-- What is read from it with anchors, prose being taken for process steps. -/
def draftReading : Reading where
  graph := {
    nodes := [
      { id := "node_1", kind := .start, title := "Start" },
      { id := "node_2", kind := .process, title := "take the form", description := "by post" },
      { id := "node_3", kind := .decision, title := "Signed?" },
      { id := "node_4", kind := .process, title := "file it" },
      { id := "node_5", kind := .process, title := "NO -> Ask" },
      { id := "node_6", kind := .process, title := "INPUT:", description := "by post" },
      { id := "node_7", kind := .finish, title := "End" }]
    edges := [
      { source := "node_1", target := "node_2" },
      { source := "node_2", target := "node_3" },
      { source := "node_3", target := "node_4", branch := some .yes },
      { source := "node_4", target := "node_5" },
      { source := "node_5", target := "node_6" },
      { source := "node_6", target := "node_7" }] }
  diagnostics := [
    ⟨.ignoredLine, 5, "| later"⟩,
    ⟨.unknownTarget "Signed?" .no "Ask", 4, "Ask"⟩]

/-- The outline that is spelled out gives the same reading without taking prose for steps. -/
theorem read_spelledOut_draftText :
    read ⟨true, true⟩ draftText = .ok draftReading ∧
      spelledOut draftText =
        "PROCESS: take the form | by post\r\nDECISION: Signed?\r\n  YES -> file it\n" ++
          "  NO -> Ask\n| later\nPROCESS: file it\rPROCESS: NO -> Ask\n\nPROCESS: INPUT: | by post" ∧
      read ⟨true, false⟩ (spelledOut draftText) = .ok draftReading := by
  have isRead : read ⟨true, true⟩ draftText = .ok draftReading := by
    decide +kernel
  have spelled : spelledOut draftText =
      "PROCESS: take the form | by post\r\nDECISION: Signed?\r\n  YES -> file it\n" ++
        "  NO -> Ask\n| later\nPROCESS: file it\rPROCESS: NO -> Ask\n\nPROCESS: INPUT: | by post" := by
    decide +kernel
  exact ⟨isRead, spelled, read_spelledOut isRead⟩

end Flowchart.Outline
