import Flowchart.Graph.Name
import Flowchart.Outline.Statement
import Mathlib.Data.List.Forall2

/-!
# Keywords as they were written

A keyword is recognised without regard to case, and then looked up by its lower case. The two steps
agree for letters of ASCII only: the partners of I and S outside ASCII are recognised as well, but
their lower case is no letter of ASCII, and all names are written in ASCII. So a recognised keyword
names something exactly when it was written in ASCII, and then it names what it was recognised as.
-/

set_option autoImplicit false

namespace Flowchart.Text

/-- Some character of the text is not a character of ASCII. -/
def HasForeign (cs : List Char) : Prop :=
  ∃ c ∈ cs, 128 ≤ c.toNat

instance (cs : List Char) : Decidable (HasForeign cs) :=
  decidable_of_iff (cs.any fun c => 128 ≤ c.toNat) (by simp [HasForeign])

/-- The word that was taken has the letters of the word that was looked for. -/
theorem sameLetters_of_takeWord {word cs written rest : List Char}
    (h : takeWord word cs = some (written, rest)) :
    List.Forall₂ (fun letter c => sameLetter letter c = true) word written := by
  induction word generalizing cs written with
  | nil =>
    simp only [takeWord, Option.some.injEq, Prod.mk.injEq] at h
    obtain ⟨rfl, -⟩ := h
    exact .nil
  | cons letter word ih =>
    cases cs with
    | nil => simp [takeWord] at h
    | cons c cs =>
      rw [takeWord] at h
      split at h
      · rename_i same
        simp only [Option.map_eq_some_iff, Prod.mk.injEq, Prod.exists] at h
        obtain ⟨tail, after, found, rfl, rfl⟩ := h
        exact .cons same (ih found)
      · simp at h

/-- Characters outside ASCII have no other case here. -/
theorem toLower_of_foreign {c : Char} (h : 128 ≤ c.toNat) : c.toLower = c := by
  unfold Char.toLower
  rw [dif_neg]
  rintro ⟨-, upper⟩
  have small : c.toNat ≤ 'Z'.toNat := UInt32.le_iff_toNat_le.1 upper
  have bound : 'Z'.toNat < 128 := by decide
  omega

/-- Lowering keeps a foreign character foreign. -/
theorem hasForeign_lowered {cs : List Char} (h : HasForeign cs) : HasForeign (lowered cs) := by
  obtain ⟨c, mem, foreign⟩ := h
  by_cases dotted : c = dottedI
  · refine ⟨'\u0307', List.mem_flatMap.2 ⟨c, mem, ?_⟩, by decide⟩
    simp [lowerLetter, dotted]
  · refine ⟨c, List.mem_flatMap.2 ⟨c, mem, ?_⟩, foreign⟩
    simp [lowerLetter, dotted, toLower_of_foreign foreign]

/-- A character of ASCII is the same letter as another only if their lower cases agree. -/
theorem toLower_eq_of_sameLetter {letter c : Char} (same : sameLetter letter c = true)
    (ascii : c.toNat < 128) : letter.toLower = c.toLower := by
  have notDotted : c ≠ dottedI := by rintro rfl; exact absurd ascii (by decide)
  have notDotless : c ≠ dotlessI := by rintro rfl; exact absurd ascii (by decide)
  have notLong : c ≠ longS := by rintro rfl; exact absurd ascii (by decide)
  have notKelvin : c ≠ kelvin := by rintro rfl; exact absurd ascii (by decide)
  simpa [sameLetter, notDotted, notDotless, notLong, notKelvin] using same

/-- A word that was written in ASCII has the lower case of the word that was looked for. -/
theorem lowered_of_ascii {word written : List Char}
    (same : List.Forall₂ (fun letter c => sameLetter letter c = true) word written)
    (ascii : ¬ HasForeign written) : lowered written = word.map Char.toLower := by
  induction same with
  | nil => rfl
  | @cons letter c word written first _ ih =>
    have small : c.toNat < 128 := by
      by_contra large
      exact ascii ⟨c, List.mem_cons_self, Nat.le_of_not_lt large⟩
    have tail := ih fun ⟨d, mem, large⟩ => ascii ⟨d, List.mem_cons_of_mem c mem, large⟩
    have notDotted : c ≠ dottedI := by rintro rfl; exact absurd small (by decide)
    have head : lowerLetter c = [letter.toLower] := by
      rw [toLower_eq_of_sameLetter first small]
      simp [lowerLetter, notDotted]
    calc lowered (c :: written) = lowerLetter c ++ lowered written := List.flatMap_cons
      _ = (letter :: word).map Char.toLower := by rw [head, tail]; rfl

end Flowchart.Text

namespace Flowchart.Outline

open Text (HasForeign)

/-- The names of kinds are written in ASCII. -/
theorem kind_name_ascii (kind : NodeKind) : ¬ HasForeign kind.name.toList := by
  cases kind <;> decide

/-- The names of branches are written in ASCII. -/
theorem branch_name_ascii (b : Branch) : ¬ HasForeign b.name.toList := by
  cases b <;> decide

/-- The name of a kind is its keyword in lower case. -/
theorem kind_name_eq (kind : NodeKind) :
    String.ofList (kind.keyword.toList.map Char.toLower) = kind.name := by
  cases kind <;> decide

/-- The name of a branch is its keyword in lower case. -/
theorem branch_name_eq (b : Branch) :
    String.ofList (b.keyword.toList.map Char.toLower) = b.name := by
  cases b <;> decide

/-- The name of a kind names that kind. -/
theorem kind_named_name (kind : NodeKind) : NodeKind.named kind.name = .ok kind := by
  cases kind <;> rfl

/-- The name of a branch names that branch. -/
theorem branch_named_name (b : Branch) : Branch.named b.name = .ok b := by
  cases b <;> rfl

/-- A kind is only named by its own name. -/
theorem eq_of_kind_named {name : String} {kind : NodeKind} (h : NodeKind.named name = .ok kind) :
    name = kind.name := by
  unfold NodeKind.named at h
  cases found : NodeKind.ofName? name with
  | none => simp [found] at h
  | some other =>
    rw [found] at h
    obtain rfl := Except.ok.inj h
    have same := List.find?_some found
    exact (beq_iff_eq.1 same).symm

/-- A branch is only named by its own name. -/
theorem eq_of_branch_named {name : String} {b : Branch} (h : Branch.named name = .ok b) :
    name = b.name := by
  unfold Branch.named at h
  cases found : Branch.ofName? name with
  | none => simp [found] at h
  | some other =>
    rw [found] at h
    obtain rfl := Except.ok.inj h
    have same := List.find?_some found
    exact (beq_iff_eq.1 same).symm

/-! ## The statements of single lines -/

/-- The head of a step is the keyword of a kind that can be declared, and a colon. -/
theorem stepHead?_eq_some {line written payload : List Char}
    (h : stepHead? line = some (written, payload)) :
    ∃ kind ∈ declarable,
      Text.takeWord kind.keyword.toList line = some (written, ':' :: payload) := by
  obtain ⟨kind, declared, taken⟩ := List.exists_of_findSome?_eq_some h
  refine ⟨kind, declared, ?_⟩
  split at taken
  · rename_i found
    simp only [Option.some.injEq, Prod.mk.injEq] at taken
    obtain ⟨rfl, rfl⟩ := taken
    exact found
  · simp at taken

/-- The head of a branch line starts with the keyword of a branch. -/
theorem branchHead?_eq_some {line written target : List Char}
    (h : branchHead? line = some (written, target)) :
    ∃ b : Branch, ∃ rest, Text.takeWord b.keyword.toList line = some (written, rest) := by
  obtain ⟨b, -, taken⟩ := List.exists_of_findSome?_eq_some h
  split at taken
  · rename_i found
    split at taken
    · simp only [Option.some.injEq, Prod.mk.injEq] at taken
      obtain ⟨rfl, -⟩ := taken
      exact ⟨b, _, found⟩
    · simp at taken
  · simp at taken

/-- A line that declares a step has the head of a step and a label with a title. -/
theorem step?_eq_some {line : List Char} {statement : Statement} (h : step? line = some statement) :
    ∃ written payload, stepHead? line = some (written, payload) ∧
      statement = .step (keywordText written) (Label.ofText payload) ∧
      (Label.ofText payload).title ≠ "" := by
  unfold step? at h
  cases head : stepHead? line with
  | none => simp [head] at h
  | some taken =>
    obtain ⟨written, payload⟩ := taken
    simp only [head] at h
    by_cases unnamed : (Label.ofText payload).title = ""
    · rw [if_pos unnamed] at h
      exact absurd h (by simp)
    · rw [if_neg unnamed] at h
      exact ⟨written, payload, rfl, (Option.some.inj h).symm, unnamed⟩

/-- Only the empty line says nothing. -/
theorem read_eq_blank_iff {line : List Char} : Statement.read line = .blank ↔ line = [] := by
  constructor
  · intro h
    unfold Statement.read at h
    split at h
    · rename_i empty
      exact List.isEmpty_iff.1 empty
    · split at h
      · rename_i declares
        obtain ⟨written, payload, -, same, -⟩ := step?_eq_some declares
        exact absurd (same.symm.trans h) (by simp)
      · split at h <;> simp at h
  · rintro rfl
    rfl

/-- A step line starts with the keyword of a kind and a colon, and its label is spelled out by what
follows. -/
theorem read_eq_step {line : List Char} {keyword : String} {label : Label}
    (h : Statement.read line = .step keyword label) :
    ∃ kind ∈ declarable, ∃ written payload,
      Text.takeWord kind.keyword.toList line = some (written, ':' :: payload) ∧
        keyword = keywordText written ∧ label = Label.ofText payload ∧ label.title ≠ "" := by
  unfold Statement.read at h
  split at h
  · simp at h
  · split at h
    · rename_i declares
      subst h
      obtain ⟨written, payload, head, same, named⟩ := step?_eq_some declares
      obtain ⟨kind, declared, taken⟩ := stepHead?_eq_some head
      obtain ⟨rfl, rfl⟩ := Statement.step.inj same
      exact ⟨kind, declared, written, payload, taken, rfl, rfl, named⟩
    · split at h <;> simp at h

/-- A branch line starts with the keyword of a branch. -/
theorem read_eq_branch {line : List Char} {keyword target : String}
    (h : Statement.read line = .branch keyword target) :
    ∃ b : Branch, ∃ written rest,
      Text.takeWord b.keyword.toList line = some (written, rest) ∧
        keyword = keywordText written := by
  unfold Statement.read at h
  split at h
  · simp at h
  · split at h
    · rename_i declares
      subst h
      obtain ⟨written, payload, -, same, -⟩ := step?_eq_some declares
      exact absurd same (by simp)
    · split at h
      · rename_i head
        obtain ⟨rfl, -⟩ := Statement.branch.inj h
        obtain ⟨b, rest, taken⟩ := branchHead?_eq_some head
        exact ⟨b, _, rest, taken, rfl⟩
      · simp at h

/-- The lower case of a keyword is the name of what it was recognised as, unless it is foreign. -/
theorem keywordText_of_takeWord {word line written rest : List Char}
    (h : Text.takeWord word line = some (written, rest))
    (ascii : ¬ HasForeign (keywordText written).toList) :
    keywordText written = String.ofList (word.map Char.toLower) := by
  rw [keywordText, String.toList_ofList] at ascii
  have plain : ¬ HasForeign written := fun foreign => ascii (Text.hasForeign_lowered foreign)
  rw [keywordText, Text.lowered_of_ascii (Text.sameLetters_of_takeWord h) plain]

/-- The keyword of a step line names a kind exactly when it is written in ASCII. -/
theorem kind_named_iff {line : List Char} {keyword : String} {label : Label}
    (h : Statement.read line = .step keyword label) :
    (∃ kind, NodeKind.named keyword = .ok kind) ↔ ¬ HasForeign keyword.toList := by
  constructor
  · rintro ⟨kind, named⟩
    rw [eq_of_kind_named named]
    exact kind_name_ascii kind
  · intro ascii
    obtain ⟨kind, -, written, payload, taken, rfl, -, -⟩ := read_eq_step h
    refine ⟨kind, ?_⟩
    rw [keywordText_of_takeWord taken ascii, kind_name_eq, kind_named_name]

/-- The keyword of a branch line names a branch exactly when it is written in ASCII. -/
theorem branch_named_iff {line : List Char} {keyword target : String}
    (h : Statement.read line = .branch keyword target) :
    (∃ b, Branch.named keyword = .ok b) ↔ ¬ HasForeign keyword.toList := by
  constructor
  · rintro ⟨b, named⟩
    rw [eq_of_branch_named named]
    exact branch_name_ascii b
  · intro ascii
    obtain ⟨b, written, rest, taken, rfl⟩ := read_eq_branch h
    refine ⟨b, ?_⟩
    rw [keywordText_of_takeWord taken ascii, branch_name_eq, branch_named_name]

/-- A step line only declares a kind that lines can declare. -/
theorem declarable_of_named {line : List Char} {keyword : String} {label : Label} {kind : NodeKind}
    (h : Statement.read line = .step keyword label) (named : NodeKind.named keyword = .ok kind) :
    kind ∈ declarable := by
  have ascii := (kind_named_iff h).1 ⟨kind, named⟩
  obtain ⟨other, declared, written, payload, taken, rfl, -, -⟩ := read_eq_step h
  rw [keywordText_of_takeWord taken ascii, kind_name_eq, kind_named_name] at named
  obtain rfl := Except.ok.inj named
  exact declared

end Flowchart.Outline
