import Flowchart.Proofs.Json.Depth
import Flowchart.Proofs.Text.Trimming
import Flowchart.Review.Ask

/-!
# What becomes of a reviewer's answer

Whatever a reviewer answers, an assessment that comes of it is sound: its scores are in range and
its suggestions have titles. Where no assessment comes of it, the answer is mostly refused as
malformed. There are two exceptions, which are no failures of the call: a document that is too deep,
and a score that is a floating-point value but no number. Both are stated over the grammar of
documents and for every depth that a reader may accept.
-/

set_option autoImplicit false

namespace Flowchart.Review

/-- The scores go from 0 to 100, and the suggestions have titles as documents may hold them. -/
structure Assessment.Sound (a : Assessment) : Prop where
  completeness : a.completeness ≤ 100
  clarity : a.clarity ≤ 100
  titled : ∀ s ∈ a.suggestions, isTitle s.title

/-- An answer is settled by a sound assessment, or refused as malformed. -/
def Settled (outcome : Except Chat.Failure Assessment) : Prop :=
  (∃ a, outcome = .ok a ∧ a.Sound) ∨ ∃ message, outcome = .error (.call (.malformed message))

/-! ## Scores -/

/-- The value is the floating-point value that is no number. -/
def NotANumber (value : Option Json) : Prop :=
  ∃ x, value = some (.float x) ∧ Number.Binary64.ofFloat x = .nan

/-- A score is in range, unless the value is no number. -/
theorem score_cases (value : Option Json) :
    (¬ NotANumber value ∧ ∃ n, score value = .ok n ∧ n ≤ 100) ∨
      (NotANumber value ∧ score value = .error .scoreNotANumber) := by
  have number {x : Float} (h : Number.Binary64.ofFloat x ≠ .nan) :
      ¬ NotANumber (some (.float x)) := by
    rintro ⟨y, same, isNan⟩
    cases same
    exact h isNan
  have other (v : Option Json) (h : ∀ x, v ≠ some (.float x)) : ¬ NotANumber v := by
    rintro ⟨x, same, -⟩
    exact h x same
  unfold score
  split
  · exact .inl ⟨other _ (by simp), _, rfl, Nat.min_le_right _ _⟩
  · split
    · rename_i x _ isNan
      exact .inr ⟨⟨x, rfl, isNan⟩, rfl⟩
    · rename_i negative infinite
      refine .inl ⟨number (by simp [infinite]), _, rfl, ?_⟩
      cases negative with
      | true => exact Nat.zero_le _
      | false => exact Nat.le_refl _
    · rename_i negative significand exponent finite
      refine .inl ⟨number (by simp [finite]), _, rfl, ?_⟩
      cases negative with
      | true => exact Nat.zero_le _
      | false => exact Nat.min_le_right _ _
  · rename_i notFloat
    exact .inl ⟨other _ notFloat, 0, rfl, Nat.zero_le _⟩

/-! ## Suggestions -/

/-- The title of a suggestion is one that documents may hold. -/
theorem isTitle_of_title? {s title : String} (h : title? s = some title) : isTitle title := by
  obtain ⟨same, nonempty⟩ := Option.filter_eq_some_iff.1 h
  obtain rfl := Option.some.inj same
  exact isTitle_ofList_trim fun empty => by simp [Text.trimmed, empty] at nonempty

/-- A suggestion that is complete has a title. -/
theorem isTitle_of_ofJson? {value : Json} {s : Suggestion} (h : Suggestion.ofJson? value = some s) :
    isTitle s.title := by
  simp only [Suggestion.ofJson?, Option.bind_eq_bind, Option.bind_eq_some_iff,
    Option.some.injEq] at h
  obtain ⟨fields, -, typeName, -, topic, -, urgency, -, priority, -, text, -, title, titled,
    description, -, step, -, rfl⟩ := h
  exact isTitle_of_title? titled

/-- All suggestions in a list have titles. -/
theorem isTitle_of_mem_suggestionsIn {value : Option Json} {s : Suggestion}
    (mem : s ∈ suggestionsIn value) : isTitle s.title := by
  unfold suggestionsIn at mem
  split at mem
  · obtain ⟨item, -, complete⟩ := List.mem_filterMap.1 mem
    exact isTitle_of_ofJson? complete
  · simp at mem

/-! ## The fields of an answer -/

/-- One of the two scores is no number. -/
def ScoreNotANumber (fields : Json.Fields) : Prop :=
  NotANumber (either? fields "completenessScore" "completeness_score") ∨
    NotANumber (either? fields "clarityScore" "clarity_score")

/-- The fields of an answer describe a sound assessment, unless one of the scores is no number. -/
theorem ofFields_cases (fields : Json.Fields) :
    (¬ ScoreNotANumber fields ∧ ∃ a, Assessment.ofFields fields = .ok a ∧ a.Sound) ∨
      (ScoreNotANumber fields ∧ Assessment.ofFields fields = .error .scoreNotANumber) := by
  unfold Assessment.ofFields ScoreNotANumber
  rcases score_cases (either? fields "completenessScore" "completeness_score") with
    ⟨isNumber, completeness, scored, inRange⟩ | ⟨notANumber, refused⟩
  · rw [scored]
    rcases score_cases (either? fields "clarityScore" "clarity_score") with
      ⟨isNumberToo, clarity, scoredToo, inRangeToo⟩ | ⟨notANumber, refused⟩
    · rw [scoredToo]
      refine .inl ⟨by simp [isNumber, isNumberToo], _, rfl, ?_⟩
      exact ⟨inRange, inRangeToo, fun s mem => isTitle_of_mem_suggestionsIn mem⟩
    · rw [refused]
      exact .inr ⟨.inr notANumber, rfl⟩
  · rw [refused]
    exact .inr ⟨.inl notANumber, rfl⟩

/-! ## The object in an answer -/

/-- An object is looked for between the braces of a content that is neither a document nor too
deep. -/
def Searched (depth : Nat) (content : List Char) : Prop :=
  (∀ v, ¬ Json.IsDocument depth content v) ∧ ∀ k, ¬ Json.TooDeep depth content k

/-- The answer holds an object: its content is the document of the object, or its content is
searched and the part of it between braces is this document. -/
def Holds (depth : Nat) (text : String) (fields : Json.Fields) : Prop :=
  Json.IsDocument depth (Fence.unwrapChars text.toList) (.object fields) ∨
    Searched depth (Fence.unwrapChars text.toList) ∧
      ∃ part, braced? (Fence.unwrapChars text.toList) = some part ∧
        Json.IsDocument depth part (.object fields)

/-- The answer is too deep: its content is, or its content is searched and the part of it between
braces is. -/
def TooDeep (depth : Nat) (text : String) : Prop :=
  (∃ k, Json.TooDeep depth (Fence.unwrapChars text.toList) k) ∨
    Searched depth (Fence.unwrapChars text.toList) ∧
      ∃ k part, braced? (Fence.unwrapChars text.toList) = some part ∧ Json.TooDeep depth part k

variable {depth : Nat} {text : String} {content : List Char} {fields : Json.Fields}

/-- Only an object has fields. -/
theorem fieldsOf_eq_ok_iff {v : Json} : fieldsOf v = .ok fields ↔ v = .object fields := by
  cases v <;> simp [fieldsOf, Json.fields?]

/-- A document without fields is malformed. -/
theorem fieldsOf_cases (document : Json) :
    (∃ fields, fieldsOf document = .ok fields) ∨
      ∃ message, fieldsOf document = .error (.call (.malformed message)) := by
  unfold fieldsOf
  split
  · exact .inl ⟨_, rfl⟩
  · exact .inr ⟨_, rfl⟩

/-- No document is too deep for its fields. -/
theorem fieldsOf_ne_tooDeep {v : Json} {k : Json.Container} :
    fieldsOf v ≠ .error (.tooDeep k) := by
  cases v <;> simp [fieldsOf, Json.fields?]

/-- The object between braces is the one that is spelled there. -/
theorem bracedObject_eq_ok_iff : bracedObject content depth = .ok fields ↔
    ∃ part, braced? content = some part ∧ Json.IsDocument depth part (.object fields) := by
  unfold bracedObject
  cases braced? content with
  | none => simp
  | some part =>
    simp only [Option.some.injEq, exists_eq_left', ← Json.read_eq_ok_iff]
    cases Json.read part depth with
    | ok v => simp [fieldsOf_eq_ok_iff]
    | error e => simp

/-- The search between braces fails for depth if what stands there is too deep. -/
theorem bracedObject_eq_tooDeep_iff {k : Json.Container} :
    bracedObject content depth = .error (.tooDeep k) ↔
      ∃ part, braced? content = some part ∧ Json.TooDeep depth part k := by
  unfold bracedObject
  cases braced? content with
  | none => simp
  | some part =>
    simp only [Option.some.injEq, exists_eq_left', ← Json.read_eq_tooDeep_iff]
    cases Json.read part depth with
    | ok v => simp [fieldsOf_ne_tooDeep]
    | error e => cases e <;> simp [Chat.Failure.ofReadError]

/-- A text without an object is malformed, unless it is too deep. -/
theorem bracedObject_cases (content : List Char) (depth : Nat) :
    (∃ fields, bracedObject content depth = .ok fields) ∨
      (∃ message, bracedObject content depth = .error (.call (.malformed message))) ∨
      ∃ container, bracedObject content depth = .error (.tooDeep container) := by
  unfold bracedObject
  split
  · exact .inr (.inl ⟨_, rfl⟩)
  · split
    · rename_i document _
      exact (fieldsOf_cases document).imp_right .inl
    · rename_i e _
      cases e with
      | tooDeep container => exact .inr (.inr ⟨container, rfl⟩)
      | malformed position => exact .inr (.inl ⟨_, rfl⟩)
      | integerTooLong => exact .inr (.inl ⟨_, rfl⟩)

/-- The object that is found in an answer is the one that the answer holds. -/
theorem objectIn_eq_ok_iff : objectIn text depth = .ok fields ↔ Holds depth text fields := by
  rw [Holds, ← bracedObject_eq_ok_iff]
  simp only [Searched, ← Json.read_eq_ok_iff, ← Json.read_eq_tooDeep_iff, objectIn]
  cases Json.read (Fence.unwrapChars text.toList) depth with
  | ok v => simp [fieldsOf_eq_ok_iff]
  | error e => cases e <;> simp

/-- The search for an object fails for depth if and only if the answer is too deep. -/
theorem objectIn_eq_tooDeep_iff :
    (∃ container, objectIn text depth = .error (.tooDeep container)) ↔ TooDeep depth text := by
  simp only [TooDeep, ← bracedObject_eq_tooDeep_iff]
  simp only [Searched, ← Json.read_eq_ok_iff, ← Json.read_eq_tooDeep_iff, objectIn]
  cases Json.read (Fence.unwrapChars text.toList) depth with
  | ok v => simp [fieldsOf_ne_tooDeep]
  | error e => cases e <;> simp

/-- An answer that holds no object is malformed, unless it is too deep. -/
theorem objectIn_cases (text : String) (depth : Nat) :
    (∃ fields, objectIn text depth = .ok fields) ∨
      (∃ message, objectIn text depth = .error (.call (.malformed message))) ∨
      ∃ container, objectIn text depth = .error (.tooDeep container) := by
  unfold objectIn
  simp only
  split
  · rename_i document _
    exact (fieldsOf_cases document).imp_right .inl
  · exact .inr (.inr ⟨_, rfl⟩)
  · exact bracedObject_cases _ _

/-! ## The outcome -/

/-- The answer holds an object with a score that is no number. -/
def HasScoreNotANumber (depth : Nat) (text : String) : Prop :=
  ∃ fields, Holds depth text fields ∧ ScoreNotANumber fields

/-- An answer is settled, or else it fails for one of the two exceptions. -/
theorem readAnswer_cases (text : String) (depth : Nat) :
    (¬ TooDeep depth text ∧ ¬ HasScoreNotANumber depth text ∧ Settled (readAnswer text depth)) ∨
      (TooDeep depth text ∧ ∃ container, readAnswer text depth = .error (.tooDeep container)) ∨
      (HasScoreNotANumber depth text ∧ readAnswer text depth = .error .scoreNotANumber) := by
  simp only [HasScoreNotANumber, ← objectIn_eq_ok_iff, ← objectIn_eq_tooDeep_iff, readAnswer]
  rcases objectIn_cases text depth with
    ⟨fields, found⟩ | ⟨message, malformed⟩ | ⟨container, tooDeep⟩
  · rw [found]
    rcases ofFields_cases fields with ⟨numbers, a, read, sound⟩ | ⟨notANumber, refused⟩
    · exact .inl ⟨by simp, by simpa using numbers, .inl ⟨a, read, sound⟩⟩
    · exact .inr (.inr ⟨⟨fields, rfl, notANumber⟩, refused⟩)
  · rw [malformed]
    exact .inl ⟨by simp, by simp, .inr ⟨message, rfl⟩⟩
  · rw [tooDeep]
    exact .inr (.inl ⟨⟨container, rfl⟩, container, rfl⟩)

/-- A text read as an answer is settled, the two exceptions apart. -/
theorem settled_readAnswer_iff (text : String) (depth : Nat) :
    Settled (readAnswer text depth) ↔ ¬ TooDeep depth text ∧ ¬ HasScoreNotANumber depth text := by
  rcases readAnswer_cases text depth with
    ⟨shallow, numbers, settled⟩ | ⟨tooDeep, container, refused⟩ | ⟨notANumber, refused⟩
  · exact iff_of_true settled ⟨shallow, numbers⟩
  · exact iff_of_false (by simp [Settled, refused]) fun h => h.1 tooDeep
  · exact iff_of_false (by simp [Settled, refused]) fun h => h.2 notANumber

/-- An answer is settled, read as such or as the answer of a model that was asked, if and only if it
is not too deep and has no score that is no number. -/
theorem settled_answer_iff (text : String) (depth : Nat) :
    (Settled (readAnswer text depth) ↔
        ¬ TooDeep depth text ∧ ¬ HasScoreNotANumber depth text) ∧
      ∀ (g : Graph) (prompt : Option String) (o : Prompt.Options),
        Settled ((askAbout g prompt o depth).settle (.ok text)) ↔
          ¬ TooDeep depth text ∧ ¬ HasScoreNotANumber depth text :=
  ⟨settled_readAnswer_iff text depth, fun _ _ _ => settled_readAnswer_iff text depth⟩

/-- The clarity is given by the name of the value that is no number. -/
theorem readAnswer_notANumber :
    readAnswer "\x7b\"clarityScore\": NaN\x7d" = .error .scoreNotANumber := by
  decide +kernel

end Flowchart.Review
