import Flowchart.Proofs.Review.Kept

/-!
# Assessments read from their own fields

The document of an assessment spells each of its fields in one of the two ways in which an answer
may spell it, and no field is left out. Read as an answer it gives the same assessment again: texts
stay even if they are empty, an absent text stays absent, and every suggestion has the title that it
needs to be kept. So reading an answer comes to the assessments that are sound and to no others, and
reading the outcome again changes nothing.
-/

set_option autoImplicit false

namespace Flowchart.Review

/-! ## Suggestions -/

/-- The names of roles are plain. -/
theorem plainName_name (role : StepRole) : plainName role.name = role.name := by
  cases role <;> decide

/-- A step is written as an object whose fields it fits. -/
theorem SuggestedStep.exists_toJson_eq (step : SuggestedStep) :
    ∃ fields, step.toJson = .object fields ∧ step.Fits fields :=
  ⟨_, rfl, ⟨_, by rfl, plainName_name _⟩, by rfl, .inl (by rfl), .inl (by rfl)⟩

/-- A node under the second name counts if there is none under the first. -/
theorem isNode_of_get? {fields : Json.Fields} {node value : Json}
    (other : fields.get? "suggestedNode" = none)
    (found : fields.get? "suggested_node" = some node) : IsNode fields value ↔ value = node := by
  rw [isNode_iff, given?_eq_none_iff.2 (by simp [other]), Option.none_or, found, Option.some.injEq,
    eq_comm]

/-- The document of a suggestion tells what the suggestion holds. An absent step is null in it, and
null is no step. -/
theorem Suggestion.exists_toJson_eq {s : Suggestion} (titled : isTitle s.title) :
    ∃ fields, s.toJson = .object fields ∧ s.Fits fields := by
  have shown : ∃ c ∈ s.title.toList, Text.isBlank c = false :=
    Text.trimmed_ne_empty_iff.1 (by rw [titled.1]; exact titled.2)
  refine ⟨_, rfl, by rfl, by rfl, ⟨s.title, by rfl, shown, titled.1.symm⟩, .inl (by rfl), ?_⟩
  cases s.step with
  | none =>
    refine .inr ⟨fun own isStep => ?_, rfl⟩
    cases (isNode_of_get? (by rfl) (by rfl)).1 isStep
  | some step =>
    obtain ⟨own, whole, fits⟩ := step.exists_toJson_eq
    exact .inl ⟨own, step, (isNode_of_get? (by rfl) (by rfl)).2 whole.symm, rfl, fits⟩

/-- A suggestion with a title is read as it was written. -/
theorem Suggestion.ofJson?_toJson {s : Suggestion} (titled : isTitle s.title) :
    Suggestion.ofJson? s.toJson = some s := by
  obtain ⟨fields, whole, fits⟩ := Suggestion.exists_toJson_eq titled
  rw [whole, Suggestion.ofJson?_object_eq_some_iff]
  exact fits

/-- No suggestion of an assessment is left out or changed. -/
theorem suggestionsIn_toJson {suggestions : List Suggestion}
    (titled : ∀ s ∈ suggestions, isTitle s.title) :
    suggestionsIn (some (.array (suggestions.map Suggestion.toJson))) = suggestions := by
  have read : suggestions.filterMap (Suggestion.ofJson? ∘ Suggestion.toJson) =
      suggestions.filterMap some :=
    List.filterMap_congr fun s mem => Suggestion.ofJson?_toJson (titled s mem)
  rw [suggestionsIn, List.filterMap_map, read, List.filterMap_some]

/-! ## Remarks, texts and scores -/

/-- Remarks are read as they were written. -/
theorem remarksIn_ofStrings (texts : List String) :
    remarksIn (some (Json.ofStrings texts)) = texts := by
  have read : (remark? ∘ Json.string) = some := rfl
  rw [Json.ofStrings, remarksIn, List.filterMap_map, read, List.filterMap_some]

/-- A text that may be absent is read as it was written. -/
theorem text?_ofOption (text : Option String) : text? (some (Json.ofOption text)) = text := by
  cases text <;> rfl

/-- A score in its range is read as it was written. -/
theorem score_int {points : Nat} (inRange : points ≤ 100) :
    score (some (.int points)) = .ok points := by
  rw [score, Int.toNat_natCast, Nat.min_eq_left inRange]

/-- A truth value is read as it was written. -/
theorem not_isFalse_bool (truth : Bool) : (!isFalse (some (.bool truth))) = truth := by
  cases truth <;> rfl

/-! ## Assessments -/

/-- A sound assessment is read from its own fields. -/
theorem Assessment.Sound.ofFields_fields {a : Assessment} (sound : a.Sound) :
    Assessment.ofFields a.fields = .ok a := by
  -- Every field is found, either under its first spelling or under the second.
  have found : Assessment.ofFields a.fields = (do
      let completeness ← score (some (.int a.completeness))
      let clarity ← score (some (.int a.clarity))
      return {
        analyzable := !isFalse (some (.bool a.analyzable))
        reason := text? (some (Json.ofOption a.reason))
        completeness
        clarity
        strengths := remarksIn (some (Json.ofStrings a.strengths))
        weaknesses := remarksIn (some (Json.ofStrings a.weaknesses))
        suggestions := suggestionsIn (some (.array (a.suggestions.map Suggestion.toJson)))
        improvedPrompt := text? (some (Json.ofOption a.improvedPrompt)) }) := by rfl
  rw [found, score_int sound.completeness, score_int sound.clarity, not_isFalse_bool,
    text?_ofOption, text?_ofOption, remarksIn_ofStrings, remarksIn_ofStrings,
    suggestionsIn_toJson sound.titled]
  rfl

/-- An assessment that was read is sound. -/
theorem Assessment.sound_of_ofFields {fields : Json.Fields} {a : Assessment}
    (read : Assessment.ofFields fields = .ok a) : a.Sound := by
  rcases ofFields_cases fields with ⟨-, b, same, sound⟩ | ⟨-, refused⟩
  · cases read.symm.trans same
    exact sound
  · cases read.symm.trans refused

/-- An assessment is read from its own fields, unchanged, exactly if it is sound, and the sound ones
are those that are read from any fields. -/
theorem ofFields_fields_iff (a : Assessment) :
    (Assessment.ofFields a.fields = .ok a ↔ a.Sound) ∧
      (a.Sound ↔ ∃ fields, Assessment.ofFields fields = .ok a) := by
  refine ⟨⟨Assessment.sound_of_ofFields, Assessment.Sound.ofFields_fields⟩, ?_, ?_⟩
  · intro sound
    exact ⟨a.fields, sound.ofFields_fields⟩
  · rintro ⟨fields, read⟩
    exact Assessment.sound_of_ofFields read

end Flowchart.Review
