import Flowchart.Proofs.Review.Answer

/-!
# Suggestions that are kept

Of the values in a list of suggestions, those that are complete are kept, each for itself and in
their order, and nothing else is. A value is complete if it is an object with a topic, a priority
and a title, with a text for a description unless none is given, and with a step that is complete as
well unless it has no step at all. A step is looked for under two spellings. The first one hides the
second as soon as it counts as given, even where it is no step.
-/

set_option autoImplicit false

namespace Flowchart.Review

open Json.Fields (get?)

/-! ## Complete values -/

/-- The fields describe a step. -/
structure StepComplete (fields : Json.Fields) : Prop where
  role : ∃ name, get? fields "role" = some (.string name) ∧
    ∃ role : StepRole, plainName name = role.name
  title : ∃ title, get? fields "title" = some (.string title)
  description : ∀ value, get? fields "description" = some value → ∃ text, value = .string text
  condition : ∀ value, get? fields "condition" = some value →
    value = .null ∨ ∃ text, value = .string text

/-- The value is what a suggestion has for a step, under one of two spellings. -/
def IsNode (fields : Json.Fields) (node : Json) : Prop :=
  (get? fields "suggestedNode" = some node ∧ node.isGiven = true) ∨
    (∀ other, get? fields "suggestedNode" = some other → other.isGiven = false) ∧
      get? fields "suggested_node" = some node

/-- The fields describe a suggestion. -/
structure Complete (fields : Json.Fields) : Prop where
  topic : ∃ topic : Topic, get? fields "type" = some (.string topic.name)
  priority : ∃ priority : Priority, get? fields "priority" = some (.string priority.name)
  title : ∃ title, get? fields "title" = some (.string title) ∧
    ∃ c ∈ title.toList, Text.isBlank c = false
  description : ∀ value, get? fields "description" = some value →
    value.isGiven = false ∨ ∃ text, value = .string text
  step : ∀ step, IsNode fields (.object step) → StepComplete step

/-! ## What is kept of them -/

/-- The step holds what the fields tell. -/
structure SuggestedStep.Fits (step : SuggestedStep) (fields : Json.Fields) : Prop where
  role : ∃ name, get? fields "role" = some (.string name) ∧ plainName name = step.role.name
  title : get? fields "title" = some (.string step.title)
  description : get? fields "description" = some (.string step.description) ∨
    get? fields "description" = none ∧ step.description = ""
  condition : get? fields "condition" = some (Json.ofOption step.condition) ∨
    get? fields "condition" = none ∧ step.condition = none

/-- The suggestion holds what the fields tell. -/
structure Suggestion.Fits (s : Suggestion) (fields : Json.Fields) : Prop where
  topic : get? fields "type" = some (.string s.topic.name)
  priority : get? fields "priority" = some (.string s.priority.name)
  title : ∃ title, get? fields "title" = some (.string title) ∧
    (∃ c ∈ title.toList, Text.isBlank c = false) ∧ s.title = Text.trimmed title
  description : get? fields "description" = some (.string s.description) ∨
    (∀ value, get? fields "description" = some value → value.isGiven = false) ∧ s.description = ""
  step : (∃ own step, IsNode fields (.object own) ∧ s.step = some step ∧ step.Fits own) ∨
    (∀ own, ¬ IsNode fields (.object own)) ∧ s.step = none

/-- The suggestions are kept of the values, one of each that is complete. -/
inductive Kept : List Json → List Suggestion → Prop
  | nil : Kept [] []
  | keep {fields : Json.Fields} {s : Suggestion} {items : List Json} {kept : List Suggestion}
      (complete : Complete fields) (fits : s.Fits fields) (rest : Kept items kept) :
      Kept (.object fields :: items) (s :: kept)
  | skip {item : Json} {items : List Json} {kept : List Suggestion}
      (incomplete : ∀ fields, item = .object fields → ¬ Complete fields)
      (rest : Kept items kept) : Kept (item :: items) kept

/-! ## Fields one by one -/

variable {fields : Json.Fields} {key : String}

/-- What is found by its name has that name. -/
theorem eq_name_of_find? {α : Type} {name : α → String} {all : List α} {text : String} {a : α}
    (found : (all.find? fun a => name a == text) = some a) : text = name a :=
  (eq_of_beq (List.find?_some (p := fun a => name a == text) found)).symm

/-- A topic is known by its name. -/
theorem Topic.ofName?_eq_some_iff {name : String} {topic : Topic} :
    Topic.ofName? name = some topic ↔ name = topic.name := by
  refine ⟨eq_name_of_find?, ?_⟩
  rintro rfl
  cases topic <;> decide

/-- A priority is known by its name. -/
theorem Priority.ofName?_eq_some_iff {name : String} {priority : Priority} :
    Priority.ofName? name = some priority ↔ name = priority.name := by
  refine ⟨eq_name_of_find?, ?_⟩
  rintro rfl
  cases priority <;> decide

/-- A role is known by its name. -/
theorem StepRole.ofName?_eq_some_iff {name : String} {role : StepRole} :
    StepRole.ofName? name = some role ↔ name = role.name := by
  refine ⟨eq_name_of_find?, ?_⟩
  rintro rfl
  cases role <;> decide

/-- A field has a text if its value is one. -/
theorem text?_eq_some_iff {text : String} :
    text? (get? fields key) = some text ↔ get? fields key = some (.string text) := by
  simp [text?, Option.bind_eq_some_iff, Json.string?_eq_some_iff]

/-- A text that may be absent is the text of the field, or what stands for it where there is no
field. -/
theorem optionalText_eq_some_iff {default text : String} :
    optionalText fields key default = some text ↔
      get? fields key = some (.string text) ∨ get? fields key = none ∧ text = default := by
  unfold optionalText
  split
  · rename_i absent
    simp [absent, eq_comm]
  · rename_i value found
    simp [found, Json.string?_eq_some_iff]

/-- A text that may be null is what the field has, or none where there is no field. -/
theorem nullableText_eq_some_iff {text : Option String} :
    nullableText fields key = some text ↔
      get? fields key = some (Json.ofOption text) ∨ get? fields key = none ∧ text = none := by
  unfold nullableText
  split
  · rename_i absent
    cases text <;> simp [absent]
  · rename_i found
    cases text <;> simp [found, Json.ofOption]
  · rename_i s found
    cases text <;> simp [found, Json.ofOption]
  · rename_i value notNull notString found
    have notNull : value ≠ .null := notNull
    have notString : ∀ s, value ≠ .string s := notString
    cases text <;> simp [found, Json.ofOption, notNull, notString]

/-- Nothing is given if the field is absent or its value does not count. -/
theorem given?_eq_none_iff : given? fields key = none ↔
    ∀ value, get? fields key = some value → value.isGiven = false := by
  simp [given?, Option.filter_eq_none_iff]

/-- What is given is a value of the field that counts. -/
theorem given?_eq_some_iff {value : Json} : given? fields key = some value ↔
    get? fields key = some value ∧ value.isGiven = true := by
  simp [given?, Option.filter_eq_some_iff]

/-- A description is the text of its field, or empty where nothing is given. -/
theorem description?_eq_some_iff {text : String} : description? fields = some text ↔
    get? fields "description" = some (.string text) ∨
      (∀ value, get? fields "description" = some value → value.isGiven = false) ∧ text = "" := by
  unfold description?
  split
  · rename_i absent
    have notGiven := given?_eq_none_iff.1 absent
    constructor
    · rintro ⟨⟩
      exact .inr ⟨notGiven, rfl⟩
    · rintro (found | ⟨-, rfl⟩)
      · have empty : text = "" := by simpa [Json.isGiven] using notGiven _ found
        rw [empty]
      · rfl
  · rename_i value given
    obtain ⟨found, isGiven⟩ := given?_eq_some_iff.1 given
    simp [found, isGiven, Json.string?_eq_some_iff]

/-- A title is a text that is not blank, without the blanks around it. -/
theorem title?_eq_some_iff {s title : String} : title? s = some title ↔
    (∃ c ∈ s.toList, Text.isBlank c = false) ∧ title = Text.trimmed s := by
  rw [title?, Option.filter_eq_some_iff, ← Text.trimmed_ne_empty_iff]
  simp only [Option.some.injEq, bne_iff_ne]
  constructor
  · rintro ⟨rfl, shown⟩
    exact ⟨shown, rfl⟩
  · rintro ⟨shown, rfl⟩
    exact ⟨rfl, shown⟩

/-! ## Steps -/

/-- A step is described by fields that it fits. -/
theorem SuggestedStep.ofFields?_eq_some_iff {step : SuggestedStep} :
    SuggestedStep.ofFields? fields = some step ↔ step.Fits fields := by
  simp only [SuggestedStep.ofFields?, Option.bind_eq_bind, Option.bind_eq_some_iff,
    text?_eq_some_iff, StepRole.ofName?_eq_some_iff, optionalText_eq_some_iff,
    nullableText_eq_some_iff, Option.some.injEq]
  constructor
  · rintro ⟨name, named, role, isRole, title, titled, description, described, condition,
      conditioned, rfl⟩
    exact ⟨⟨name, named, isRole⟩, titled, described, conditioned⟩
  · rintro ⟨⟨name, named, isRole⟩, titled, described, conditioned⟩
    exact ⟨name, named, _, isRole, _, titled, _, described, _, conditioned, rfl⟩

/-- Every value of a field tells something, if only the default, exactly if it is of the right kind
or ignored. -/
theorem exists_told_iff {α : Type} (toJson : α → Json) (default : α) (ignored : Json → Prop)
    (value : Option Json) :
    (∃ a, value = some (toJson a) ∨ (∀ v, value = some v → ignored v) ∧ a = default) ↔
      ∀ v, value = some v → ignored v ∨ ∃ a, v = toJson a := by
  cases value with
  | none => simp
  | some v => simp [exists_or, or_comm]

/-- Some value is read from a field, or stands for an absent one, exactly if the field has no value
of another kind. -/
theorem exists_optional_iff {α : Type} (toJson : α → Json) (default : α) {value : Option Json} :
    (∃ a, value = some (toJson a) ∨ value = none ∧ a = default) ↔
      ∀ v, value = some v → ∃ a, v = toJson a := by
  have told := exists_told_iff toJson default (fun _ => False) value
  simpa [Option.eq_none_iff_forall_ne_some] using told

/-- Null and texts are the values of a text that may be absent. -/
theorem exists_ofOption_iff {value : Json} :
    (∃ text, value = Json.ofOption text) ↔ value = .null ∨ ∃ text, value = .string text :=
  Option.exists

/-- Fields describe a step if and only if some step holds what they tell. -/
theorem stepComplete_iff : StepComplete fields ↔ ∃ step : SuggestedStep, step.Fits fields := by
  constructor
  · rintro ⟨⟨name, named, role, isRole⟩, ⟨title, titled⟩, texts, textsOrNull⟩
    obtain ⟨description, described⟩ := (exists_optional_iff .string "").2 texts
    simp only [← exists_ofOption_iff] at textsOrNull
    obtain ⟨condition, conditioned⟩ := (exists_optional_iff Json.ofOption none).2 textsOrNull
    exact ⟨⟨role, title, description, condition⟩, ⟨name, named, isRole⟩, titled, described,
      conditioned⟩
  · rintro ⟨step, ⟨name, named, isRole⟩, titled, described, conditioned⟩
    have textsOrNull := (exists_optional_iff Json.ofOption none).1 ⟨_, conditioned⟩
    simp only [exists_ofOption_iff] at textsOrNull
    exact ⟨⟨name, named, _, isRole⟩, ⟨_, titled⟩,
      (exists_optional_iff .string "").1 ⟨_, described⟩, textsOrNull⟩

/-- The node of a suggestion is what is found under its two names, the first one first. -/
theorem isNode_iff {node : Json} : IsNode fields node ↔
    (given? fields "suggestedNode").or (get? fields "suggested_node") = some node := by
  rw [Option.or_eq_some_iff, given?_eq_some_iff, given?_eq_none_iff]
  rfl

/-- A value has at most one step. -/
theorem IsNode.unique {node other : Json} (h : IsNode fields node) (h' : IsNode fields other) :
    node = other := by
  rw [isNode_iff] at h h'
  exact Option.some.inj (h.symm.trans h')

/-- A suggestion has the step that its node describes, and none if its node is no object. -/
theorem stepIn?_eq_some_iff {step : Option SuggestedStep} : stepIn? fields = some step ↔
    (∃ own found, IsNode fields (.object own) ∧ step = some found ∧ found.Fits own) ∨
      (∀ own, ¬ IsNode fields (.object own)) ∧ step = none := by
  simp only [isNode_iff, ← SuggestedStep.ofFields?_eq_some_iff]
  unfold stepIn?
  split
  · rename_i own isStep
    simp only [isStep, Option.map_eq_some_iff, Option.some.injEq, Json.object.injEq]
    constructor
    · rintro ⟨found, read, rfl⟩
      exact .inl ⟨own, found, rfl, rfl, read⟩
    · rintro (⟨_, found, rfl, rfl, read⟩ | ⟨noStep, -⟩)
      · exact ⟨found, read, rfl⟩
      · exact absurd rfl (noStep own)
  · rename_i noStep
    have noStep : ∀ own,
        (given? fields "suggestedNode").or (get? fields "suggested_node") ≠ some (.object own) :=
      noStep
    simp [noStep, eq_comm]

/-! ## Suggestions -/

/-- A suggestion is described by fields that it fits. -/
theorem Suggestion.ofJson?_object_eq_some_iff {s : Suggestion} :
    Suggestion.ofJson? (.object fields) = some s ↔ s.Fits fields := by
  simp only [Suggestion.ofJson?, Option.bind_eq_bind, Option.bind_eq_some_iff,
    Json.fields?_eq_some_iff, Json.object.injEq, exists_eq_left', text?_eq_some_iff,
    Topic.ofName?_eq_some_iff, Priority.ofName?_eq_some_iff, title?_eq_some_iff,
    description?_eq_some_iff, stepIn?_eq_some_iff, Option.some.injEq]
  constructor
  · rintro ⟨_, typed, topic, rfl, _, urgent, priority, rfl, text, titled, title, ⟨shown, isTitle⟩,
      description, described, step, hasStep, rfl⟩
    exact ⟨typed, urgent, ⟨text, titled, shown, isTitle⟩, described, hasStep⟩
  · rintro ⟨typed, urgent, ⟨text, titled, shown, isTitle⟩, described, hasStep⟩
    exact ⟨_, typed, _, rfl, _, urgent, _, rfl, text, titled, _, ⟨shown, isTitle⟩, _, described, _,
      hasStep, rfl⟩

/-- There is a step to be read exactly if every node that is an object is complete. -/
theorem exists_step_iff :
    (∃ step : Option SuggestedStep,
      (∃ own found, IsNode fields (.object own) ∧ step = some found ∧ found.Fits own) ∨
        (∀ own, ¬ IsNode fields (.object own)) ∧ step = none) ↔
      ∀ own, IsNode fields (.object own) → StepComplete own := by
  constructor
  · rintro ⟨step, ⟨other, found, isStep, -, fits⟩ | ⟨noStep, -⟩⟩ own isStepToo
    · cases isStep.unique isStepToo
      exact stepComplete_iff.2 ⟨found, fits⟩
    · exact absurd isStepToo (noStep own)
  · intro steps
    by_cases isStep : ∃ own, IsNode fields (.object own)
    · obtain ⟨own, isStep⟩ := isStep
      obtain ⟨found, fits⟩ := stepComplete_iff.1 (steps own isStep)
      exact ⟨some found, .inl ⟨own, found, isStep, rfl, fits⟩⟩
    · exact ⟨none, .inr ⟨not_exists.1 isStep, rfl⟩⟩

/-- Fields describe a suggestion if and only if some suggestion holds what they tell. -/
theorem complete_iff : Complete fields ↔ ∃ s : Suggestion, s.Fits fields := by
  constructor
  · rintro ⟨⟨topic, typed⟩, ⟨priority, urgent⟩, ⟨title, titled, shown⟩, texts, steps⟩
    obtain ⟨description, described⟩ := (exists_told_iff .string "" _ _).2 texts
    obtain ⟨step, hasStep⟩ := exists_step_iff.2 steps
    exact ⟨⟨topic, priority, Text.trimmed title, description, step⟩, typed, urgent,
      ⟨title, titled, shown, rfl⟩, described, hasStep⟩
  · rintro ⟨s, typed, urgent, ⟨title, titled, shown, -⟩, described, hasStep⟩
    exact ⟨⟨_, typed⟩, ⟨_, urgent⟩, ⟨title, titled, shown⟩,
      (exists_told_iff .string "" _ _).1 ⟨_, described⟩, exists_step_iff.1 ⟨_, hasStep⟩⟩

/-- A suggestion comes from an object that is complete, and fits its fields. -/
theorem Suggestion.exists_of_ofJson? {item : Json} {s : Suggestion}
    (read : Suggestion.ofJson? item = some s) :
    ∃ fields, item = .object fields ∧ Complete fields ∧ s.Fits fields := by
  cases item with
  | object fields =>
    have fits := Suggestion.ofJson?_object_eq_some_iff.1 read
    exact ⟨fields, rfl, complete_iff.2 ⟨s, fits⟩, fits⟩
  | _ => cases read

/-- An item is left out exactly if it is no object or is not complete. -/
theorem Suggestion.ofJson?_eq_none_iff {item : Json} :
    Suggestion.ofJson? item = none ↔ ∀ fields, item = .object fields → ¬ Complete fields := by
  rw [Option.eq_none_iff_forall_ne_some]
  constructor
  · rintro unread fields rfl complete
    obtain ⟨s, fits⟩ := complete_iff.1 complete
    exact unread s (Suggestion.ofJson?_object_eq_some_iff.2 fits)
  · intro incomplete s read
    obtain ⟨fields, isObject, complete, -⟩ := Suggestion.exists_of_ofJson? read
    exact incomplete fields isObject complete

/-! ## Lists of suggestions -/

/-- Reading the items one by one keeps what is to be kept. -/
theorem kept_filterMap (items : List Json) : Kept items (items.filterMap Suggestion.ofJson?) := by
  induction items with
  | nil => exact .nil
  | cons item items ih =>
    cases read : Suggestion.ofJson? item with
    | none =>
      rw [List.filterMap_cons_none read]
      exact .skip (Suggestion.ofJson?_eq_none_iff.1 read) ih
    | some s =>
      obtain ⟨fields, rfl, complete, fits⟩ := Suggestion.exists_of_ofJson? read
      rw [List.filterMap_cons_some read]
      exact .keep complete fits ih

/-- Nothing else could be kept. -/
theorem Kept.eq_filterMap {items : List Json} {kept : List Suggestion} (h : Kept items kept) :
    kept = items.filterMap Suggestion.ofJson? := by
  induction h with
  | nil => rfl
  | keep _ fits _ ih =>
    rw [List.filterMap_cons_some (Suggestion.ofJson?_object_eq_some_iff.2 fits), ih]
  | skip incomplete _ ih =>
    rw [List.filterMap_cons_none (Suggestion.ofJson?_eq_none_iff.2 incomplete), ih]

/-- The suggestions in a list are those that are kept of its items: of every item that is complete
the one that holds what it tells, in the order of the items. -/
theorem kept_iff (items : List Json) (kept : List Suggestion) :
    Kept items kept ↔ suggestionsIn (some (.array items)) = kept := by
  constructor
  · exact fun h => h.eq_filterMap.symm
  · rintro rfl
    exact kept_filterMap items

end Flowchart.Review
