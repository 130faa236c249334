import Flowchart.Proofs.Json.Reading

/-!
# Documents that are too deep

Reading gives up where a container opens inside as many others as it accepts, and only there. Up to
that point the text is spelled as a document is; what follows it is never looked at. So a text that
has no more opening brackets than the reader accepts containers is never too deep, and arrays that
stand inside each other are, as soon as there is one more of them.
-/

set_option autoImplicit false

namespace Flowchart.Json

/-- The character that opens a container. -/
def Container.bracket : Container → Char
  | array => '['
  | object => '\x7b'

/-- What is being read where reading goes deeper: a value, the items of an array, or the fields of
an object. -/
inductive Stage where
  | value
  | items
  | fields

/-- The texts that are spelled as documents are up to a container that opens inside `depth` others.
Nothing is said about the text behind its bracket. -/
inductive Sinks (k : Container) : Nat → Stage → List Char → Prop
  | opens {rest : List Char} : Sinks k 0 .value (k.bracket :: rest)
  | inArray {depth : Nat} {space text : List Char} (blank : AllSpace space)
      (inner : Sinks k depth .items text) : Sinks k (depth + 1) .value ('[' :: (space ++ text))
  | inObject {depth : Nat} {space text : List Char} (blank : AllSpace space)
      (inner : Sinks k depth .fields text) : Sinks k (depth + 1) .value ('\x7b' :: (space ++ text))
  | inItem {depth : Nat} {text : List Char} (inner : Sinks k depth .value text) :
      Sinks k depth .items text
  | behindItem {depth : Nat} {text space between more : List Char} {v : Json}
      (item : Spells depth (.value v) text) (blank : AllSpace space) (blankToo : AllSpace between)
      (inner : Sinks k depth .items more) :
      Sinks k depth .items (text ++ (space ++ ',' :: (between ++ more)))
  | inField {depth : Nat} {quoted key space between text : List Char} (isKey : Quoted quoted key)
      (blank : AllSpace space) (blankToo : AllSpace between) (inner : Sinks k depth .value text) :
      Sinks k depth .fields ('\x22' :: (quoted ++ (space ++ ':' :: (between ++ text))))
  | behindField {depth : Nat} {text space between more : List Char} {key : String} {v : Json}
      (field : Spells depth (.field key v) text) (blank : AllSpace space)
      (blankToo : AllSpace between) (inner : Sinks k depth .fields more) :
      Sinks k depth .fields (text ++ (space ++ ',' :: (between ++ more)))

/-- Behind white space, the text is spelled as a document is up to a container that opens inside
`depth` others. -/
def TooDeep (depth : Nat) (text : List Char) (k : Container) : Prop :=
  ∃ space inner, text = space ++ inner ∧ AllSpace space ∧ Sinks k depth .value inner

variable {k : Container} {depth : Nat} {stage : Stage} {text : List Char}

/-- A text that sinks begins as a phrase does. -/
theorem Sinks.exists_opens (h : Sinks k depth stage text) :
    ∃ c rest, text = c :: rest ∧ Opens c := by
  have opens {c : Char} (known : c ∈ ['\x22', '[', '\x7b']) : Opens c := by
    simp only [List.mem_cons, List.not_mem_nil, or_false] at known
    rcases known with rfl | rfl | rfl <;> exact ⟨by decide, by decide, by decide, by decide⟩
  induction h with
  | opens => cases k <;> exact ⟨_, _, rfl, opens (by decide)⟩
  | inArray | inObject | inField => exact ⟨_, _, rfl, opens (by decide)⟩
  | inItem _ ih => exact ih
  | behindItem item =>
    obtain ⟨c, rest, rfl, isOpening⟩ := item.exists_opens
    exact ⟨c, _, rfl, isOpening⟩
  | behindField field =>
    obtain ⟨c, rest, rfl, isOpening⟩ := field.exists_opens
    exact ⟨c, _, rfl, isOpening⟩

/-- How many containers open in a text, as far as brackets tell. -/
def openings (cs : List Char) : Nat := cs.countP fun c => c == '[' || c == '\x7b'

/-- The rest of a text has no more opening brackets than the text. -/
theorem openings_le {cs ds : List Char} (h : cs <:+ ds) : openings cs ≤ openings ds :=
  h.sublist.countP_le

/-- An opening bracket in front is one more. -/
theorem openings_cons {c : Char} (opens : c = '[' ∨ c = '\x7b') (cs : List Char) :
    openings (c :: cs) = openings cs + 1 :=
  List.countP_cons_of_pos (by simpa using opens)

/-- A text that is too deep has more opening brackets than the reader accepts containers. -/
theorem Sinks.depth_lt_openings (h : Sinks k depth stage text) : depth < openings text := by
  induction h with
  | opens =>
    rw [openings_cons (by cases k <;> simp [Container.bracket])]
    exact Nat.succ_pos _
  | @inArray _ space text _ _ ih | @inObject _ space text _ _ ih =>
    have inside := openings_le (List.suffix_append space text)
    rw [openings_cons (by simp)]
    omega
  | inItem _ ih => exact ih
  | @behindItem _ text space between more _ _ _ _ _ ih
  | @behindField _ text space between more _ _ _ _ _ _ ih =>
    have behind : more <:+ text ++ (space ++ ',' :: (between ++ more)) :=
      ⟨text ++ (space ++ ',' :: between), by simp⟩
    exact ih.trans_le (openings_le behind)
  | @inField _ quoted _ space between text _ _ _ _ ih =>
    have behind : text <:+ '\x22' :: (quoted ++ (space ++ ':' :: (between ++ text))) :=
      ⟨'\x22' :: (quoted ++ (space ++ ':' :: between)), by simp⟩
    exact ih.trans_le (openings_le behind)

/-- A text with no more opening brackets than containers are accepted is not too deep. -/
theorem not_tooDeep_of_openings_le (few : openings text ≤ depth) : ¬ TooDeep depth text k := by
  rintro ⟨space, inner, rfl, -, sinks⟩
  have inside := openings_le (List.suffix_append space inner)
  have deep := sinks.depth_lt_openings
  omega

/-- Arrays inside each other, one more than are accepted. -/
theorem sinks_brackets (depth extra : Nat) (rest : List Char) :
    Sinks .array depth .value (List.replicate (depth + extra + 1) '[' ++ rest) := by
  induction depth with
  | zero => exact .opens
  | succ depth ih =>
    have more : depth + 1 + extra + 1 = depth + extra + 1 + 1 := by omega
    have opened := Sinks.inArray (List.forall_mem_nil _ : AllSpace []) (.inItem ih)
    rw [more, List.replicate_succ]
    exact opened

namespace Reader

/-! ## Where readers fail for depth -/

variable {cs : List Char}

/-- Two steps of reading fail if the first one does, or if the second one does after it. -/
theorem bind_eq_error_iff {α β : Type} {x : Except Failure β} {f : β → Except Failure α}
    {failure : Failure} :
    x >>= f = .error failure ↔ x = .error failure ∨ ∃ b, x = .ok b ∧ f b = .error failure := by
  cases x with
  | error e => simp [bind, Except.bind]
  | ok b => simp [bind, Except.bind]

/-- Codes hold no containers. -/
theorem codeEscape_ne_tooDeep : codeEscape cs ≠ .error (.tooDeep k) := by
  unfold codeEscape
  split
  · simp
  · simp only
    split
    · split
      · split
        · simp
        · split <;> simp
      · simp
    · simp

/-- Nor do the pieces of strings. -/
theorem piece_ne_tooDeep {opened : List Char} : piece opened cs ≠ .error (.tooDeep k) := by
  unfold piece
  split
  · simp
  · simp
  · simp
  · rename_i after
    cases found : codeEscape after with
    | error failure =>
      rintro ⟨⟩
      exact codeEscape_ne_tooDeep found
    | ok read => simp [bind, Except.bind]
  · split <;> simp
  · split <;> simp

/-- Strings hold no containers. -/
theorem stringBody_ne_tooDeep {opened : List Char} :
    stringBody opened cs ≠ .error (.tooDeep k) := by
  induction size : cs.length using Nat.strong_induction_on generalizing cs with
  | _ n ih =>
    subst size
    rw [stringBody]
    cases found : piece opened cs with
    | error failure =>
      rintro ⟨⟩
      exact piece_ne_tooDeep found
    | ok step =>
      cases step with
      | stop left => simp
      | char c left =>
        obtain ⟨left, shorter⟩ := left
        cases inner : stringBody opened left with
        | error failure =>
          simp only [inner]
          rintro ⟨⟩
          exact ih left.length shorter rfl inner
        | ok read => simp [inner]

/-- The value of a number is never too deep. -/
theorem numberValue_ne_tooDeep {negative : Bool} {whole fraction : List Char}
    {exponent : Option Int} :
    numberValue negative whole fraction exponent ≠ .error (.tooDeep k) := by
  unfold numberValue
  split
  · split <;> simp
  · simp

/-- Numbers hold no containers. -/
theorem number_ne_tooDeep : number cs ≠ .error (.tooDeep k) := by
  unfold number
  extract_lets negative unsigned whole
  by_cases given : whole.1 = []
  · simp [given]
  · simp only [given, ↓reduceDIte]
    cases found : numberValue negative whole.1 (fractionDigits whole.2).1
        (exponentPart (fractionDigits whole.2).2).1 with
    | error failure =>
      rintro ⟨⟩
      exact numberValue_ne_tooDeep found
    | ok v => simp [Except.map]

/-- An array is too deep if none is accepted any more, or if one of its items is. -/
theorem value_array_eq_tooDeep_iff : value depth ('[' :: cs) = .error (.tooDeep k) ↔
    (depth = 0 ∧ k = .array) ∨ ∃ inner, depth = inner + 1 ∧
      (skipSpace cs).head? ≠ some ']' ∧ items inner (skipSpace cs) = .error (.tooDeep k) := by
  rw [value, bind_eq_error_iff]
  cases depth with
  | zero => simp [enter, eq_comm]
  | succ inner =>
    simp only [enter, Except.ok.injEq, exists_eq_left', Nat.add_right_cancel_iff]
    split
    · rename_i left isEmpty
      simp [isEmpty]
    · rename_i notEmpty
      have notEmpty : ∀ left, skipSpace cs ≠ ']' :: left := notEmpty
      simp [bind_eq_error_iff, List.head?_eq_some_iff, notEmpty]

/-- An object is too deep if none is accepted any more, or if one of its fields is. -/
theorem value_object_eq_tooDeep_iff : value depth ('\x7b' :: cs) = .error (.tooDeep k) ↔
    (depth = 0 ∧ k = .object) ∨ ∃ inner, depth = inner + 1 ∧
      (skipSpace cs).head? ≠ some '\x7d' ∧ members inner (skipSpace cs) = .error (.tooDeep k) := by
  rw [value, bind_eq_error_iff]
  cases depth with
  | zero => simp [enter, eq_comm]
  | succ inner =>
    simp only [enter, Except.ok.injEq, exists_eq_left', Nat.add_right_cancel_iff]
    split
    · rename_i left isEmpty
      simp [isEmpty]
    · rename_i notEmpty
      have notEmpty : ∀ left, skipSpace cs ≠ '\x7d' :: left := notEmpty
      simp [bind_eq_error_iff, List.head?_eq_some_iff, notEmpty]

/-- What does not start with an opening bracket is not too deep. -/
theorem value_ne_tooDeep (flat : ∀ c ∈ cs.head?, c ≠ '[' ∧ c ≠ '\x7b') :
    value depth cs ≠ .error (.tooDeep k) := by
  rw [value.eq_def]
  split
  · rename_i rest
    simp [bind_eq_error_iff, stringBody_ne_tooDeep]
  · exact absurd rfl (flat _ rfl).1
  · exact absurd rfl (flat _ rfl).2
  · split
    · simp
    · exact number_ne_tooDeep

/-- Items are too deep if the first one is, or if the others are behind a first one that was read.
-/
theorem items_eq_tooDeep_iff : items depth cs = .error (.tooDeep k) ↔
    value depth cs = .error (.tooDeep k) ∨ ∃ v left more, Reads (value depth cs) v left ∧
      skipSpace left = ',' :: more ∧ items depth (skipSpace more) = .error (.tooDeep k) := by
  rw [items, bind_eq_error_iff]
  cases found : value depth cs with
  | error failure => simp [not_reads_error]
  | ok read =>
    obtain ⟨v, left, shorter⟩ := read
    simp only [reads_ok_iff, Except.ok.injEq, exists_eq_left', reduceCtorEq, false_or]
    split
    · rename_i next
      simp [next]
    · rename_i more next
      simp [bind_eq_error_iff, next]
    · rename_i notClosed notNext
      have notNext : ∀ more, skipSpace left ≠ ',' :: more := notNext
      simp [notNext]

/-- Fields are too deep if the value of the first one is, or if the others are behind a first one
that was read. -/
theorem members_eq_tooDeep_iff : members depth cs = .error (.tooDeep k) ↔
    (∃ quoted body afterKey afterColon, cs = '\x22' :: quoted ∧
      Reads (stringBody quoted quoted) body afterKey ∧ skipSpace afterKey = ':' :: afterColon ∧
      value depth (skipSpace afterColon) = .error (.tooDeep k)) ∨
    ∃ key v left more, ReadsField depth cs key v left ∧ skipSpace left = ',' :: more ∧
      members depth (skipSpace more) = .error (.tooDeep k) := by
  unfold ReadsField
  rw [members.eq_def]
  split
  · rename_i quoted
    rw [bind_eq_error_iff]
    cases found : stringBody quoted quoted with
    | error failure =>
      have other : failure ≠ .tooDeep k := by
        rintro rfl
        exact stringBody_ne_tooDeep found
      simp [not_reads_error, found, other]
    | ok read =>
      obtain ⟨body, afterKey, shorter⟩ := read
      simp only [Except.ok.injEq, exists_eq_left', List.cons.injEq, true_and]
      split
      · rename_i afterColon atColon
        rw [bind_eq_error_iff]
        cases item : value depth (skipSpace afterColon) with
        | error failure => simp [not_reads_error, found, reads_ok_iff, atColon, item]
        | ok read =>
          obtain ⟨v, left, shorter'⟩ := read
          simp only [Except.ok.injEq, exists_eq_left']
          split
          · rename_i next
            simp [reads_ok_iff, next, found, atColon, item]
          · rename_i more next
            simp [bind_eq_error_iff, reads_ok_iff, next, found, atColon, item]
          · rename_i notClosed notNext
            have notNext : ∀ more, skipSpace left ≠ ',' :: more := notNext
            simp [notNext, found, atColon, item, reads_ok_iff]
      · rename_i noColon
        have noColon : ∀ afterColon, skipSpace afterKey ≠ ':' :: afterColon := noColon
        simp [found, reads_ok_iff, noColon]
  · rename_i notQuoted
    have notQuoted : ∀ quoted, cs ≠ '\x22' :: quoted := notQuoted
    simp [notQuoted]

/-! ## Too deep as read and as spelled -/

/-- Reading a text at some stage fails for depth. -/
def GivesUp (k : Container) (depth : Nat) : Stage → List Char → Prop
  | .value, cs => value depth cs = .error (.tooDeep k)
  | .items, cs => items depth cs = .error (.tooDeep k)
  | .fields, cs => members depth cs = .error (.tooDeep k)

/-- Where reading a text fails for depth, the text sinks. -/
def Fathoms (k : Container) (cs : List Char) : Prop :=
  ∀ depth stage, GivesUp k depth stage cs → Sinks k depth stage cs

section Sound

variable (shorter : ∀ ds : List Char, ds.length < cs.length → Fathoms k ds)

include shorter

/-- A value that fails for depth sinks, if shorter texts that fail do. -/
theorem sinks_of_value (h : value depth cs = .error (.tooDeep k)) : Sinks k depth .value cs := by
  -- Only what starts with an opening bracket can be too deep.
  by_cases flat : ∀ c ∈ cs.head?, c ≠ '[' ∧ c ≠ '\x7b'
  · exact absurd h (value_ne_tooDeep flat)
  · obtain ⟨c, tail, rfl, opening⟩ : ∃ c tail, cs = c :: tail ∧ (c = '[' ∨ c = '\x7b') := by
      cases cs with
      | nil => exact absurd (by simp) flat
      | cons c tail => exact ⟨c, tail, rfl, by simpa [imp_iff_not_or, or_comm] using flat⟩
    obtain ⟨space, cut, blank⟩ := exists_space tail
    have within : (skipSpace tail).length < (c :: tail).length := by
      have := length_skipSpace_le tail
      simp only [List.length_cons]
      omega
    rcases opening with rfl | rfl
    · obtain ⟨rfl, rfl⟩ | ⟨inner, rfl, -, deep⟩ := value_array_eq_tooDeep_iff.1 h
      · exact .opens
      · rw [cut]
        exact .inArray blank (shorter _ within inner .items deep)
    · obtain ⟨rfl, rfl⟩ | ⟨inner, rfl, -, deep⟩ := value_object_eq_tooDeep_iff.1 h
      · exact .opens
      · rw [cut]
        exact .inObject blank (shorter _ within inner .fields deep)

/-- Items that fail for depth sink, if shorter texts that fail do. -/
theorem sinks_of_items (h : items depth cs = .error (.tooDeep k)) : Sinks k depth .items cs := by
  obtain deep | ⟨v, left, more, item, next, deep⟩ := items_eq_tooDeep_iff.1 h
  · exact .inItem (sinks_of_value shorter deep)
  · obtain ⟨text, rfl, spells⟩ := sound _ depth (.value v) left item
    obtain ⟨space, cut, blank⟩ := exists_space left
    obtain ⟨between, cutMore, blankToo⟩ := exists_space more
    have inner := shorter _ (length_skipSpace_lt next text) depth .items deep
    rw [cut, next, cutMore]
    exact .behindItem spells blank blankToo inner

/-- Fields that fail for depth sink, if shorter texts that fail do. -/
theorem sinks_of_members (h : members depth cs = .error (.tooDeep k)) :
    Sinks k depth .fields cs := by
  obtain ⟨quotedText, body, afterKey, afterColon, rfl, read, colon, deep⟩ |
    ⟨key, v, left, more, field, next, deep⟩ := members_eq_tooDeep_iff.1 h
  · obtain ⟨quoted, rfl, isKey⟩ := quoted_of_reads read
    obtain ⟨space, cut, blank⟩ := exists_space afterKey
    obtain ⟨between, cutMore, blankToo⟩ := exists_space afterColon
    have inner := shorter _ (length_skipSpace_lt colon ('\x22' :: quoted)) depth .value deep
    rw [cut, colon, cutMore]
    exact .inField isKey blank blankToo inner
  · obtain ⟨text, rfl, spells⟩ := sound _ depth (.field key v) left field
    obtain ⟨space, cut, blank⟩ := exists_space left
    obtain ⟨between, cutMore, blankToo⟩ := exists_space more
    have inner := shorter _ (length_skipSpace_lt next text) depth .fields deep
    rw [cut, next, cutMore]
    exact .behindField spells blank blankToo inner

end Sound

/-- Every text that fails for depth sinks. -/
theorem fathoms (k : Container) (cs : List Char) : Fathoms k cs := by
  -- The readers call each other, on shorter texts each time but for the first item of an array.
  induction size : cs.length using Nat.strong_induction_on generalizing cs with
  | _ n ih =>
    subst size
    have shorter : ∀ ds : List Char, ds.length < cs.length → Fathoms k ds :=
      fun ds less => ih ds.length less ds rfl
    intro depth stage deep
    cases stage with
    | value => exact sinks_of_value shorter deep
    | items => exact sinks_of_items shorter deep
    | fields => exact sinks_of_members shorter deep

/-- White space in front of a text that sinks is skipped, and nothing else. -/
theorem skipSpace_append_sinks {space : List Char} (h : Sinks k depth stage text)
    (blank : AllSpace space) : skipSpace (space ++ text) = text := by
  obtain ⟨c, others, rfl, opens⟩ := h.exists_opens
  exact skipSpace_append blank opens.notSpace others

/-- A text that sinks is given up, since all that comes before is read as it is spelled. -/
theorem givesUp_of_sinks (h : Sinks k depth stage text) : GivesUp k depth stage text := by
  -- What stands before is read as it is spelled, and the reader goes on to where the text sinks.
  induction h with
  | opens =>
    cases k with
    | array => exact value_array_eq_tooDeep_iff.2 (.inl ⟨rfl, rfl⟩)
    | object => exact value_object_eq_tooDeep_iff.2 (.inl ⟨rfl, rfl⟩)
  | @inArray depth space text blank inner ih =>
    refine value_array_eq_tooDeep_iff.2 (.inr ⟨depth, rfl, ?_⟩)
    rw [skipSpace_append_sinks inner blank]
    refine ⟨?_, ih⟩
    obtain ⟨c, others, rfl, opens⟩ := inner.exists_opens
    simpa using opens.notBracket
  | @inObject depth space text blank inner ih =>
    refine value_object_eq_tooDeep_iff.2 (.inr ⟨depth, rfl, ?_⟩)
    rw [skipSpace_append_sinks inner blank]
    refine ⟨?_, ih⟩
    obtain ⟨c, others, rfl, opens⟩ := inner.exists_opens
    simpa using opens.notBrace
  | inItem _ ih => exact items_eq_tooDeep_iff.2 (.inl ih)
  | @behindItem depth text space between more v item blank blankToo inner ih =>
    refine items_eq_tooDeep_iff.2 (.inr ⟨v, _, _,
      takes_of_spells item ((endsNumeral_of_closes blank (by decide) _).endsValue v),
      skipSpace_append blank (by decide) _, ?_⟩)
    rw [skipSpace_append_sinks inner blankToo]
    exact ih
  | @inField depth quoted key space between text isKey blank blankToo inner ih =>
    refine members_eq_tooDeep_iff.2 (.inl ⟨_, key, _, _, rfl, reads_of_quoted isKey _ _,
      skipSpace_append blank (by decide) _, ?_⟩)
    rw [skipSpace_append_sinks inner blankToo]
    exact ih
  | @behindField depth text space between more key v field blank blankToo inner ih =>
    refine members_eq_tooDeep_iff.2 (.inr ⟨key, v, _, _,
      takes_of_spells field ((endsNumeral_of_closes blank (by decide) _).endsValue v),
      skipSpace_append blank (by decide) _, ?_⟩)
    rw [skipSpace_append_sinks inner blankToo]
    exact ih

/-- A document is too deep if its value is. What stands behind the value makes no difference. -/
theorem document_eq_tooDeep_iff : document depth cs = .error (.tooDeep k) ↔
    value depth (skipSpace cs) = .error (.tooDeep k) := by
  rw [document, bind_eq_error_iff]
  refine or_iff_left ?_
  rintro ⟨⟨v, left, shorter⟩, -, failed⟩
  cases behind : skipSpace left with
  | nil => simp [behind] at failed
  | cons c rest => simp [behind] at failed

end Reader

/-- Reading gives up on a text for its depth if and only if the text is too deep. -/
theorem read_eq_tooDeep_iff : read text depth = .error (.tooDeep k) ↔ TooDeep depth text k := by
  have failed : read text depth = .error (.tooDeep k) ↔
      Reader.document depth text = .error (.tooDeep k) := by
    unfold read
    split <;> simp_all
  rw [failed, Reader.document_eq_tooDeep_iff]
  constructor
  · intro deep
    obtain ⟨space, cut, blank⟩ := Reader.exists_space text
    exact ⟨space, _, cut, blank, Reader.fathoms k _ depth .value deep⟩
  · rintro ⟨space, inner, rfl, blank, sinks⟩
    rw [Reader.skipSpace_append_sinks sinks blank]
    exact Reader.givesUp_of_sinks sinks

end Flowchart.Json
