import Flowchart.Proofs.Json.Numeral

/-!
# Reading documents

The reader of documents takes exactly the texts that the grammar spells out. In one direction the
induction is on the length of the text that is read, in the other on how the text is spelled. Every
phrase is read as far as it goes, whatever follows, with the exception of numbers, which would go on
with more digits.
-/

set_option autoImplicit false

namespace Flowchart.Json

namespace Reader

/-! ## White space -/

/-- White space is skipped up to the first character that is none. -/
theorem skipSpace_append {space : List Char} (blank : AllSpace space) {c : Char}
    (notSpace : isSpace c = false) (rest : List Char) :
    skipSpace (space ++ c :: rest) = c :: rest := by
  rw [skipSpace, List.dropWhile_append_of_pos blank]
  simp [notSpace]

/-- What is skipped is white space. -/
theorem exists_space (cs : List Char) :
    ∃ space, cs = space ++ skipSpace cs ∧ AllSpace space :=
  ⟨cs.takeWhile isSpace, List.takeWhile_append_dropWhile.symm,
    fun _ mem => List.mem_takeWhile_imp mem⟩

/-- Behind a character and white space, less of the text is left than at the start. -/
theorem length_skipSpace_lt {left more : List Char} {c : Char} (next : skipSpace left = c :: more)
    (text : List Char) : (skipSpace more).length < (text ++ left).length := by
  have first := length_skipSpace_le left
  have second := length_skipSpace_le more
  rw [next, List.length_cons] at first
  rw [List.length_append]
  omega

/-! ## The readers in their parts -/

variable {depth : Nat} {cs rest : List Char}

/-- Two steps of reading read what the second one reads after the first. -/
theorem reads_bind_iff {α β : Type} {x : Except Failure β} {f : β → Except Failure (α × Rest cs)}
    {a : α} : Reads (x >>= f) a rest ↔ ∃ b, x = .ok b ∧ Reads (f b) a rest := by
  cases x with
  | error failure => simp [bind, Except.bind, not_reads_error]
  | ok b => simp [bind, Except.bind]

/-- What was read is made into something else, and the same text is left. -/
theorem reads_map_iff {α β : Type} {ds : List Char} {x : Except Failure (β × Rest ds)} {g : β → α}
    {f : β × Rest ds → Except Failure (α × Rest cs)} {a : α}
    (made : ∀ b left shorter, ∃ within, f (b, ⟨left, shorter⟩) = .ok (g b, ⟨left, within⟩)) :
    Reads (x >>= f) a rest ↔ ∃ b, a = g b ∧ Reads x b rest := by
  rw [reads_bind_iff]
  constructor
  · rintro ⟨⟨b, left, shorter⟩, found, read⟩
    obtain ⟨within, same⟩ := made b left shorter
    rw [same] at read
    obtain ⟨rfl, rfl⟩ := reads_ok_iff.1 read
    exact ⟨b, rfl, shorter, found⟩
  · rintro ⟨b, rfl, shorter, found⟩
    obtain ⟨within, same⟩ := made b rest shorter
    exact ⟨(b, ⟨rest, shorter⟩), found, within, same⟩

/-- Behind a quote, a string is read. -/
theorem reads_string_iff {v : Json} : Reads (value depth ('\x22' :: cs)) v rest ↔
    ∃ body, v = .string (String.ofList body) ∧ Reads (stringBody cs cs) body rest := by
  rw [value]
  exact reads_map_iff fun _ _ _ => ⟨_, rfl⟩

/-- Behind a bracket, an array is read, one container less deep: an empty one, or its items. -/
theorem reads_array_iff {v : Json} : Reads (value depth ('[' :: cs)) v rest ↔
    ∃ inner, depth = inner + 1 ∧ ((v = .array [] ∧ skipSpace cs = ']' :: rest) ∨
      (skipSpace cs).head? ≠ some ']' ∧
        ∃ vs, v = .array vs ∧ Reads (items inner (skipSpace cs)) vs rest) := by
  rw [value, reads_bind_iff]
  cases depth with
  | zero => simp [enter]
  | succ inner =>
    simp only [enter, Except.ok.injEq, exists_eq_left', Nat.add_right_cancel_iff]
    split
    · rename_i left isEmpty
      simp [reads_ok_iff, isEmpty, eq_comm]
    · rename_i notEmpty
      have notEmpty : ∀ left, skipSpace cs ≠ ']' :: left := notEmpty
      rw [reads_map_iff (g := .array)]
      · simp [List.head?_eq_some_iff, notEmpty]
      · exact fun _ _ _ => ⟨_, rfl⟩

/-- Behind a brace, an object is read, one container less deep: an empty one, or its fields. -/
theorem reads_object_iff {v : Json} : Reads (value depth ('\x7b' :: cs)) v rest ↔
    ∃ inner, depth = inner + 1 ∧ ((v = .object [] ∧ skipSpace cs = '\x7d' :: rest) ∨
      (skipSpace cs).head? ≠ some '\x7d' ∧ ∃ fields, v = .object (Fields.ofMembers fields) ∧
        Reads (members inner (skipSpace cs)) fields rest) := by
  rw [value, reads_bind_iff]
  cases depth with
  | zero => simp [enter]
  | succ inner =>
    simp only [enter, Except.ok.injEq, exists_eq_left', Nat.add_right_cancel_iff]
    split
    · rename_i left isEmpty
      simp [reads_ok_iff, isEmpty, eq_comm]
    · rename_i notEmpty
      have notEmpty : ∀ left, skipSpace cs ≠ '\x7d' :: left := notEmpty
      rw [reads_map_iff (g := fun fields => .object (Fields.ofMembers fields))]
      · simp [List.head?_eq_some_iff, notEmpty]
      · exact fun _ _ _ => ⟨_, rfl⟩

/-- What starts with none of these is read as a name, or else as a number. -/
theorem reads_atom_iff {v : Json}
    (atom : ∀ c ∈ cs.head?, c ≠ '\x22' ∧ c ≠ '[' ∧ c ≠ '\x7b') :
    Reads (value depth cs) v rest ↔
      (∃ name, (name, v) ∈ names ∧ cs = name ++ rest) ∨
      name? cs = none ∧ Reads (number cs) v rest := by
  rw [value]
  · rw [← exists_name?_iff]
    cases name? cs with
    | some found => simp [Reads]
    | none => simp
  · rintro rest rfl
    exact (atom _ rfl).1 rfl
  · rintro rest rfl
    exact (atom _ rfl).2.1 rfl
  · rintro rest rfl
    exact (atom _ rfl).2.2 rfl

/-- Items are one value and a closing bracket, or a value, a comma and more items. -/
theorem reads_items_iff {vs : List Json} : Reads (items depth cs) vs rest ↔
    ∃ v left, Reads (value depth cs) v left ∧
      ((vs = [v] ∧ skipSpace left = ']' :: rest) ∨
        ∃ more others, vs = v :: others ∧ skipSpace left = ',' :: more ∧
          Reads (items depth (skipSpace more)) others rest) := by
  rw [items, reads_bind_iff]
  cases found : value depth cs with
  | error failure => simp [not_reads_error]
  | ok read =>
    obtain ⟨v, left, shorter⟩ := read
    simp only [reads_ok_iff, Except.ok.injEq, exists_eq_left']
    split
    · rename_i next
      simp [reads_ok_iff, next, eq_comm]
    · rename_i more next
      rw [reads_map_iff (g := (v :: ·))]
      · simp [next]
      · exact fun _ _ _ => ⟨_, rfl⟩
    · rename_i notClosed notNext
      have notClosed : ∀ rest, skipSpace left ≠ ']' :: rest := notClosed
      have notNext : ∀ more, skipSpace left ≠ ',' :: more := notNext
      simp [not_reads_error, notClosed, notNext]

/-- A key with a value is read and leaves a text over. -/
def ReadsField (depth : Nat) (cs : List Char) (key : String) (v : Json) (rest : List Char) : Prop :=
  ∃ quoted body afterKey afterColon, cs = '\x22' :: quoted ∧ key = String.ofList body ∧
    Reads (stringBody quoted quoted) body afterKey ∧ skipSpace afterKey = ':' :: afterColon ∧
    Reads (value depth (skipSpace afterColon)) v rest

/-- Fields are one field and a closing brace, or a field, a comma and more fields. -/
theorem reads_members_iff {fields : List (String × Json)} :
    Reads (members depth cs) fields rest ↔
      ∃ key v left, ReadsField depth cs key v left ∧
        ((fields = [(key, v)] ∧ skipSpace left = '\x7d' :: rest) ∨
          ∃ more others, fields = (key, v) :: others ∧ skipSpace left = ',' :: more ∧
            Reads (members depth (skipSpace more)) others rest) := by
  unfold ReadsField
  rw [members.eq_def]
  split
  · rename_i quoted
    rw [reads_bind_iff]
    cases found : stringBody quoted quoted with
    | error failure => simp [not_reads_error, found]
    | ok read =>
      obtain ⟨body, afterKey, shorter⟩ := read
      simp only [Except.ok.injEq, exists_eq_left', List.cons.injEq, true_and]
      split
      · rename_i afterColon atColon
        rw [reads_bind_iff]
        cases item : value depth (skipSpace afterColon) with
        | error failure => simp [not_reads_error, found, reads_ok_iff, atColon, item]
        | ok read =>
          obtain ⟨v, left, shorter'⟩ := read
          simp only [Except.ok.injEq, exists_eq_left']
          split
          · rename_i next
            simp [reads_ok_iff, next, eq_comm, found, atColon, item]
          · rename_i more next
            rw [reads_map_iff (g := ((String.ofList body, v) :: ·))]
            · simp [reads_ok_iff, next, found, atColon, item]
            · exact fun _ _ _ => ⟨_, rfl⟩
          · rename_i notClosed notNext
            have notClosed : ∀ rest, skipSpace left ≠ '\x7d' :: rest := notClosed
            have notNext : ∀ more, skipSpace left ≠ ',' :: more := notNext
            simp [not_reads_error, notClosed, notNext, found, atColon, item, reads_ok_iff]
      · rename_i noColon
        have noColon : ∀ afterColon, skipSpace afterKey ≠ ':' :: afterColon := noColon
        simp [not_reads_error, found, reads_ok_iff, noColon]
  · rename_i notQuoted
    have notQuoted : ∀ quoted, cs ≠ '\x22' :: quoted := notQuoted
    simp [not_reads_error, notQuoted]

/-! ## What is read is spelled out -/

/-- A phrase is read from a text and leaves a text over. -/
def Takes (depth : Nat) : Phrase → List Char → List Char → Prop
  | .value v, cs, rest => Reads (value depth cs) v rest
  | .items vs, cs, rest => Reads (items depth cs) vs rest
  | .field key v, cs, rest => ReadsField depth cs key v rest
  | .fields members, cs, rest => Reads (Reader.members depth cs) members rest

/-- What is read from a text as a phrase spells the phrase. -/
def Sound (cs : List Char) : Prop :=
  ∀ depth phrase rest, Takes depth phrase cs rest →
    ∃ text, cs = text ++ rest ∧ Spells depth phrase text

variable (shorter : ∀ ds : List Char, ds.length < cs.length → Sound ds)

include shorter

/-- What is read as a value spells it, if this is so of shorter texts. -/
theorem spells_of_reads_value {v : Json} (h : Reads (value depth cs) v rest) :
    ∃ text, cs = text ++ rest ∧ Spells depth (.value v) text := by
  -- The first character tells strings, arrays and objects from names and numerals.
  by_cases atom : ∀ c ∈ cs.head?, c ≠ '\x22' ∧ c ≠ '[' ∧ c ≠ '\x7b'
  · rcases (reads_atom_iff atom).1 h with ⟨name, mem, rfl⟩ | ⟨-, isNumber⟩
    · exact ⟨name, rfl, .name mem⟩
    · obtain ⟨text, rfl, isNumeral⟩ := numeral_of_reads isNumber
      exact ⟨text, rfl, .numeral isNumeral⟩
  · obtain ⟨c, tail, rfl, opening⟩ :
        ∃ c tail, cs = c :: tail ∧ (c = '\x22' ∨ c = '[' ∨ c = '\x7b') := by
      cases cs with
      | nil => exact absurd (by simp) atom
      | cons c tail =>
        refine ⟨c, tail, rfl, ?_⟩
        by_contra other
        refine atom ?_
        rintro d ⟨⟩
        simpa using other
    obtain ⟨space, cut, blank⟩ := exists_space tail
    have within : (skipSpace tail).length < (c :: tail).length := by
      have := length_skipSpace_le tail
      simp only [List.length_cons]
      omega
    rcases opening with rfl | rfl | rfl
    · obtain ⟨body, rfl, read⟩ := reads_string_iff.1 h
      obtain ⟨text, rfl, quoted⟩ := quoted_of_reads read
      exact ⟨_, rfl, .string quoted⟩
    · obtain ⟨inner, rfl, ⟨rfl, closed⟩ | ⟨-, vs, rfl, read⟩⟩ := reads_array_iff.1 h
      · exact ⟨'[' :: (space ++ [']']), by rw [cut, closed]; simp, .emptyArray blank⟩
      · obtain ⟨text, whole, spells⟩ := shorter _ within inner (.items vs) rest read
        exact ⟨'[' :: (space ++ text), by rw [cut, whole]; simp, .array blank spells⟩
    · obtain ⟨inner, rfl, ⟨rfl, closed⟩ | ⟨-, members, rfl, read⟩⟩ := reads_object_iff.1 h
      · exact ⟨'\x7b' :: (space ++ ['\x7d']), by rw [cut, closed]; simp, .emptyObject blank⟩
      · obtain ⟨text, whole, spells⟩ := shorter _ within inner (.fields members) rest read
        exact ⟨'\x7b' :: (space ++ text), by rw [cut, whole]; simp, .object blank spells⟩

/-- What is read as items spells them, if this is so of shorter texts. -/
theorem spells_of_reads_items {vs : List Json} (h : Reads (items depth cs) vs rest) :
    ∃ text, cs = text ++ rest ∧ Spells depth (.items vs) text := by
  obtain ⟨v, left, item, follows⟩ := reads_items_iff.1 h
  obtain ⟨text, rfl, spells⟩ := spells_of_reads_value shorter item
  obtain ⟨space, cut, blank⟩ := exists_space left
  rcases follows with ⟨rfl, closed⟩ | ⟨more, others, rfl, next, read⟩
  · exact ⟨text ++ (space ++ [']']), by rw [cut, closed]; simp, .lastItem spells blank⟩
  · obtain ⟨between, cutMore, blankToo⟩ := exists_space more
    obtain ⟨text', whole, spells'⟩ :=
      shorter _ (length_skipSpace_lt next text) depth (.items others) rest read
    exact ⟨text ++ (space ++ ',' :: (between ++ text')),
      by rw [cut, next, cutMore, whole]; simp, .nextItem spells blank blankToo spells'⟩

/-- What is read as a field spells it, if this is so of shorter texts. -/
theorem spells_of_readsField {key : String} {v : Json} (h : ReadsField depth cs key v rest) :
    ∃ text, cs = text ++ rest ∧ Spells depth (.field key v) text := by
  obtain ⟨quotedText, body, afterKey, afterColon, rfl, rfl, read, colon, item⟩ := h
  obtain ⟨quoted, rfl, isKey⟩ := quoted_of_reads read
  obtain ⟨space, cut, blank⟩ := exists_space afterKey
  obtain ⟨between, cutMore, blankToo⟩ := exists_space afterColon
  obtain ⟨text, whole, spells⟩ :=
    shorter _ (length_skipSpace_lt colon ('\x22' :: quoted)) depth (.value v) rest item
  exact ⟨'\x22' :: (quoted ++ (space ++ ':' :: (between ++ text))),
    by rw [cut, colon, cutMore, whole]; simp, .field isKey blank blankToo spells⟩

/-- What is read as fields spells them, if this is so of shorter texts. -/
theorem spells_of_reads_members {fields : List (String × Json)}
    (h : Reads (members depth cs) fields rest) :
    ∃ text, cs = text ++ rest ∧ Spells depth (.fields fields) text := by
  obtain ⟨key, v, left, field, follows⟩ := reads_members_iff.1 h
  obtain ⟨text, rfl, spells⟩ := spells_of_readsField shorter field
  obtain ⟨space, cut, blank⟩ := exists_space left
  rcases follows with ⟨rfl, closed⟩ | ⟨more, others, rfl, next, read⟩
  · exact ⟨text ++ (space ++ ['\x7d']), by rw [cut, closed]; simp, .lastField spells blank⟩
  · obtain ⟨between, cutMore, blankToo⟩ := exists_space more
    obtain ⟨text', whole, spells'⟩ :=
      shorter _ (length_skipSpace_lt next text) depth (.fields others) rest read
    exact ⟨text ++ (space ++ ',' :: (between ++ text')),
      by rw [cut, next, cutMore, whole]; simp, .nextField spells blank blankToo spells'⟩

omit shorter

/-- Whatever is read as a phrase spells it. -/
theorem sound (cs : List Char) : Sound cs := by
  induction size : cs.length using Nat.strong_induction_on generalizing cs with
  | _ n ih =>
    subst size
    have shorter : ∀ ds : List Char, ds.length < cs.length → Sound ds :=
      fun ds less => ih ds.length less ds rfl
    intro depth phrase rest read
    cases phrase with
    | value v => exact spells_of_reads_value shorter read
    | items vs => exact spells_of_reads_items shorter read
    | field key v => exact spells_of_readsField shorter read
    | fields members => exact spells_of_reads_members shorter read

/-! ## What is spelled out is read -/

/-- Nothing in a text goes on with a phrase. Lists end with what closes them. -/
def Ends : Phrase → List Char → Prop
  | .value v, rest | .field _ v, rest => EndsValue v rest
  | .items _, _ | .fields _, _ => True

/-- White space ends a number. -/
theorem endsNumeral_of_allSpace {space : List Char} (blank : AllSpace space) :
    EndsNumeral space := by
  intro c first
  have isSpace := blank c (List.mem_of_head? first)
  simp only [Reader.isSpace, Bool.or_eq_true, decide_eq_true_eq] at isSpace
  rcases isSpace with ((rfl | rfl) | rfl) | rfl <;> decide

/-- So does what closes a container or comes between its parts, behind white space. -/
theorem endsNumeral_of_closes {space : List Char} (blank : AllSpace space) {c : Char}
    (closes : c ∈ [']', '\x7d', ',']) (rest : List Char) :
    EndsNumeral (space ++ c :: rest) := by
  cases space with
  | nil =>
    rintro d ⟨⟩
    simp only [List.mem_cons, List.not_mem_nil, or_false] at closes
    rcases closes with rfl | rfl | rfl <;> decide
  | cons d space =>
    rintro e ⟨⟩
    exact endsNumeral_of_allSpace blank d rfl

/-- White space in front of a phrase is skipped, and nothing of the phrase. -/
theorem skipSpace_append_spells {phrase : Phrase} {text space : List Char}
    (h : Spells depth phrase text) (blank : AllSpace space) (rest : List Char) :
    skipSpace (space ++ (text ++ rest)) = text ++ rest := by
  obtain ⟨c, others, rfl, opens⟩ := h.exists_opens
  exact Reader.skipSpace_append blank opens.notSpace _

/-- A phrase is read as far as it is spelled if the text behind it does not go on with it. -/
theorem takes_of_spells {phrase : Phrase} {text : List Char} (h : Spells depth phrase text)
    (ends : Ends phrase rest) : Takes depth phrase (text ++ rest) rest := by
  -- By induction on the spelling. Only a numeral could go on into what follows it, so this is
  -- the one place where `ends` is needed.
  induction h generalizing rest with
  | string quoted => exact reads_string_iff.2 ⟨_, rfl, reads_of_quoted quoted _ rest⟩
  | name isName =>
    refine (reads_atom_iff ?_).2 (.inl ⟨_, isName, rfl⟩)
    simp only [names, List.mem_cons, List.not_mem_nil, or_false, Prod.mk.injEq] at isName
    rcases isName with ⟨rfl, -⟩ | ⟨rfl, -⟩ | ⟨rfl, -⟩ | ⟨rfl, -⟩ | ⟨rfl, -⟩ | ⟨rfl, -⟩ <;>
      (rintro c ⟨⟩; decide)
  | numeral isNumeral =>
    refine (reads_atom_iff ?_).2 (.inr ⟨name?_eq_none isNumeral rest,
      reads_of_numeral isNumeral (endsNumeral_of_endsValue isNumeral ends)⟩)
    obtain ⟨c, others, isDigit, rfl | rfl⟩ := isNumeral.exists_digit
    · rintro d ⟨⟩
      refine ⟨?_, ?_, ?_⟩ <;> (rintro rfl; exact absurd isDigit (by decide))
    · rintro d ⟨⟩
      decide
  | @emptyArray depth space blank =>
    have whole : '[' :: (space ++ [']']) ++ rest = '[' :: (space ++ ']' :: rest) := by simp
    rw [whole]
    exact reads_array_iff.2 ⟨depth, rfl, .inl ⟨rfl, skipSpace_append blank (by decide) rest⟩⟩
  | @array depth space text vs blank items ih =>
    have whole : '[' :: (space ++ text) ++ rest = '[' :: (space ++ (text ++ rest)) := by simp
    rw [whole]
    refine reads_array_iff.2 ⟨depth, rfl, .inr ?_⟩
    rw [skipSpace_append_spells items blank]
    refine ⟨?_, vs, rfl, ih trivial⟩
    obtain ⟨c, others, rfl, opens⟩ := items.exists_opens
    simpa using opens.notBracket
  | @emptyObject depth space blank =>
    have whole : '\x7b' :: (space ++ ['\x7d']) ++ rest = '\x7b' :: (space ++ '\x7d' :: rest) := by
      simp
    rw [whole]
    exact reads_object_iff.2 ⟨depth, rfl, .inl ⟨rfl, skipSpace_append blank (by decide) rest⟩⟩
  | @object depth space text members blank fields ih =>
    have whole : '\x7b' :: (space ++ text) ++ rest = '\x7b' :: (space ++ (text ++ rest)) := by simp
    rw [whole]
    refine reads_object_iff.2 ⟨depth, rfl, .inr ?_⟩
    rw [skipSpace_append_spells fields blank]
    refine ⟨?_, members, rfl, ih trivial⟩
    obtain ⟨c, others, rfl, opens⟩ := fields.exists_opens
    simpa using opens.notBrace
  | @lastItem depth text space v item blank ih =>
    have whole : text ++ (space ++ [']']) ++ rest = text ++ (space ++ ']' :: rest) := by simp
    rw [whole]
    exact reads_items_iff.2 ⟨v, _, ih ((endsNumeral_of_closes blank (by decide) rest).endsValue v),
      .inl ⟨rfl, skipSpace_append blank (by decide) rest⟩⟩
  | @nextItem depth text space between more v vs item blank blankToo others ih ihMore =>
    have whole : text ++ (space ++ ',' :: (between ++ more)) ++ rest =
        text ++ (space ++ ',' :: (between ++ (more ++ rest))) := by simp
    rw [whole]
    refine reads_items_iff.2 ⟨v, _, ih ((endsNumeral_of_closes blank (by decide) _).endsValue v),
      .inr ⟨_, vs, rfl, skipSpace_append blank (by decide) _, ?_⟩⟩
    rw [skipSpace_append_spells others blankToo]
    exact ihMore trivial
  | @field depth quoted key space between text v isKey blank blankToo item ih =>
    have whole : '\x22' :: (quoted ++ (space ++ ':' :: (between ++ text))) ++ rest =
        '\x22' :: (quoted ++ (space ++ ':' :: (between ++ (text ++ rest)))) := by simp
    rw [whole]
    refine ⟨_, key, _, _, rfl, rfl, reads_of_quoted isKey _ _,
      skipSpace_append blank (by decide) _, ?_⟩
    rw [skipSpace_append_spells item blankToo]
    exact ih ends
  | @lastField depth text space key v field blank ih =>
    have whole : text ++ (space ++ ['\x7d']) ++ rest = text ++ (space ++ '\x7d' :: rest) := by simp
    rw [whole]
    exact reads_members_iff.2 ⟨key, v, _,
      ih ((endsNumeral_of_closes blank (by decide) rest).endsValue v),
      .inl ⟨rfl, skipSpace_append blank (by decide) rest⟩⟩
  | @nextField depth text space between more key v members field blank blankToo others ih ihMore =>
    have whole : text ++ (space ++ ',' :: (between ++ more)) ++ rest =
        text ++ (space ++ ',' :: (between ++ (more ++ rest))) := by simp
    rw [whole]
    refine reads_members_iff.2 ⟨key, v, _,
      ih ((endsNumeral_of_closes blank (by decide) _).endsValue v),
      .inr ⟨_, members, rfl, skipSpace_append blank (by decide) _, ?_⟩⟩
    rw [skipSpace_append_spells others blankToo]
    exact ihMore trivial

/-! ## Documents -/

/-- A reading has one value and one rest. -/
theorem reads_unique {α : Type} {outcome : Except Failure (α × Rest cs)} {a b : α}
    {rest left : List Char} (h : Reads outcome a rest) (h' : Reads outcome b left) :
    a = b ∧ rest = left := by
  obtain ⟨shorter, rfl⟩ := h
  exact reads_ok_iff.1 h'

/-- Nothing is left behind white space only. -/
theorem skipSpace_eq_nil_iff : skipSpace cs = [] ↔ AllSpace cs :=
  List.dropWhile_eq_nil_iff

/-- A document is a value with nothing but white space around it. -/
theorem document_eq_ok_iff {v : Json} :
    document depth cs = .ok v ↔
      ∃ left, Reads (value depth (skipSpace cs)) v left ∧ AllSpace left := by
  rw [document]
  cases found : value depth (skipSpace cs) with
  | error failure => simp [not_reads_error, bind, Except.bind]
  | ok read =>
    obtain ⟨v', left, shorter⟩ := read
    simp only [bind, Except.bind, reads_ok_iff, ← skipSpace_eq_nil_iff]
    cases behind : skipSpace left with
    | nil => simp [behind]
    | cons c rest => simp [behind]

end Reader

/-- A text is read as the reader of documents reads it. -/
theorem read_eq_ok_iff_document {text : List Char} {depth : Nat} {v : Json} :
    read text depth = .ok v ↔ Reader.document depth text = .ok v := by
  unfold read
  split <;> simp_all

/-- A text is read as a value, up to a depth, if and only if it is a document of this value. -/
theorem read_eq_ok_iff {text : List Char} {depth : Nat} {v : Json} :
    read text depth = .ok v ↔ IsDocument depth text v := by
  rw [read_eq_ok_iff_document, Reader.document_eq_ok_iff]
  constructor
  · rintro ⟨after, read, blankAfter⟩
    obtain ⟨before, cut, blank⟩ := Reader.exists_space text
    obtain ⟨inner, whole, spells⟩ := Reader.sound _ depth (.value v) after read
    exact ⟨before, inner, after, by rw [cut, whole]; simp, blank, blankAfter, spells⟩
  · rintro ⟨before, inner, after, rfl, blank, blankAfter, spells⟩
    refine ⟨after, ?_, blankAfter⟩
    rw [List.append_assoc, Reader.skipSpace_append_spells spells blank]
    exact Reader.takes_of_spells spells
      ((Reader.endsNumeral_of_allSpace blankAfter).endsValue v)

/-- Behind an object, nothing but white space may follow. -/
theorem read_object_append_iff {space text rest : List Char} {depth : Nat} {fields : Fields}
    {v : Json} (blank : AllSpace space)
    (spells : Spells depth (.value (.object fields)) text) :
    read (space ++ (text ++ rest)) depth = .ok v ↔ v = .object fields ∧ AllSpace rest := by
  rw [read_eq_ok_iff_document, Reader.document_eq_ok_iff,
    Reader.skipSpace_append_spells spells blank]
  have found : Reader.Reads (Reader.value depth (text ++ rest)) (.object fields) rest :=
    Reader.takes_of_spells spells trivial
  constructor
  · rintro ⟨left, read, blank⟩
    obtain ⟨rfl, rfl⟩ := Reader.reads_unique read found
    exact ⟨rfl, blank⟩
  · rintro ⟨rfl, blank⟩
    exact ⟨rest, found, blank⟩

end Flowchart.Json
