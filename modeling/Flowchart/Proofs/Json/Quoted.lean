import Flowchart.Proofs.Json.Grammar

/-!
# Reading strings

The reader of strings takes what the grammar says and nothing of what stands behind it: a string
ends with its closing quote, so any text can follow. Only codes look ahead, for another half to join
with, but never beyond the end of the string.
-/

set_option autoImplicit false

namespace Flowchart.Json.Reader

/-- Reading gave a value and left a text over. -/
def Reads {α : Type} {cs : List Char} (outcome : Except Failure (α × Rest cs)) (a : α)
    (rest : List Char) : Prop :=
  ∃ shorter, outcome = .ok (a, ⟨rest, shorter⟩)

/-- An outcome with a value and a rest is a reading of these. -/
theorem reads_ok_iff {α : Type} {cs : List Char} {a b : α} {left : Rest cs} {rest : List Char} :
    Reads (.ok (b, left)) a rest ↔ b = a ∧ left.1 = rest := by
  obtain ⟨left, shorter⟩ := left
  constructor
  · rintro ⟨_, same⟩
    cases same
    exact ⟨rfl, rfl⟩
  · rintro ⟨rfl, rfl⟩
    exact ⟨shorter, rfl⟩

/-- A failure reads nothing. -/
theorem not_reads_error {α : Type} {cs : List Char} {a : α} {failure : Failure} {rest : List Char} :
    ¬ Reads (.error failure : Except Failure (α × Rest cs)) a rest := by
  rintro ⟨_, same⟩
  cases same

/-! ## Codes -/

/-- A code is four digits with something behind them. -/
theorem hexCode?_eq_some_iff {cs rest : List Char} {code : Nat} :
    hexCode? cs = some (code, rest) ↔
      rest ≠ [] ∧ ∃ digits, cs = digits ++ rest ∧ HexDigits digits code := by
  constructor
  · intro h
    unfold hexCode? at h
    split at h
    · simp only [Option.bind_eq_bind, Option.bind_eq_some_iff, Option.some.injEq,
        Prod.mk.injEq] at h
      obtain ⟨p, first, q, second, r, third, s, fourth, rfl, rfl⟩ := h
      exact ⟨List.cons_ne_nil _ _, _, rfl, .mk first second third fourth⟩
    · simp at h
  · rintro ⟨nonempty, digits, rfl, value⟩
    obtain ⟨next, rest, rfl⟩ := List.exists_cons_of_ne_nil nonempty
    cases value with
    | mk first second third fourth => simp [hexCode?, first, second, third, fourth]

/-- A code is behind a code, and the two are halves of one character. -/
def Paired (code : Nat) (rest : List Char) (low : Nat) (left : List Char) : Prop :=
  Text.isHighHalf code = true ∧ Text.isLowHalf low = true ∧
    ∃ second, rest = '\\' :: 'u' :: second ∧ hexCode? second = some (low, left)

/-- No code is behind a code that would be joined with it. -/
def Alone (code : Nat) (rest : List Char) : Prop :=
  Text.isHighHalf code = true → ∀ second, rest = '\\' :: 'u' :: second → 5 ≤ second.length →
    ∃ low left, hexCode? second = some (low, left) ∧ Text.isLowHalf low = false

/-- A code is read as one character with the half behind it, or else as its own. -/
theorem reads_codeEscape_iff {cs left : List Char} {c : Char} :
    Reads (codeEscape cs) c left ↔ ∃ code rest, hexCode? cs = some (code, rest) ∧
      ((∃ low, Text.charOfHalves code low = c ∧ Paired code rest low left) ∨
        Alone code rest ∧ Text.charOfCode code = c ∧ rest = left) := by
  unfold codeEscape
  split
  · rename_i none
    simp [not_reads_error, none]
  · rename_i code rest found
    simp only [found, Option.some.injEq, Prod.mk.injEq, ↓existsAndEq, true_and]
    split
    · rename_i second _ _
      split
      · rename_i joins
        rw [Bool.and_eq_true, decide_eq_true_eq] at joins
        split
        · rename_i none
          simp [not_reads_error, Paired, Alone, none, joins]
        · rename_i low rest' code'
          split
          · rename_i isLow
            simp [reads_ok_iff, Paired, Alone, code', joins, isLow]
          · rename_i notLow
            simp [reads_ok_iff, Paired, Alone, code', joins, notLow]
      · rename_i apart
        -- The code is no first half, or too little follows for a second one.
        have alone : Alone code ('\\' :: 'u' :: second) := by
          intro isHigh other same long
          cases same
          simp [isHigh, long] at apart
        have notPaired (low : Nat) : ¬ Paired code ('\\' :: 'u' :: second) low left := by
          rintro ⟨isHigh, -, other, same, code'⟩
          cases same
          obtain ⟨nonempty, digits, rfl, value⟩ := hexCode?_eq_some_iff.1 code'
          have long := List.length_pos_iff.2 nonempty
          simp only [isHigh, Bool.true_and, decide_eq_true_eq, List.length_append,
            HexDigits.length value] at apart
          omega
        simp [reads_ok_iff, alone, notPaired]
    · rename_i noCode
      have other : ∀ second, rest ≠ '\\' :: 'u' :: second := by
        rintro second rfl
        exact noCode _ _ _ rfl HEq.rfl HEq.rfl
      simp [reads_ok_iff, Paired, Alone, other]

/-! ## Strings -/

/-- The character of a step through a string, none at its end, and what is left. -/
def Piece.parts {cs : List Char} : Piece cs → Option Char × Rest cs
  | stop rest => (none, rest)
  | char c rest => (some c, rest)

/-- A step through a string gave a character, or came to the end, and left a text over. -/
def Steps {cs : List Char} (outcome : Except Failure (Piece cs)) (c? : Option Char)
    (rest : List Char) : Prop :=
  Reads (outcome.map Piece.parts) c? rest

/-- A step to the end of a string gives no character. -/
theorem steps_stop_iff {cs rest : List Char} {c? : Option Char} {left : Rest cs} :
    Steps (.ok (.stop left)) c? rest ↔ none = c? ∧ left.1 = rest :=
  reads_ok_iff

/-- Any other step gives its character. -/
theorem steps_char_iff {cs rest : List Char} {c? : Option Char} {b : Char} {left : Rest cs} :
    Steps (.ok (.char b left)) c? rest ↔ some b = c? ∧ left.1 = rest :=
  reads_ok_iff

/-- A failure is no step. -/
theorem not_steps_error {cs rest : List Char} {c? : Option Char} {failure : Failure} :
    ¬ Steps (.error failure : Except Failure (Piece cs)) c? rest :=
  not_reads_error

/-- A string ends exactly at a quote. -/
theorem steps_none_iff {opened cs rest : List Char} :
    Steps (piece opened cs) none rest ↔ cs = '\x22' :: rest := by
  unfold piece
  split
  · simp [not_steps_error]
  · simp [steps_stop_iff]
  · simp [not_steps_error]
  · rename_i after
    cases codeEscape after <;> simp [bind, Except.bind, not_steps_error, steps_char_iff]
  · split <;> simp [not_steps_error, steps_char_iff]
  · rename_i c _ notQuote _ _ _
    have notQuote : c ≠ '\x22' := notQuote
    split <;> simp [not_steps_error, steps_char_iff, notQuote]

/-- A character is read from a code, from another escape, or as it stands. -/
theorem steps_some_iff {opened cs left : List Char} {c : Char} :
    Steps (piece opened cs) (some c) left ↔
      (∃ after, cs = '\\' :: 'u' :: after ∧ Reads (codeEscape after) c left) ∨
      (∃ d, cs = '\\' :: d :: left ∧ simpleEscape? d = some c) ∨
      (cs = c :: left ∧ c ≠ '\x22' ∧ c ≠ '\\' ∧ 0x20 ≤ c.toNat) := by
  have noEscape : simpleEscape? 'u' = none := by decide
  -- A character that follows a backslash is read with it.
  have escaped (rest : List Char) : ¬ ('\\' :: rest = c :: left ∧ c ≠ '\x22' ∧ c ≠ '\\' ∧
      0x20 ≤ c.toNat) := by
    rintro ⟨same, -, other, -⟩
    exact other (List.cons.inj same).1.symm
  unfold piece
  split
  · simp [not_steps_error]
  · simpa [steps_stop_iff] using fun (same : '\x22' = c) _ other => absurd same.symm other
  · simp only [escaped, not_steps_error]
    simp
  · rename_i after
    simp only [escaped]
    cases found : codeEscape after with
    | error failure =>
      simp [not_reads_error, not_steps_error, found, noEscape, bind, Except.bind]
    | ok read =>
      obtain ⟨d, left⟩ := read
      simp [reads_ok_iff, steps_char_iff, found, noEscape, bind, Except.bind]
  · rename_i d rest notCode
    have notCode : d ≠ 'u' := notCode
    simp only [escaped]
    cases found : simpleEscape? d with
    | none => simp [not_steps_error, found, notCode]
    | some meaning => simp [steps_char_iff, found, notCode, and_comm]
  · rename_i d rest notQuote notLast notCode notEscape
    have other : d ≠ '\\' := by
      rintro rfl
      cases rest with
      | nil => exact notLast rfl rfl
      | cons e rest => exact notEscape _ _ rfl rfl
    split
    · rename_i control
      simpa [not_steps_error, other] using fun (same : d = c) _ _ _ => same ▸ control
    · rename_i printed
      have kept : d = c → rest = left → c ≠ '\x22' ∧ c ≠ '\\' ∧ 0x20 ≤ c.toNat := by
        rintro rfl -
        exact ⟨notQuote, other, Nat.le_of_not_lt printed⟩
      simpa [steps_char_iff, other] using kept

/-- A string is empty, or it is a character and the rest of the string. -/
theorem reads_stringBody_iff {opened cs body rest : List Char} :
    Reads (stringBody opened cs) body rest ↔
      (body = [] ∧ Steps (piece opened cs) none rest) ∨
      ∃ c left others, body = c :: others ∧ Steps (piece opened cs) (some c) left ∧
        Reads (stringBody opened left) others rest := by
  rw [stringBody]
  cases found : piece opened cs with
  | error failure => simp [not_reads_error, not_steps_error]
  | ok step =>
    cases step with
    | stop left => simp [reads_ok_iff, steps_stop_iff, eq_comm]
    | char c left =>
      obtain ⟨left, shorter⟩ := left
      cases inner : stringBody opened left with
      | error failure => simp [not_reads_error, steps_char_iff, inner]
      | ok read =>
        obtain ⟨others, rest, shorter'⟩ := read
        simpa [reads_ok_iff, steps_char_iff, inner] using fun _ => eq_comm

/-- Whether a code joins with what a string starts with does not depend on what follows the
string. -/
theorem alone_append_iff {text body : List Char} (quoted : Quoted text body) (code : Nat)
    (other : List Char) : Alone code (text ++ other) ↔ Unpaired code text := by
  constructor
  · rintro alone isHigh others after low rfl value
    obtain ⟨digits, left, _, same, nonempty, value'⟩ := quoted.exists_code (List.append_nil _)
    have ended : after ≠ [] := by
      have lengths := congrArg List.length same
      have long := List.length_pos_iff.2 nonempty
      simp only [List.length_cons, List.length_append, value.length, value'.length] at lengths
      exact List.length_pos_iff.1 (by omega)
    have code? : hexCode? (others ++ (after ++ other)) = some (low, after ++ other) :=
      hexCode?_eq_some_iff.2 ⟨by simp [ended], others, rfl, value⟩
    have long := List.length_pos_iff.2 ended
    obtain ⟨low', left', code', notLow⟩ := alone isHigh (others ++ (after ++ other)) (by simp)
      (by simp only [List.length_append, value.length]; omega)
    rw [code?] at code'
    cases code'
    exact notLow
  · rintro unpaired isHigh second starts -
    obtain ⟨digits, after, low, rfl, nonempty, value⟩ := quoted.exists_code starts
    refine ⟨low, after ++ other, hexCode?_eq_some_iff.2 ⟨by simp [nonempty], digits, ?_, value⟩,
      unpaired isHigh digits after low rfl value⟩
    simpa using starts.symm

/-- What is read as a string is one. -/
theorem quoted_of_reads {opened cs body rest : List Char}
    (h : Reads (stringBody opened cs) body rest) :
    ∃ text, cs = text ++ rest ∧ Quoted text body := by
  induction size : cs.length using Nat.strong_induction_on generalizing cs body with
  | _ n ih =>
    subst size
    rcases reads_stringBody_iff.1 h with ⟨rfl, ends⟩ | ⟨c, left, others, rfl, steps, read⟩
    · rw [steps_none_iff.1 ends]
      exact ⟨['\x22'], rfl, .close⟩
    · have shorter : left.length < cs.length := by
        obtain ⟨shorter, -⟩ := steps
        exact shorter
      obtain ⟨text, rfl, quoted⟩ := ih left.length shorter read rfl
      rcases steps_some_iff.1 steps with
        ⟨after, rfl, isCode⟩ | ⟨d, rfl, means⟩ | ⟨rfl, notQuote, notEscape, printed⟩
      · obtain ⟨code, behind, found, joins⟩ := reads_codeEscape_iff.1 isCode
        obtain ⟨-, digits, rfl, value⟩ := hexCode?_eq_some_iff.1 found
        rcases joins with ⟨low, rfl, isHigh, isLow, second, rfl, found'⟩ | ⟨alone, rfl, rfl⟩
        · obtain ⟨-, digits', rfl, value'⟩ := hexCode?_eq_some_iff.1 found'
          exact ⟨_, by simp, .pair value value' isHigh isLow quoted⟩
        · exact ⟨_, by simp, .code value ((alone_append_iff quoted code rest).1 alone) quoted⟩
      · exact ⟨_, rfl, .escape means quoted⟩
      · exact ⟨_, rfl, .plain notQuote notEscape printed quoted⟩

/-- A string is read, whatever follows it. -/
theorem reads_of_quoted {text body : List Char} (h : Quoted text body) (opened other : List Char) :
    Reads (stringBody opened (text ++ other)) body other := by
  have hexCode? {digits after : List Char} {code : Nat} (value : HexDigits digits code)
      (nonempty : after ≠ []) : hexCode? (digits ++ after) = some (code, after) :=
    hexCode?_eq_some_iff.2 ⟨nonempty, digits, rfl, value⟩
  induction h with
  | close => exact reads_stringBody_iff.2 (.inl ⟨rfl, steps_none_iff.2 rfl⟩)
  | plain notQuote notEscape printed _ ih =>
    exact reads_stringBody_iff.2 (.inr ⟨_, _, _, rfl,
      steps_some_iff.2 (.inr (.inr ⟨rfl, notQuote, notEscape, printed⟩)), ih⟩)
  | escape means _ ih =>
    exact reads_stringBody_iff.2 (.inr ⟨_, _, _, rfl,
      steps_some_iff.2 (.inr (.inl ⟨_, rfl, means⟩)), ih⟩)
  | @code digits text body code value alone quoted ih =>
    have nonempty : text ++ other ≠ [] := by simp [quoted.ne_nil]
    have isCode : Reads (codeEscape (digits ++ (text ++ other))) (Text.charOfCode code)
        (text ++ other) :=
      reads_codeEscape_iff.2 ⟨code, text ++ other, hexCode? value nonempty,
        .inr ⟨(alone_append_iff quoted code other).2 alone, rfl, rfl⟩⟩
    exact reads_stringBody_iff.2 (.inr ⟨_, _, _, rfl,
      steps_some_iff.2 (.inl ⟨_, by simp, isCode⟩), ih⟩)
  | @pair digits others text body high low first second isHigh isLow quoted ih =>
    have nonempty : text ++ other ≠ [] := by simp [quoted.ne_nil]
    have isCode : Reads (codeEscape (digits ++ '\\' :: 'u' :: (others ++ (text ++ other))))
        (Text.charOfHalves high low) (text ++ other) :=
      reads_codeEscape_iff.2 ⟨high, _, hexCode? first (List.cons_ne_nil _ _),
        .inl ⟨low, rfl, isHigh, isLow, _, rfl, hexCode? second nonempty⟩⟩
    exact reads_stringBody_iff.2 (.inr ⟨_, _, _, rfl,
      steps_some_iff.2 (.inl ⟨_, by simp, isCode⟩), ih⟩)

end Flowchart.Json.Reader
