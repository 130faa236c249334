import Flowchart.Json.Reader
import Mathlib.Data.List.Chain

/-!
# The grammar of JSON documents

Which texts spell a value out. A string holds no control characters, a number has no needless zero
in front and no point or exponent without digits, and containers hold their parts between commas,
with white space around them. Values are spelled without white space at their ends. What the grammar
says about line feeds is used later on: they are white space, so what follows one is never a
backtick.
-/

set_option autoImplicit false

namespace Flowchart.Json

/-! ## Strings -/

/-- Four hexadecimal digits and their value. -/
inductive HexDigits : List Char → Nat → Prop
  | mk {a b c d : Char} {p q r s : Nat} (first : Number.hexDigit? a = some p)
      (second : Number.hexDigit? b = some q) (third : Number.hexDigit? c = some r)
      (fourth : Number.hexDigit? d = some s) :
      HexDigits [a, b, c, d] (((p * 16 + q) * 16 + r) * 16 + s)

/-- The digits of a code are four. -/
theorem HexDigits.length {digits : List Char} {code : Nat} (h : HexDigits digits code) :
    digits.length = 4 := by
  cases h
  rfl

/-- The text behind a code does not start with another half that the code would join with. -/
def Unpaired (code : Nat) (text : List Char) : Prop :=
  Text.isHighHalf code = true → ∀ others after low,
    text = '\\' :: 'u' :: (others ++ after) → HexDigits others low → Text.isLowHalf low = false

/-- The text of a string behind its opening quote, and the characters that it stands for. -/
inductive Quoted : List Char → List Char → Prop
  | close : Quoted ['\x22'] []
  | plain {c : Char} {text body : List Char} (notQuote : c ≠ '\x22') (notEscape : c ≠ '\\')
      (printed : 0x20 ≤ c.toNat) (rest : Quoted text body) : Quoted (c :: text) (c :: body)
  | escape {c meaning : Char} {text body : List Char}
      (means : Reader.simpleEscape? c = some meaning) (rest : Quoted text body) :
      Quoted ('\\' :: c :: text) (meaning :: body)
  /-- A code stands for itself, unless it is the first half of a pair. -/
  | code {digits text body : List Char} {code : Nat} (value : HexDigits digits code)
      (alone : Unpaired code text) (rest : Quoted text body) :
      Quoted ('\\' :: 'u' :: (digits ++ text)) (Text.charOfCode code :: body)
  | pair {digits others text body : List Char} {high low : Nat} (first : HexDigits digits high)
      (second : HexDigits others low) (isHigh : Text.isHighHalf high = true)
      (isLow : Text.isLowHalf low = true) (rest : Quoted text body) :
      Quoted ('\\' :: 'u' :: (digits ++ '\\' :: 'u' :: (others ++ text)))
        (Text.charOfHalves high low :: body)

/-- Even an empty string has its closing quote. -/
theorem Quoted.ne_nil {text body : List Char} (h : Quoted text body) : text ≠ [] := by
  cases h <;> simp

/-- What a string starts with if it starts with a code. -/
theorem Quoted.exists_code {text body other second : List Char} (h : Quoted text body)
    (starts : text ++ other = '\\' :: 'u' :: second) :
    ∃ digits after code, text = '\\' :: 'u' :: (digits ++ after) ∧ after ≠ [] ∧
      HexDigits digits code := by
  cases h with
  | close => cases starts
  | plain _ notEscape => exact absurd (List.cons.inj starts).1 notEscape
  | escape means =>
    have isCode := (List.cons.inj (List.cons.inj starts).2).1
    have noEscape : Reader.simpleEscape? 'u' = none := by decide
    rw [isCode, noEscape] at means
    cases means
  | code value _ rest => exact ⟨_, _, _, rfl, rest.ne_nil, value⟩
  | pair first => exact ⟨_, _, _, rfl, List.cons_ne_nil _ _, first⟩

/-! ## Numbers -/

/-- A text of decimal digits. -/
def AllDigits (cs : List Char) : Prop := ∀ c ∈ cs, c.isDigit = true

/-- The digits before the point. -/
inductive Whole : List Char → Prop
  | zero : Whole ['0']
  | digits {c : Char} {cs : List Char} (notZero : c ≠ '0') (isDigit : c.isDigit = true)
      (allDigits : AllDigits cs) : Whole (c :: cs)

/-- A point with digits, or nothing, and the digits. -/
inductive Fraction : List Char → List Char → Prop
  | none : Fraction [] []
  | some {digits : List Char} (nonempty : digits ≠ []) (allDigits : AllDigits digits) :
      Fraction ('.' :: digits) digits

/-- The sign of an exponent. -/
inductive Sign : List Char → Bool → Prop
  | none : Sign [] false
  | plus : Sign ['+'] false
  | minus : Sign ['-'] true

/-- A letter E with a number, or nothing, and the number. -/
inductive Exponent : List Char → Option Int → Prop
  | none : Exponent [] none
  | some {mark : Char} {sign digits : List Char} {negative : Bool}
      (isMark : mark = 'e' ∨ mark = 'E') (signed : Sign sign negative) (nonempty : digits ≠ [])
      (allDigits : AllDigits digits) :
      Exponent (mark :: (sign ++ digits))
        (some (if negative then -(Number.digitsValue digits : Int) else Number.digitsValue digits))

/-- The text of a number and its value. -/
inductive Numeral : List Char → Json → Prop
  | mk {negative : Bool} {whole point digits power : List Char} {exponent : Option Int} {v : Json}
      (isWhole : Whole whole) (fraction : Fraction point digits) (isPower : Exponent power exponent)
      (value : Reader.numberValue negative whole digits exponent = .ok v) :
      Numeral ((if negative then ['-'] else []) ++ (whole ++ (point ++ power))) v

/-- A numeral stands for an integer or for a floating-point value. -/
theorem Numeral.isNumber {text : List Char} {v : Json} (h : Numeral text v) :
    (∃ n, v = .int n) ∨ ∃ x, v = .float x := by
  cases h with
  | mk _ _ _ value =>
    unfold Reader.numberValue at value
    split at value
    · split at value
      · cases value
      · cases value
        exact .inl ⟨_, rfl⟩
    · cases value
      exact .inr ⟨_, rfl⟩

/-! ## Values -/

/-- What parts of a document spell: a value, the items of an array with the bracket after them, a
key with a value, and the fields of an object with the brace after them. -/
inductive Phrase where
  | value (v : Json)
  | items (vs : List Json)
  | field (key : String) (v : Json)
  | fields (members : List (String × Json))

/-- A text of white space. -/
def AllSpace (cs : List Char) : Prop := ∀ c ∈ cs, Reader.isSpace c = true

/-- The fields of an object that gives these values to keys. The last value of a key counts. -/
def Fields.ofMembers (members : List (String × Json)) : Fields :=
  members.foldl (fun known (key, v) => known.put key v) []

/-- The texts that spell a phrase with at most so many containers inside each other. -/
inductive Spells : Nat → Phrase → List Char → Prop
  | string {depth : Nat} {text body : List Char} (quoted : Quoted text body) :
      Spells depth (.value (.string (String.ofList body))) ('\x22' :: text)
  | name {depth : Nat} {name : List Char} {v : Json} (isName : (name, v) ∈ Reader.names) :
      Spells depth (.value v) name
  | numeral {depth : Nat} {text : List Char} {v : Json} (isNumeral : Numeral text v) :
      Spells depth (.value v) text
  | emptyArray {depth : Nat} {space : List Char} (blank : AllSpace space) :
      Spells (depth + 1) (.value (.array [])) ('[' :: (space ++ [']']))
  | array {depth : Nat} {space text : List Char} {vs : List Json} (blank : AllSpace space)
      (items : Spells depth (.items vs) text) :
      Spells (depth + 1) (.value (.array vs)) ('[' :: (space ++ text))
  | emptyObject {depth : Nat} {space : List Char} (blank : AllSpace space) :
      Spells (depth + 1) (.value (.object [])) ('\x7b' :: (space ++ ['\x7d']))
  | object {depth : Nat} {space text : List Char} {members : List (String × Json)}
      (blank : AllSpace space) (fields : Spells depth (.fields members) text) :
      Spells (depth + 1) (.value (.object (Fields.ofMembers members))) ('\x7b' :: (space ++ text))
  | lastItem {depth : Nat} {text space : List Char} {v : Json}
      (item : Spells depth (.value v) text) (blank : AllSpace space) :
      Spells depth (.items [v]) (text ++ (space ++ [']']))
  | nextItem {depth : Nat} {text space between more : List Char} {v : Json} {vs : List Json}
      (item : Spells depth (.value v) text) (blank : AllSpace space) (blankToo : AllSpace between)
      (others : Spells depth (.items vs) more) :
      Spells depth (.items (v :: vs)) (text ++ (space ++ ',' :: (between ++ more)))
  | field {depth : Nat} {quoted key space between text : List Char} {v : Json}
      (isKey : Quoted quoted key) (blank : AllSpace space) (blankToo : AllSpace between)
      (item : Spells depth (.value v) text) :
      Spells depth (.field (String.ofList key) v)
        ('\x22' :: (quoted ++ (space ++ ':' :: (between ++ text))))
  | lastField {depth : Nat} {text space : List Char} {key : String} {v : Json}
      (field : Spells depth (.field key v) text) (blank : AllSpace space) :
      Spells depth (.fields [(key, v)]) (text ++ (space ++ ['\x7d']))
  | nextField {depth : Nat} {text space between more : List Char} {key : String} {v : Json}
      {members : List (String × Json)} (field : Spells depth (.field key v) text)
      (blank : AllSpace space) (blankToo : AllSpace between)
      (others : Spells depth (.fields members) more) :
      Spells depth (.fields ((key, v) :: members)) (text ++ (space ++ ',' :: (between ++ more)))

/-- The text spells a value that has no more than `depth` containers inside each other, with white
space around it. -/
def IsDocument (depth : Nat) (text : List Char) (v : Json) : Prop :=
  ∃ before inner after, text = before ++ inner ++ after ∧
    AllSpace before ∧ AllSpace after ∧ Spells depth (.value v) inner

/-! ## How texts begin -/

/-- A character that a phrase can begin with, as far as it matters here. -/
structure Opens (c : Char) : Prop where
  notSpace : Reader.isSpace c = false
  notBracket : c ≠ ']'
  notBrace : c ≠ '\x7d'
  notBacktick : c ≠ '\x60'

/-- A phrase can begin with a digit. -/
theorem Opens.of_isDigit {c : Char} (h : c.isDigit = true) : Opens c := by
  constructor
  · by_contra space
    simp only [Reader.isSpace, Bool.not_eq_false, Bool.or_eq_true, decide_eq_true_eq] at space
    rcases space with ((rfl | rfl) | rfl) | rfl <;> exact absurd h (by decide)
  all_goals rintro rfl; exact absurd h (by decide)

/-- The digits before the point begin with a digit. -/
theorem Whole.exists_digit {cs : List Char} (h : Whole cs) :
    ∃ c rest, cs = c :: rest ∧ c.isDigit = true := by
  cases h with
  | zero => exact ⟨'0', [], rfl, by decide⟩
  | digits _ isDigit => exact ⟨_, _, rfl, isDigit⟩

/-- A number starts with a digit, behind its sign if it has one. -/
theorem Numeral.exists_digit {text : List Char} {v : Json} (h : Numeral text v) :
    ∃ c rest, c.isDigit = true ∧ (text = c :: rest ∨ text = '-' :: c :: rest) := by
  cases h with
  | @mk negative whole point digits power exponent _ isWhole =>
    obtain ⟨c, rest, rfl, isDigit⟩ := isWhole.exists_digit
    refine ⟨c, rest ++ (point ++ power), isDigit, ?_⟩
    cases negative with
    | false => exact .inl rfl
    | true => exact .inr rfl

/-- A phrase begins with a character that neither is white space nor closes a container. -/
theorem Spells.exists_opens {depth : Nat} {phrase : Phrase} {text : List Char}
    (h : Spells depth phrase text) : ∃ c rest, text = c :: rest ∧ Opens c := by
  have opens {c : Char} (known : c ∈ ['\x22', '[', '\x7b', 'n', 't', 'f', 'N', 'I', '-']) :
      Opens c := by
    simp only [List.mem_cons, List.not_mem_nil, or_false] at known
    rcases known with rfl | rfl | rfl | rfl | rfl | rfl | rfl | rfl | rfl <;>
      exact ⟨by decide, by decide, by decide, by decide⟩
  induction h with
  | string | field => exact ⟨_, _, rfl, opens (by decide)⟩
  | emptyArray | array | emptyObject | object => exact ⟨_, _, rfl, opens (by decide)⟩
  | name isName =>
    simp only [Reader.names, List.mem_cons, List.not_mem_nil, or_false, Prod.mk.injEq] at isName
    rcases isName with ⟨rfl, -⟩ | ⟨rfl, -⟩ | ⟨rfl, -⟩ | ⟨rfl, -⟩ | ⟨rfl, -⟩ | ⟨rfl, -⟩ <;>
      exact ⟨_, _, rfl, opens (by decide)⟩
  | numeral isNumeral =>
    obtain ⟨c, rest, isDigit, rfl | rfl⟩ := isNumeral.exists_digit
    · exact ⟨c, rest, rfl, .of_isDigit isDigit⟩
    · exact ⟨'-', c :: rest, rfl, opens (by decide)⟩
  | lastItem _ _ ih | nextItem _ _ _ _ ih | lastField _ _ ih | nextField _ _ _ _ ih =>
    obtain ⟨c, rest, rfl, isOpening⟩ := ih
    exact ⟨c, _, rfl, isOpening⟩

/-! ## Braces -/

/-- The fields of an object end in its closing brace. -/
theorem Spells.brace_suffix {depth : Nat} {members : List (String × Json)} {text : List Char}
    (h : Spells depth (.fields members) text) : ['\x7d'] <:+ text := by
  generalize same : Phrase.fields members = phrase at h
  induction h generalizing members with
  | @lastField depth text space =>
    exact (List.suffix_append space _).trans (List.suffix_append text _)
  | @nextField depth text space between more _ _ _ _ _ _ _ _ ih =>
    have others : more <:+ space ++ ',' :: (between ++ more) :=
      ⟨space ++ ',' :: between, by simp⟩
    exact (ih rfl).trans (others.trans (List.suffix_append text _))
  | _ => cases same

/-- An object stands between braces. -/
theorem Spells.braces {depth : Nat} {fields : Fields} {text : List Char}
    (h : Spells depth (.value (.object fields)) text) :
    ∃ middle, text = '\x7b' :: middle ∧ ['\x7d'] <:+ middle := by
  cases h with
  | name isName => simp [Reader.names] at isName
  | numeral isNumeral => rcases isNumeral.isNumber with ⟨n, same⟩ | ⟨x, same⟩ <;> cases same
  | emptyObject => exact ⟨_, rfl, List.suffix_append _ _⟩
  | object _ members => exact ⟨_, rfl, members.brace_suffix.trans (List.suffix_append _ _)⟩

/-! ## How lines begin -/

/-- No line of the text starts with a backtick. -/
def Calm (cs : List Char) : Prop :=
  ('\n' :: cs).IsChain fun c d => c = '\n' → d ≠ '\x60'

/-- No line of two texts starts with a backtick if no line of either does. -/
theorem Calm.append {cs ds : List Char} (first : Calm cs) (second : Calm ds) : Calm (cs ++ ds) := by
  rw [Calm, ← List.cons_append]
  refine List.IsChain.append first (List.IsChain.tail second) ?_
  intro c _ d isHead _
  exact List.IsChain.rel_head? second isHead rfl

/-- A text without backticks is calm. -/
theorem calm_of_quiet {cs : List Char} (quiet : '\x60' ∉ cs) : Calm cs := by
  suffices chain : ∀ c, (c :: cs).IsChain fun c d => c = '\n' → d ≠ '\x60' from chain '\n'
  induction cs with
  | nil => exact fun c => .singleton c
  | cons d cs ih =>
    rw [List.mem_cons, not_or] at quiet
    exact fun c => (ih quiet.2 d).cons_cons fun _ same => quiet.1 same.symm

/-- A single line is all right if it does not start with a backtick itself. -/
theorem calm_of_oneLine {c : Char} {cs : List Char} (other : c ≠ '\x60') (notFeed : c ≠ '\n')
    (oneLine : '\n' ∉ cs) : Calm (c :: cs) := by
  suffices chain : ∀ c, c ≠ '\n' → (c :: cs).IsChain fun c d => c = '\n' → d ≠ '\x60' from
    (chain c notFeed).cons_cons fun _ => other
  clear other notFeed
  induction cs with
  | nil => exact fun c _ => .singleton c
  | cons d cs ih =>
    rw [List.mem_cons, not_or] at oneLine
    exact fun c notFeed => (ih oneLine.2 d (Ne.symm oneLine.1)).cons_cons
      fun feed => absurd feed notFeed

/-- A single character is calm unless it is a backtick. -/
theorem calm_singleton {c : Char} (other : c ≠ '\x60') : Calm [c] :=
  calm_of_quiet (by simpa using other.symm)

/-- A character in front of a calm text leaves it calm unless it is a backtick. -/
theorem calm_cons {c : Char} {cs : List Char} (other : c ≠ '\x60') (h : Calm cs) : Calm (c :: cs) :=
  (calm_singleton other).append h

/-- White space is calm. -/
theorem AllSpace.calm {cs : List Char} (h : AllSpace cs) : Calm cs :=
  calm_of_quiet fun mem => absurd (h _ mem) (by decide)

/-- The digits of a code are on one line. -/
theorem HexDigits.oneLine {digits : List Char} {code : Nat} (h : HexDigits digits code) :
    '\n' ∉ digits := by
  have noFeed {c : Char} {n : Nat} (value : Number.hexDigit? c = some n) : '\n' ≠ c := by
    rintro rfl
    have noDigit : Number.hexDigit? '\n' = none := by decide
    exact absurd (noDigit.symm.trans value) (by simp)
  cases h with
  | mk first second third fourth =>
    simp [noFeed first, noFeed second, noFeed third, noFeed fourth]

/-- A string is on one line, since it holds no control characters. -/
theorem Quoted.oneLine {text body : List Char} (h : Quoted text body) : '\n' ∉ text := by
  induction h with
  | close => decide
  | plain _ _ printed _ ih =>
    rw [List.mem_cons, not_or]
    refine ⟨?_, ih⟩
    rintro rfl
    exact absurd printed (by decide)
  | escape means _ ih =>
    simp only [List.mem_cons, not_or]
    refine ⟨by decide, ?_, ih⟩
    rintro rfl
    have noEscape : Reader.simpleEscape? '\n' = none := by decide
    exact absurd (noEscape.symm.trans means) (by simp)
  | code value _ _ ih =>
    simp only [List.mem_cons, List.mem_append, not_or]
    exact ⟨by decide, by decide, value.oneLine, ih⟩
  | pair first second _ _ _ ih =>
    simp only [List.mem_cons, List.mem_append, not_or]
    exact ⟨by decide, by decide, first.oneLine, by decide, by decide, second.oneLine, ih⟩

/-- Numbers are made of a few characters, none of which matters to lines. -/
theorem Numeral.quiet {text : List Char} {v : Json} (h : Numeral text v) : '\x60' ∉ text := by
  have digitsQuiet {cs : List Char} (digits : AllDigits cs) : '\x60' ∉ cs :=
    fun mem => absurd (digits _ mem) (by decide)
  cases h with
  | @mk negative whole point digits power exponent _ isWhole fraction isPower =>
    have first : '\x60' ∉ (if negative then ['-'] else [] : List Char) := by
      cases negative <;> decide
    have second : '\x60' ∉ whole := by
      cases isWhole with
      | zero => decide
      | digits _ isDigit allDigits =>
        apply digitsQuiet
        simpa [AllDigits] using And.intro isDigit allDigits
    have third : '\x60' ∉ point := by
      cases fraction with
      | none => decide
      | some _ allDigits =>
        rw [List.mem_cons, not_or]
        exact ⟨by decide, digitsQuiet allDigits⟩
    have fourth : '\x60' ∉ power := by
      cases isPower with
      | none => decide
      | some isMark signed _ allDigits =>
        simp only [List.mem_cons, List.mem_append, not_or]
        refine ⟨?_, ?_, digitsQuiet allDigits⟩
        · rcases isMark with rfl | rfl <;> decide
        · cases signed <;> decide
    simp only [List.mem_append, not_or]
    exact ⟨first, second, third, fourth⟩

/-- The names of values hold no backticks. -/
theorem quiet_of_mem_names {name : List Char} {v : Json} (mem : (name, v) ∈ Reader.names) :
    '\x60' ∉ name := by
  have quiet : ∀ name ∈ Reader.names.map Prod.fst, '\x60' ∉ name := by decide
  exact quiet name (List.mem_map_of_mem mem)

/-- No line of a phrase starts with a backtick: line feeds are white space between its parts, and
backticks stand in strings only. -/
theorem Spells.calm {depth : Nat} {phrase : Phrase} {text : List Char}
    (h : Spells depth phrase text) : Calm text := by
  have quote {text body : List Char} (quoted : Quoted text body) : Calm ('\x22' :: text) :=
    calm_of_oneLine (by decide) (by decide) quoted.oneLine
  induction h with
  | string quoted => exact quote quoted
  | name isName => exact calm_of_quiet (quiet_of_mem_names isName)
  | numeral isNumeral => exact calm_of_quiet isNumeral.quiet
  | emptyArray blank | emptyObject blank =>
    exact calm_cons (by decide) (blank.calm.append (calm_singleton (by decide)))
  | array blank _ ih | object blank _ ih => exact calm_cons (by decide) (blank.calm.append ih)
  | lastItem _ blank ih | lastField _ blank ih =>
    exact ih.append (blank.calm.append (calm_singleton (by decide)))
  | nextItem _ blank blankToo _ ih ihMore | nextField _ blank blankToo _ ih ihMore =>
    exact ih.append (blank.calm.append (calm_cons (by decide) (blankToo.calm.append ihMore)))
  | field isKey blank blankToo _ ih =>
    exact (quote isKey).append (blank.calm.append (calm_cons (by decide) (blankToo.calm.append ih)))

end Flowchart.Json
