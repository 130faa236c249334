import Flowchart.Proofs.Json.Quoted
import Mathlib.Data.List.TakeWhile

/-!
# Reading numbers and names

A number goes on as long as it can. So the reader takes what the grammar says, provided that what
follows does not look like more of the number; in a document, nothing of the sort can follow one.
-/

set_option autoImplicit false

namespace Flowchart.Json.Reader

/-! ## Parts of a number -/

/-- No digits go on with this text. -/
def EndsDigits (rest : List Char) : Prop := ∀ c ∈ rest.head?, c.isDigit = false

/-- No number goes on with this text. -/
def EndsNumeral (rest : List Char) : Prop :=
  ∀ c ∈ rest.head?, c.isDigit = false ∧ c ≠ '.' ∧ c ≠ 'e' ∧ c ≠ 'E'

/-- Where no number goes on, no digits do. -/
theorem EndsNumeral.endsDigits {rest : List Char} (h : EndsNumeral rest) : EndsDigits rest :=
  fun c first => (h c first).1

/-- All digits up to what ends them are read. -/
theorem takeDigits_append {digits rest : List Char} (allDigits : AllDigits digits)
    (ends : EndsDigits rest) : Number.takeDigits (digits ++ rest) = (digits, rest) := by
  rw [Number.takeDigits, List.takeWhile_append_of_pos allDigits,
    List.dropWhile_append_of_pos allDigits]
  cases rest with
  | nil => simp
  | cons c rest => simp [ends c rfl]

/-- What is read and what is left make up the text, and what is read are digits. -/
theorem takeDigits_spec (cs : List Char) :
    (Number.takeDigits cs).1 ++ (Number.takeDigits cs).2 = cs ∧
      AllDigits (Number.takeDigits cs).1 :=
  ⟨List.takeWhile_append_dropWhile, fun _ mem => List.mem_takeWhile_imp mem⟩

/-- The digits before the point are read up to what ends them. -/
theorem wholeDigits_append {whole rest : List Char} (isWhole : Whole whole)
    (ends : EndsDigits rest) : wholeDigits (whole ++ rest) = (whole, rest) := by
  cases isWhole with
  | zero => rfl
  | @digits c cs notZero isDigit allDigits =>
    have all : AllDigits (c :: cs) := by simpa [AllDigits] using And.intro isDigit allDigits
    unfold wholeDigits
    split
    · rename_i same
      exact absurd (List.cons.inj same).1 notZero
    · exact takeDigits_append all ends

/-- What is read before the point and what is left make up the text, and what is read is well
formed. -/
theorem wholeDigits_spec {cs : List Char} (given : (wholeDigits cs).1 ≠ []) :
    (wholeDigits cs).1 ++ (wholeDigits cs).2 = cs ∧ Whole (wholeDigits cs).1 := by
  unfold wholeDigits at given ⊢
  split
  · exact ⟨rfl, .zero⟩
  · rename_i notZero
    split at given
    · rename_i rest
      exact absurd rfl (notZero rest)
    · obtain ⟨whole, allDigits⟩ := takeDigits_spec cs
      refine ⟨whole, ?_⟩
      obtain ⟨c, digits, taken⟩ := List.exists_cons_of_ne_nil given
      rw [taken] at whole allDigits ⊢
      refine .digits ?_ (allDigits c List.mem_cons_self)
        fun d mem => allDigits d (List.mem_cons_of_mem c mem)
      rintro rfl
      exact notZero _ whole.symm

/-- A fraction is read up to what ends its digits. -/
theorem fractionDigits_append {point digits rest : List Char} (fraction : Fraction point digits)
    (ends : EndsDigits rest) (noPoint : ∀ c ∈ rest.head?, c ≠ '.') :
    fractionDigits (point ++ rest) = (digits, rest) := by
  cases fraction with
  | none =>
    rw [List.nil_append]
    unfold fractionDigits
    split
    · exact absurd rfl (noPoint '.' rfl)
    · rfl
  | some nonempty allDigits =>
    simp [fractionDigits, takeDigits_append allDigits ends, nonempty]

/-- What is read as a fraction and what is left make up the text, with the point in front. -/
theorem fractionDigits_spec (cs : List Char) :
    ∃ point, point ++ (fractionDigits cs).2 = cs ∧ Fraction point (fractionDigits cs).1 := by
  unfold fractionDigits
  split
  · rename_i rest
    obtain ⟨whole, allDigits⟩ := takeDigits_spec rest
    simp only
    split
    · exact ⟨[], rfl, .none⟩
    · rename_i given
      exact ⟨'.' :: (Number.takeDigits rest).1, by rw [List.cons_append, whole],
        .some (by simpa using given) allDigits⟩
  · exact ⟨[], rfl, .none⟩

/-- A sign in front of digits is read, and the digits are left. -/
theorem takeSign_append {sign digits : List Char} {negative : Bool} (signed : Sign sign negative)
    (nonempty : digits ≠ []) (allDigits : AllDigits digits) (rest : List Char) :
    Number.takeSign (sign ++ (digits ++ rest)) = (negative, digits ++ rest) := by
  cases signed with
  | none =>
    obtain ⟨c, digits, rfl⟩ := List.exists_cons_of_ne_nil nonempty
    have isDigit := allDigits c List.mem_cons_self
    unfold Number.takeSign
    split
    · rename_i same
      obtain rfl := (List.cons.inj same).1
      exact absurd isDigit (by decide)
    · rename_i same
      obtain rfl := (List.cons.inj same).1
      exact absurd isDigit (by decide)
    · rfl
  | plus | minus => rfl

/-- What is read as a sign and what is left make up the text. -/
theorem takeSign_spec (cs : List Char) :
    ∃ sign, sign ++ (Number.takeSign cs).2 = cs ∧ Sign sign (Number.takeSign cs).1 := by
  unfold Number.takeSign
  split
  · exact ⟨['-'], rfl, .minus⟩
  · exact ⟨['+'], rfl, .plus⟩
  · exact ⟨[], rfl, .none⟩

/-- An exponent is read up to what ends the number. -/
theorem exponentPart_append {power rest : List Char} {exponent : Option Int}
    (isPower : Exponent power exponent) (ends : EndsNumeral rest) :
    exponentPart (power ++ rest) = (exponent, rest) := by
  cases isPower with
  | none =>
    cases rest with
    | nil => rfl
    | cons c rest =>
      obtain ⟨-, -, notMark, notMarkToo⟩ := ends c rfl
      simp [exponentPart, notMark, notMarkToo]
  | some isMark signed nonempty allDigits =>
    simp [exponentPart, isMark, takeSign_append signed nonempty allDigits,
      takeDigits_append allDigits ends.endsDigits, nonempty]

/-- What is read as an exponent and what is left make up the text, with its mark in front. -/
theorem exponentPart_spec (cs : List Char) :
    ∃ power, power ++ (exponentPart cs).2 = cs ∧ Exponent power (exponentPart cs).1 := by
  unfold exponentPart
  split
  · exact ⟨[], rfl, .none⟩
  · rename_i mark rest
    obtain ⟨sign, behindSign, signed⟩ := takeSign_spec rest
    obtain ⟨behindDigits, allDigits⟩ := takeDigits_spec (Number.takeSign rest).2
    split
    · rename_i isMark
      simp only
      split
      · exact ⟨[], rfl, .none⟩
      · rename_i given
        refine ⟨mark :: (sign ++ (Number.takeDigits (Number.takeSign rest).2).1), ?_,
          .some (by simpa using isMark) signed (by simpa using given) allDigits⟩
        rw [List.cons_append, List.append_assoc, behindDigits, behindSign]
    · exact ⟨[], rfl, .none⟩

/-! ## Numbers -/

/-- The reader of numbers in its parts. -/
theorem reads_number_iff {negative : Bool} {unsigned rest : List Char} {v : Json}
    (plain : negative = false → unsigned.head? ≠ some '-') :
    Reads (number ((if negative then ['-'] else []) ++ unsigned)) v rest ↔
      ∃ whole afterWhole digits afterPoint exponent, wholeDigits unsigned = (whole, afterWhole) ∧
        whole ≠ [] ∧ fractionDigits afterWhole = (digits, afterPoint) ∧
        exponentPart afterPoint = (exponent, rest) ∧
        numberValue negative whole digits exponent = .ok v := by
  have head : (((if negative then ['-'] else []) ++ unsigned).head? == some '-') = negative := by
    cases negative with
    | true => rfl
    | false => simpa using plain rfl
  have tail : (if negative then ((if negative then ['-'] else []) ++ unsigned).tail
      else (if negative then ['-'] else []) ++ unsigned) = unsigned := by
    cases negative <;> rfl
  unfold number
  simp only [head, tail]
  constructor
  · intro h
    split at h
    · exact absurd h not_reads_error
    · rename_i given
      cases value : numberValue negative (wholeDigits unsigned).1
        (fractionDigits (wholeDigits unsigned).2).1
        (exponentPart (fractionDigits (wholeDigits unsigned).2).2).1 with
      | error failure =>
        rw [value] at h
        exact absurd h not_reads_error
      | ok number =>
        rw [value, Except.map, reads_ok_iff] at h
        obtain ⟨rfl, rfl⟩ := h
        exact ⟨_, _, _, _, _, rfl, given, rfl, rfl, value⟩
  · rintro ⟨whole, afterWhole, digits, afterPoint, exponent, cut, given, cutPoint, cutPower, value⟩
    simp [cut, cutPoint, cutPower, given, value, Except.map, reads_ok_iff]

/-- What is read as a number is one. -/
theorem numeral_of_reads {cs rest : List Char} {v : Json} (h : Reads (number cs) v rest) :
    ∃ text, cs = text ++ rest ∧ Numeral text v := by
  obtain ⟨negative, unsigned, rfl, plain⟩ : ∃ negative unsigned,
      cs = (if negative then ['-'] else []) ++ unsigned ∧
        (negative = false → unsigned.head? ≠ some '-') := by
    cases minus : cs.head? == some '-' with
    | true =>
      obtain ⟨rest, rfl⟩ := List.head?_eq_some_iff.1 (eq_of_beq minus)
      exact ⟨true, rest, rfl, by simp⟩
    | false => exact ⟨false, cs, rfl, by simpa using minus⟩
  obtain ⟨whole, afterWhole, digits, afterPoint, exponent, cut, given, cutPoint, cutPower, value⟩ :=
    (reads_number_iff plain).1 h
  obtain ⟨behindWhole, isWhole⟩ := wholeDigits_spec (by rwa [cut] : (wholeDigits unsigned).1 ≠ [])
  obtain ⟨point, behindPoint, fraction⟩ := fractionDigits_spec afterWhole
  obtain ⟨power, behindPower, isPower⟩ := exponentPart_spec afterPoint
  rw [cut] at behindWhole isWhole
  rw [cutPoint] at behindPoint fraction
  rw [cutPower] at behindPower isPower
  refine ⟨_, ?_, .mk isWhole fraction isPower value⟩
  simp only [List.append_assoc, behindPower, behindPoint, behindWhole]

/-- A number is read, if what follows does not go on with it. -/
theorem reads_of_numeral {text rest : List Char} {v : Json} (h : Numeral text v)
    (ends : EndsNumeral rest) : Reads (number (text ++ rest)) v rest := by
  cases h with
  | @mk negative whole point digits power exponent _ isWhole fraction isPower value =>
    have powerEnds : ∀ c ∈ (power ++ rest).head?, c.isDigit = false ∧ c ≠ '.' := by
      cases isPower with
      | none => exact fun c first => ⟨(ends c first).1, (ends c first).2.1⟩
      | some isMark =>
        rintro c ⟨⟩
        rcases isMark with rfl | rfl <;> decide
    have pointEnds : EndsDigits (point ++ (power ++ rest)) := by
      cases fraction with
      | none => exact fun c first => (powerEnds c first).1
      | some =>
        rintro c ⟨⟩
        decide
    obtain ⟨c, others, rfl, isDigit⟩ := isWhole.exists_digit
    have plain : negative = false →
        (c :: others ++ (point ++ (power ++ rest))).head? ≠ some '-' := by
      rintro - ⟨⟩
      exact absurd isDigit (by decide)
    rw [List.append_assoc, List.append_assoc, List.append_assoc, reads_number_iff plain]
    exact ⟨_, _, _, _, _, wholeDigits_append isWhole pointEnds, List.cons_ne_nil _ _,
      fractionDigits_append fraction (fun c first => (powerEnds c first).1)
        (fun c first => (powerEnds c first).2), exponentPart_append isPower ends, value⟩

/-! ## Names -/

/-- No value has an empty name. -/
theorem ne_nil_of_mem_names {name : List Char} {v : Json} (mem : (name, v) ∈ names) :
    name ≠ [] := by
  have nonempty : ∀ name ∈ names.map Prod.fst, name ≠ [] := by decide
  exact nonempty name (List.mem_map_of_mem mem)

/-- No two names start with the same character. -/
theorem nodup_heads_names : (names.map fun entry => entry.1.head?).Nodup := by
  decide

/-- A name is read where it stands. Names are told apart by their first characters, so no other name
gets in its way. -/
theorem exists_name?_iff {cs left : List Char} {v : Json} :
    (∃ shorter, name? cs = some (v, ⟨left, shorter⟩)) ↔
      ∃ name, (name, v) ∈ names ∧ cs = name ++ left := by
  constructor
  · rintro ⟨shorter, found⟩
    obtain ⟨⟨name, v'⟩, mem, fits⟩ := List.exists_of_findSome?_eq_some found
    simp only [Option.dite_none_right_eq_some, Option.some.injEq, Prod.mk.injEq] at fits
    obtain ⟨⟨isPrefix, _⟩, rfl, rest⟩ := fits
    have dropped : cs.drop name.length = left := congrArg Subtype.val rest
    refine ⟨name, mem, ?_⟩
    rw [← dropped]
    exact (List.prefix_iff_eq_append.1 (List.isPrefixOf_iff_prefix.1 isPrefix)).symm
  · rintro ⟨name, mem, rfl⟩
    have nonempty := ne_nil_of_mem_names mem
    have shorter : left.length < (name ++ left).length := by simp [List.length_pos_iff, nonempty]
    obtain ⟨before, behind, split⟩ := List.append_of_mem mem
    refine ⟨shorter, List.findSome?_eq_some_iff.2 ⟨before, (name, v), behind, split, ?_, ?_⟩⟩
    · simp [nonempty]
    · rintro ⟨other, v'⟩ isBefore
      refine dif_neg ?_
      rintro ⟨isPrefix, nonemptyToo⟩
      -- The other name would start with the same character as this one.
      have same : other.head? = name.head? := by
        obtain ⟨rest, whole⟩ := List.isPrefixOf_iff_prefix.1 isPrefix
        have heads := congrArg List.head? whole
        rwa [List.head?_append_of_ne_nil _ nonemptyToo, List.head?_append_of_ne_nil _ nonempty]
          at heads
      have nodup := nodup_heads_names
      rw [split, List.map_append, List.map_cons, List.nodup_append] at nodup
      exact nodup.2.2 _ (List.mem_map_of_mem isBefore) _ List.mem_cons_self same

/-- No name is read from a numeral. -/
theorem name?_eq_none {text : List Char} {v : Json} (h : Numeral text v) (rest : List Char) :
    name? (text ++ rest) = none := by
  rw [Option.eq_none_iff_forall_ne_some]
  rintro ⟨v', left, shorter⟩ found
  obtain ⟨name, mem, whole⟩ := exists_name?_iff.1 ⟨shorter, found⟩
  obtain ⟨c, others, isDigit, starts⟩ := h.exists_digit
  simp only [names, List.mem_cons, List.not_mem_nil, or_false, Prod.mk.injEq] at mem
  rcases mem with ⟨rfl, -⟩ | ⟨rfl, -⟩ | ⟨rfl, -⟩ | ⟨rfl, -⟩ | ⟨rfl, -⟩ | ⟨rfl, -⟩ <;>
    rcases starts with rfl | rfl <;> simp at whole
  all_goals exact absurd isDigit (by rw [whole.1]; decide)

/-- Nothing in a text goes on with a value. Only numbers go on. -/
def EndsValue : Json → List Char → Prop
  | .int _, rest | .float _, rest => EndsNumeral rest
  | _, _ => True

/-- What no number goes on with, no value goes on with. -/
theorem EndsNumeral.endsValue {rest : List Char} (h : EndsNumeral rest) (v : Json) :
    EndsValue v rest := by
  cases v with
  | int | float => exact h
  | _ => trivial

/-- What a number does not go on with ends its numeral. -/
theorem endsNumeral_of_endsValue {text rest : List Char} {v : Json} (isNumeral : Numeral text v)
    (ends : EndsValue v rest) : EndsNumeral rest := by
  rcases isNumeral.isNumber with ⟨n, rfl⟩ | ⟨x, rfl⟩
  · exact ends
  · exact ends

end Flowchart.Json.Reader
