import Flowchart.Text.Blank

/-!
# Reading numerals

The values of digits, the floating-point number that a decimal numeral stands for, and the grammar
of the numerals that people write by hand: an optional sign, then digits with at most one point
among or beside them and an optional exponent, or a name for infinity or for no number.
-/

set_option autoImplicit false

namespace Flowchart.Number

/-- The value of a list of decimal digits. -/
def digitsValue (digits : List Char) : Nat :=
  digits.foldl (fun value c => 10 * value + (c.toNat - '0'.toNat)) 0

/-- The value of a hexadecimal digit. -/
def hexDigit? (c : Char) : Option Nat :=
  if c.isDigit then some (c.toNat - '0'.toNat)
  else if 'a' ≤ c && c ≤ 'f' then some (c.toNat - 'a'.toNat + 10)
  else if 'A' ≤ c && c ≤ 'F' then some (c.toNat - 'A'.toNat + 10)
  else none

/-- The number nearest to `digits * 10 ^ exponent`. Exponents far beyond the range of floating-point
numbers are settled without computing the power. -/
def nearestFloat (digits : Nat) (exponent : Int) : Float :=
  if digits = 0 then 0.0
  else
    let leading := ((Nat.toDigits 10 digits).length : Int) + exponent
    if 400 < leading then 1.0 / 0.0
    else if leading < -400 then 0.0
    else Float.ofScientific digits (exponent < 0) exponent.natAbs

/-- The number with a sign in front. -/
def signed (negative : Bool) (x : Float) : Float :=
  if negative then -x else x

/-- Splits a text after its leading decimal digits. -/
def takeDigits (cs : List Char) : List Char × List Char :=
  (cs.takeWhile Char.isDigit, cs.dropWhile Char.isDigit)

/-- Reads an optional sign: whether it is a minus, and what follows. -/
def takeSign : List Char → Bool × List Char
  | '-' :: rest => (true, rest)
  | '+' :: rest => (false, rest)
  | rest => (false, rest)

/-- The exponent that ends a numeral: none, or a letter E with an optionally signed number. -/
def exponent? : List Char → Option Int
  | [] => some 0
  | mark :: rest =>
    if mark = 'e' || mark = 'E' then
      let (negative, unsigned) := takeSign rest
      let (digits, after) := takeDigits unsigned
      if digits.isEmpty || !after.isEmpty then none
      else some (if negative then -(digitsValue digits : Int) else digitsValue digits)
    else none

/-- The value of an unsigned numeral in digits. -/
def decimalNumeral? (cs : List Char) : Option Float :=
  let (whole, rest) := takeDigits cs
  let (fraction, rest) := match rest with
    | '.' :: rest => takeDigits rest
    | rest => ([], rest)
  if whole.isEmpty && fraction.isEmpty then none
  else (exponent? rest).map fun e =>
    nearestFloat (digitsValue (whole ++ fraction)) (e - fraction.length)

/-- The value of an unsigned numeral, in digits or by name. Case does not count in names. -/
def unsignedNumeral? (cs : List Char) : Option Float :=
  let name := String.ofList (cs.map Char.toLower)
  if name = "inf" || name = "infinity" then some (1.0 / 0.0)
  else if name = "nan" then some (0.0 / 0.0)
  else decimalNumeral? cs

/-- The value of a numeral with an optional sign. -/
def numeral? (cs : List Char) : Option Float :=
  let (negative, unsigned) := takeSign cs
  (unsignedNumeral? unsigned).map (signed negative)

/-- The blank characters that may stand around a numeral: all but the information separators. -/
def isNumeralSpace (c : Char) : Bool :=
  Text.isBlank c && !(0x1C ≤ c.toNat && c.toNat ≤ 0x1F)

/-- Drops the space around a numeral. -/
def trimNumeral (cs : List Char) : List Char :=
  ((cs.dropWhile isNumeralSpace).reverse.dropWhile isNumeralSpace).reverse

/-- Removes the underscores from a numeral, provided that each of them has a decimal digit on
either side. The first argument is the character in front of the text. -/
def dropGrouping (before : Char) : List Char → Option (List Char)
  | [] => some []
  | '_' :: after :: rest =>
    if before.isDigit && after.isDigit then (dropGrouping after rest).map (after :: ·) else none
  | ['_'] => none
  | c :: rest => (dropGrouping c rest).map (c :: ·)

end Flowchart.Number
