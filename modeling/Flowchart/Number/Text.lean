import Flowchart.Number.Shortest

/-!
# Numbers as text

How a floating-point number is laid out: the shortest digits, positionally where the decimal
exponent is moderate, with one digit before the point and an exponent otherwise. The names of the
values that have no digits differ between formats, so they are a parameter.
-/

set_option autoImplicit false

namespace Flowchart.Number

/-- How a format names the infinite values and the absence of a number. -/
structure SpecialNames where
  infinity : String
  nan : String

/-- The names in plain text. -/
def plainNames : SpecialNames := ⟨"inf", "nan"⟩

/-- The exponent of the first digit is written out below `smallestPositional` and from
`largestPositional` on. -/
def smallestPositional : Int := -4

/-- The first exponent that is too large for positional layout. -/
def largestPositional : Int := 16

/-- An exponent with its sign and at least two digits. -/
def exponentText (e : Int) : String :=
  let digits := Nat.repr e.natAbs
  let sign := if e < 0 then "-" else "+"
  if e.natAbs < 10 then sign ++ "0" ++ digits else sign ++ digits

/-- A text of zeros. -/
def zeros (count : Nat) : String :=
  String.ofList (List.replicate count '0')

/-- The digits of a decimal with the point after the first `point` of them; there is always a digit
on either side of it. -/
def positional (digits : List Char) (point : Int) : String :=
  if point ≤ 0 then "0." ++ zeros (-point).toNat ++ String.ofList digits
  else
    let whole := digits.take point.toNat
    let fraction := digits.drop point.toNat
    String.ofList whole ++ zeros (point.toNat - digits.length) ++ "." ++
      (if fraction.isEmpty then "0" else String.ofList fraction)

/-- The digits with the point after the first one, and an exponent. -/
def scientific (digits : List Char) (exponent : Int) : String :=
  let fraction := digits.drop 1
  String.ofList (digits.take 1) ++
    (if fraction.isEmpty then "" else "." ++ String.ofList fraction) ++ "e" ++ exponentText exponent

/-- The text of a decimal. -/
def Decimal.text (d : Decimal) : String :=
  let digits := Nat.toDigits 10 d.digits
  let point := (digits.length : Int) + d.exponent
  let leading := point - 1
  if smallestPositional ≤ leading && leading < largestPositional then positional digits point
  else scientific digits leading

/-- The text of an exact value. -/
def Binary64.text (names : SpecialNames) : Binary64 → String
  | .nan => names.nan
  | .infinite negative => (if negative then "-" else "") ++ names.infinity
  | .finite negative significand exponent =>
    (if negative then "-" else "") ++
      (if significand = 0 then "0.0" else (shortest significand exponent).text)

/-- The text of a floating-point number. -/
def floatText (names : SpecialNames) (x : Float) : String :=
  (Binary64.ofFloat x).text names

end Flowchart.Number
