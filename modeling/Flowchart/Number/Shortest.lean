import Flowchart.Number.Binary64

/-!
# The shortest decimal of a floating-point number

The decimal with the fewest digits among those that read back as a given number. A decimal reads
back when it lies in the interval of reals that round to the number; `Interval` holds its ends and
the number itself, all scaled by one power of two. The search tries one digit, two digits, and so
on, and on each grid looks at the two neighbours of the number.
-/

set_option autoImplicit false

namespace Flowchart.Number

/-- The decimal `digits * 10 ^ exponent`. -/
structure Decimal where
  digits : Nat
  exponent : Int
deriving DecidableEq, Repr

/-- The reals that round to a number: those from `low * 2 ^ scale` to `high * 2 ^ scale`, around
the number `mid * 2 ^ scale`; the ends belong to them when `closed` holds. -/
structure Interval where
  low : Nat
  mid : Nat
  high : Nat
  scale : Int
  closed : Bool

/-- The reals that round to `significand * 2 ^ exponent`. The neighbour below is only half as far
away as the one above when the significand is the least of its exponent. -/
def Interval.around (significand : Nat) (exponent : Int) : Interval where
  low := 4 * significand - if significand = twoTo 52 ∧ -1074 < exponent then 1 else 2
  mid := 4 * significand
  high := 4 * significand + 2
  scale := exponent - 2
  closed := significand % 2 == 0

/-- The number of decimal digits before the point of `mid * 2 ^ scale`, or minus the number of
zeros after it when the number is below one tenth. -/
def Interval.magnitude (i : Interval) : Int :=
  let shifted := Binary64.wholePart (i.mid * tenTo 400) i.scale
  ((Nat.toDigits 10 shifted).length : Int) - 400

/-- The factors that bring `digits * 10 ^ place` and `mid * 2 ^ scale` to a common unit: the first
is to be multiplied by `decimal`, the second by `binary`. -/
def Interval.commonUnit (i : Interval) (place : Int) : Nat × Nat :=
  (tenTo place.toNat * twoTo (-i.scale).toNat, tenTo (-place).toNat * twoTo i.scale.toNat)

/-- Whether `digits * 10 ^ place` lies in the interval. -/
def Interval.holds (i : Interval) (digits : Nat) (place : Int) : Bool :=
  let (decimal, binary) := i.commonUnit place
  let point := digits * decimal
  if i.closed then i.low * binary ≤ point && point ≤ i.high * binary
  else i.low * binary < point && point < i.high * binary

/-- The point of the grid of step `10 ^ place` that lies in the interval and is nearest to the
number; of two equally near ones the even one. -/
def Interval.nearest? (i : Interval) (place : Int) : Option Nat :=
  let (decimal, binary) := i.commonUnit place
  let below := i.mid * binary / decimal
  let twice := 2 * (i.mid * binary % decimal)
  match i.holds below place, i.holds (below + 1) place with
  | true, true =>
    if twice < decimal || (twice == decimal && below % 2 == 0) then some below else some (below + 1)
  | true, false => some below
  | false, true => some (below + 1)
  | false, false => none

/-- Moves the zeros at the end of the digits into the exponent. -/
def Decimal.normalized (count : Nat) (d : Decimal) : Decimal :=
  match count with
  | 0 => d
  | count + 1 =>
    if d.digits % 10 = 0 then Decimal.normalized count ⟨d.digits / 10, d.exponent + 1⟩ else d

/-- The shortest decimal in the rounding interval of `significand * 2 ^ exponent`, which is not
zero. Seventeen digits always suffice. -/
def shortest (significand : Nat) (exponent : Int) : Decimal :=
  let interval := Interval.around significand exponent
  let magnitude := interval.magnitude
  let grids := (List.range 17).map fun (k : Nat) => magnitude - (k + 1 : Nat)
  let found := grids.findSome? fun place => (interval.nearest? place).map (·, place)
  match found with
  | some (digits, place) => Decimal.normalized 17 ⟨digits, place⟩
  | none => ⟨0, 0⟩

end Flowchart.Number
