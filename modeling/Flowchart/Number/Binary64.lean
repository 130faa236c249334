/-!
# The value of a floating-point number

A floating-point number taken apart into an exact value: a significand times a power of two, an
infinity, or no number. Everything this library decides about such numbers (whether one is zero,
its whole part, its shortest text) is decided on this form, in exact arithmetic.
-/

set_option autoImplicit false

namespace Flowchart.Number

/-- A power of two. -/
def twoTo (exponent : Nat) : Nat := Nat.pow 2 exponent

/-- A power of ten. -/
def tenTo (exponent : Nat) : Nat := Nat.pow 10 exponent

/-- The exact value of a floating-point number. A finite one is `significand * 2 ^ exponent` with
the given sign, zero included. -/
inductive Binary64 where
  | nan
  | infinite (negative : Bool)
  | finite (negative : Bool) (significand : Nat) (exponent : Int)
deriving DecidableEq

namespace Binary64

/-- The value of 64 bits: a sign, eleven bits of exponent and fifty-two bits of fraction. -/
def ofBits (bits : Nat) : Binary64 :=
  let negative := bits / twoTo 63 % 2 == 1
  let scale : Nat := bits / twoTo 52 % twoTo 11
  let fraction : Nat := bits % twoTo 52
  if scale = 2047 then
    if fraction = 0 then .infinite negative else .nan
  else if scale = 0 then .finite negative fraction (-1074)
  else .finite negative (twoTo 52 + fraction) ((scale : Int) - 1075)

/-- The value of a floating-point number. -/
def ofFloat (x : Float) : Binary64 :=
  ofBits x.toBits.toNat

/-- Whether the value is zero, of either sign. -/
def isZero : Binary64 → Bool
  | .finite _ significand _ => significand == 0
  | _ => false

/-- Whether the value is a number of finite size. -/
def isFinite : Binary64 → Bool
  | .finite _ _ _ => true
  | _ => false

/-- The whole part of `significand * 2 ^ exponent`. -/
def wholePart (significand : Nat) (exponent : Int) : Nat :=
  if exponent < 0 then significand / twoTo exponent.natAbs else significand * twoTo exponent.natAbs

/-- The integer that the value is, if it is one. -/
def integer? : Binary64 → Option Int
  | .finite negative significand exponent =>
    if exponent < 0 && significand % twoTo exponent.natAbs != 0 then none
    else
      let size : Int := wholePart significand exponent
      some (if negative then -size else size)
  | _ => none

end Binary64

end Flowchart.Number
