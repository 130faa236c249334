/-!
# Characters as bytes

The bytes of a text say nothing about how they were made from characters. Three encodings are
common: units of one byte, of two and of four, and the wider units come with either end first. A
receiver can tell them apart by the zeros among the first bytes, because a document begins with
characters that need a single byte. `heard` gives the characters that such a receiver takes a text
for: its own, unless the text holds zeros of its own in those places.
-/

set_option autoImplicit false

namespace Flowchart.Text

/-- The character of a code; the replacement character for a code that has none. -/
def charOfCode (code : Nat) : Char :=
  if Nat.isValidChar code then Char.ofNat code else '\ufffd'

/-- Whether a code is the first half of a pair that stands for one character. -/
def isHighHalf (code : Nat) : Bool := 0xD800 ≤ code && code < 0xDC00

/-- Whether a code is the second half of such a pair. -/
def isLowHalf (code : Nat) : Bool := 0xDC00 ≤ code && code < 0xE000

/-- The character that two halves stand for. -/
def charOfHalves (high low : Nat) : Char :=
  charOfCode (0x10000 + (high - 0xD800) * 0x400 + (low - 0xDC00))

/-- Which end of a unit is its first byte. -/
inductive ByteOrder where
  | bigEnd
  | littleEnd
deriving DecidableEq, Repr

/-- The number that the bytes of a unit stand for. -/
def ByteOrder.value (order : ByteOrder) (bytes : List UInt8) : Nat :=
  let bigEndFirst := match order with
    | .bigEnd => bytes
    | .littleEnd => bytes.reverse
  bigEndFirst.foldl (fun value byte => 256 * value + byte.toNat) 0

/-- How characters are written as bytes. -/
inductive Encoding where
  | utf8
  | utf16 (order : ByteOrder)
  | utf32 (order : ByteOrder)
deriving DecidableEq, Repr

/-- The encoding of some bytes, by the zeros among the first of them. -/
def Encoding.guess : List UInt8 → Encoding
  | a :: b :: c :: d :: _ =>
    if a = 0 then if b = 0 then utf32 .bigEnd else utf16 .bigEnd
    else if b = 0 then if c = 0 ∧ d = 0 then utf32 .littleEnd else utf16 .littleEnd
    else utf8
  | [a, b] => if a = 0 then utf16 .bigEnd else if b = 0 then utf16 .littleEnd else utf8
  | _ => utf8

/-- The units of two bytes, unless a byte is left over. -/
def units16? (order : ByteOrder) : List UInt8 → Option (List Nat)
  | [] => some []
  | a :: b :: rest => (units16? order rest).map (order.value [a, b] :: ·)
  | _ => none

/-- The units of four bytes, unless some bytes are left over. -/
def units32? (order : ByteOrder) : List UInt8 → Option (List Nat)
  | [] => some []
  | a :: b :: c :: d :: rest => (units32? order rest).map (order.value [a, b, c, d] :: ·)
  | _ => none

/-- The characters of units of two bytes, of which a character may take a pair. -/
def charsOfUnits16 : List Nat → List Char
  | [] => []
  | [code] => [charOfCode code]
  | high :: low :: rest =>
    if isHighHalf high && isLowHalf low then charOfHalves high low :: charsOfUnits16 rest
    else charOfCode high :: charsOfUnits16 (low :: rest)

/-- The character of a unit of four bytes, unless the unit is beyond all codes. -/
def charOfUnit32? (code : Nat) : Option Char :=
  if code < 0x110000 then some (charOfCode code) else none

/-- A text without the byte order mark at its start. -/
def withoutMark : List Char → List Char
  | '\ufeff' :: rest => rest
  | cs => cs

/-- The characters that a receiver of a text makes of its bytes, if they make sense to it. -/
def heard (text : String) : Option (List Char) :=
  let bytes := text.toList.flatMap String.utf8EncodeChar
  match Encoding.guess bytes with
  | .utf8 => some (withoutMark text.toList)
  | .utf16 order => (units16? order bytes).map charsOfUnits16
  | .utf32 order => (units32? order bytes).bind (·.mapM charOfUnit32?)

end Flowchart.Text
