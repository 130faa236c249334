import Flowchart.Text.Printable

/-!
# Quoted text

A text between quotation marks, in which every character that would not show, or would end the
quotation, is written with a backslash. Apostrophes delimit the text, unless it holds apostrophes
and no double quotes; then double quotes do.
-/

set_option autoImplicit false

namespace Flowchart.Text

/-- The last digits of a number in base sixteen, in small letters, exactly as many as asked for. -/
def hexDigits : Nat → Nat → List Char
  | 0, _ => []
  | count + 1, n => hexDigits count (n / 16) ++ [Nat.digitChar (n % 16)]

/-- The delimiter of a quoted text. -/
def delimiter (cs : List Char) : Char :=
  if cs.contains '\'' && !cs.contains '\x22' then '\x22' else '\''

/-- One character inside a quotation with the given delimiter. -/
def quoteChar (mark c : Char) : List Char :=
  if c = mark || c = '\\' then ['\\', c]
  else if c = '\n' then ['\\', 'n']
  else if c = '\r' then ['\\', 'r']
  else if c = '\t' then ['\\', 't']
  else if isPrintable c then [c]
  else
    let n := c.toNat
    if n < 0x100 then '\\' :: 'x' :: hexDigits 2 n
    else if n < 0x10000 then '\\' :: 'u' :: hexDigits 4 n
    else '\\' :: 'U' :: hexDigits 8 n

/-- The quotation of a text. -/
def quoted (s : String) : String :=
  let cs := s.toList
  let mark := delimiter cs
  String.ofList (mark :: cs.flatMap (quoteChar mark) ++ [mark])

end Flowchart.Text
