import Flowchart.Text.Blank

/-!
# Fenced blocks

Taking the content out of a fenced block. A fence is a line of three backticks, with any words after
those that open the block. If the whole text is one block, its content is taken. Otherwise the first
block inside the text is taken, and a text without a block is taken as it is.
-/

set_option autoImplicit false

namespace Flowchart.Fence

/-- The three characters of a fence. -/
def marks : List Char := ['\x60', '\x60', '\x60']

/-- What follows the marks at the start of a text. -/
def dropMarks? : List Char → Option (List Char)
  | '\x60' :: '\x60' :: '\x60' :: rest => some rest
  | _ => none

/-- What stands before the marks at the end of a text. -/
def dropFinalMarks? (cs : List Char) : Option (List Char) :=
  (dropMarks? cs.reverse).map List.reverse

/-- A text without the line feed at its end, if there is one. -/
def dropFinalBreak (cs : List Char) : List Char :=
  if cs.getLast? = some '\n' then cs.dropLast else cs

/-- What follows the first line of a text, if a line feed ends that line. -/
def afterLine? (cs : List Char) : Option (List Char) :=
  match cs.dropWhile (· != '\n') with
  | [] => none
  | _ :: body => some body

/-- The content of a text that is one block as a whole. The closing marks need not have a line to
themselves; a block on a single line has no content. -/
def whole? (cs : List Char) : Option (List Char) :=
  match dropMarks? cs with
  | none => none
  | some rest =>
    match afterLine? rest with
    | some body => (dropFinalMarks? body).map dropFinalBreak
    | none => (dropFinalMarks? rest).map fun _ => []

/-- Whether a text starts with a line feed and marks. -/
def startsWithFence (cs : List Char) : Bool :=
  ('\n' :: marks).isPrefixOf cs

/-- What stands before the first line feed that marks follow. -/
def beforeFence? : List Char → Option (List Char)
  | [] => none
  | c :: rest =>
    if startsWithFence (c :: rest) then some [] else (beforeFence? rest).map (c :: ·)

/-- The content of a block whose opening line is over: at least one character, up to the first
closing fence after it. -/
def content? : List Char → Option (List Char)
  | [] => none
  | c :: rest => (beforeFence? rest).map (c :: ·)

/-- The content of a block that opens at the start of a text. -/
def opened? (cs : List Char) : Option (List Char) := do
  let rest ← dropMarks? cs
  let body ← afterLine? rest
  content? body

/-- The content of the first block inside a text. -/
def embedded? : List Char → Option (List Char)
  | [] => none
  | c :: rest =>
    match opened? (c :: rest) with
    | some content => some content
    | none => embedded? rest

/-- The content of a text of characters, trimmed. -/
def unwrapChars (text : List Char) : List Char :=
  let cs := Text.trim text
  match whole? cs with
  | some content => Text.trim content
  | none =>
    match embedded? cs with
    | some content => Text.trim content
    | none => cs

/-- The content of a text: that of the block that it is, or of the first block in it, or the text
itself, in any case trimmed. -/
def unwrap (text : String) : String :=
  String.ofList (unwrapChars text.toList)

end Flowchart.Fence
