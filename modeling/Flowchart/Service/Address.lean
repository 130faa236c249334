import Flowchart.Number.Numeral
import Flowchart.Text.Quoted

/-!
# Addresses

Which path the address of a request leads to. An address may name a scheme and a host, but there is
only one service, so only the path counts: its segments of dots are resolved, its characters may be
written in percent form, and slashes at its end are tolerated. Some texts are no address at all.
-/

set_option autoImplicit false

namespace Flowchart.Service

/-- Why a text is no address. -/
inductive AddressError where
  | tooLong
  /-- A control character stands at a position. -/
  | controlCharacter (found : Char) (position : Nat)
  /-- The address names no host, and its path begins with two slashes. -/
  | doubleSlash
  /-- The address names no scheme, and its path begins with a colon. -/
  | leadingColon
deriving DecidableEq, Repr

/-- The wording of the error. -/
def AddressError.message : AddressError → String
  | tooLong => "URL too long"
  | controlCharacter found position =>
    "Invalid non-printable ASCII character in URL, " ++ Text.quoted (String.singleton found) ++
      " at position " ++ Nat.repr position ++ "."
  | doubleSlash => "Relative URLs cannot have a path starting with '//'"
  | leadingColon => "Relative URLs cannot have a path starting with ':'"

/-- The parts of an address that matter here. -/
structure Address where
  scheme : List Char
  /-- The host, with a user and a port if they are given. -/
  authority : List Char
  path : List Char

namespace Address

/-- The longest address. -/
def maxLength : Nat := 65536

/-- Whether a character controls a device instead of being written. -/
def isControl (c : Char) : Bool := c.toNat < 0x20 || c.toNat == 0x7F

/-- Whether a character may stand in the name of a scheme. -/
def isSchemeChar (c : Char) : Bool :=
  c.isAlphanum || c == '+' || c == '.' || c == '-'

/-- Splits off the scheme: a name that begins with a letter, or none, and a colon. -/
def takeScheme (cs : List Char) : List Char × List Char :=
  let name := cs.takeWhile isSchemeChar
  match cs.dropWhile isSchemeChar with
  | ':' :: rest => if name.head?.all Char.isAlpha then (name, rest) else ([], cs)
  | _ => ([], cs)

/-- Splits off the authority, which stands between two slashes and the next one. -/
def takeAuthority : List Char → List Char × List Char
  | '/' :: '/' :: rest => (rest.takeWhile (· != '/'), rest.dropWhile (· != '/'))
  | cs => ([], cs)

/-- The parts of an address, without its query and its fragment. -/
def ofChars (cs : List Char) : Address :=
  let (scheme, rest) := takeScheme (cs.takeWhile fun c => c != '?' && c != '#')
  let (authority, path) := takeAuthority rest
  { scheme, authority, path }

/-- Whether an address names a host. -/
def hasHost (a : Address) : Bool :=
  let host := if a.authority.contains '@' then (a.authority.dropWhile (· != '@')).tail
    else a.authority
  host.head?.any (· != ':')

/-- Adds a segment to those of a path. One dot adds nothing, and two dots take the last segment
back, but not the empty one that stands in front of the first slash. -/
def addSegment (path : List (List Char)) (segment : List Char) : List (List Char) :=
  if segment = ['.'] then path
  else if segment = ['.', '.'] then if path = [[]] then path else path.dropLast
  else path ++ [segment]

/-- A path whose segments of dots are resolved. -/
def withoutDots (path : List Char) : List Char :=
  ['/'].intercalate ((path.splitOn '/').foldl addSegment [])

/-- The path at the service. That of an address without a host starts at the root. -/
def fullPath (a : Address) : List Char :=
  if a.scheme ≠ [] ∧ a.hasHost then withoutDots a.path
  else
    let path := if a.scheme ≠ [] ∨ a.authority ≠ [] then withoutDots a.path else a.path
    withoutDots ('/' :: path.dropWhile (· == '/'))

/-- The character that two hexadecimal digits after a percent sign stand for. A byte that is not a
character by itself is not told from others. -/
def percentChar? (high low : Char) : Option Char := do
  let code := 16 * (← Number.hexDigit? high) + (← Number.hexDigit? low)
  some (if code < 0x80 then Char.ofNat code else '\ufffd')

/-- Replaces percent forms by their characters. Any other percent sign stands for itself. -/
def percentDecode : List Char → List Char
  | [] => []
  | '%' :: high :: low :: rest =>
    match percentChar? high low with
    | some c => c :: percentDecode rest
    | none => '%' :: percentDecode (high :: low :: rest)
  | c :: rest => c :: percentDecode rest

/-- A path without the slashes at its end and without one line break there. -/
def trimEnd (path : List Char) : List Char :=
  match path.reverse.dropWhile (· == '/') with
  | '\n' :: rest => rest.reverse
  | rest => rest.reverse

end Address

/-- The path that an address leads to. Percent forms are decoded by the client and once more by the
service. -/
def pathOf (address : String) : Except AddressError String :=
  let cs := address.toList
  let parts := Address.ofChars cs
  let isRelative := parts.scheme.isEmpty && parts.authority.isEmpty
  if Address.maxLength < cs.length then .error .tooLong
  else match cs.zipIdx.find? fun (c, _) => Address.isControl c with
  | some (c, position) => .error (.controlCharacter c position)
  | none =>
    if isRelative && ['/', '/'].isPrefixOf parts.path then .error .doubleSlash
    else if isRelative && [':'].isPrefixOf parts.path then .error .leadingColon
    else .ok (String.ofList (Address.trimEnd
      (Address.percentDecode (Address.percentDecode parts.fullPath))))

end Flowchart.Service
