import Walkthrough.Text.Hex
import Walkthrough.Text.Quoted
/-!
# Hosts in a URL

What can be wrong with the part of a URL that names a server: brackets that do
not pair, brackets that are not the bounds of the host, brackets around
something that is no address of version 6 or later, and characters that look
like one character and normalize to a delimiter.
-/

namespace Walkthrough.Url

open Walkthrough.Text

/-- Why a text is refused as a URL. -/
inductive Error where
  /-- An opening bracket without a closing one, or the reverse. -/
  | unpairedBracket
  /-- Something between the user and the opening bracket of the host, or
  between its closing bracket and the port. -/
  | strayText
  /-- Brackets around a malformed address of a future version. -/
  | futureAddress
  /-- Brackets around an address of version 4. -/
  | bracketedVersion4
  /-- Brackets around something that is no address. -/
  | noAddress (host : String)
  /-- A character that stands for a delimiter. -/
  | hiddenDelimiter (authority : String)
deriving DecidableEq, Repr

/-- The message of a refusal. -/
def Error.message : Error → String
  | unpairedBracket | strayText => "Invalid IPv6 URL"
  | futureAddress => "IPvFuture address is invalid"
  | bracketedVersion4 => "An IPv4 address cannot be in brackets"
  | noAddress host => quoted host ++ " does not appear to be an IPv4 or IPv6 address"
  | hiddenDelimiter authority =>
    "netloc '" ++ authority ++ "' contains invalid characters under NFKC normalization"

/-- A decimal number from 0 to 255 without leading zeros. -/
def isOctet (cs : List Char) : Bool :=
  cs ≠ [] && cs.all Char.isDigit && cs.length ≤ 3 && (cs = ['0'] || cs.head? ≠ some '0') &&
    cs.foldl (fun n d => n * 10 + (d.toNat - 48)) 0 ≤ 255

/-- An address of version 4: four octets between dots. -/
def isVersion4 (cs : List Char) : Bool :=
  let octets := cs.splitOn '.'
  octets.length = 4 && octets.all isOctet

/-- One to four hexadecimal digits. -/
def isGroup (cs : List Char) : Bool :=
  cs ≠ [] && cs.length ≤ 4 && cs.all fun c => (hexValue? c).isSome

/-- The groups of an address: eight of them, or fewer and one gap written as
two colons, which may stand at either end. -/
def areGroups (groups : List (List Char)) : Bool :=
  let inner := groups.tail.dropLast
  match inner.count [] with
  | 0 => groups.length = 8 && groups.all isGroup
  | 1 =>
    let front := groups.take (1 + inner.idxOf [])
    let back := groups.drop (2 + inner.idxOf [])
    let front := if front.head? = some [] then front.tail else front
    let back := if back.getLast? = some [] then back.dropLast else back
    (groups.head? ≠ some [] || front = []) && (groups.getLast? ≠ some [] || back = []) &&
      front.length + back.length ≤ 7 && front.all isGroup && back.all isGroup
  | _ => false

/-- An address of version 6: groups between colons, the last of which may be
an address of version 4, and perhaps a zone behind a percent sign. -/
def isVersion6 (cs : List Char) : Bool :=
  let address := cs.takeWhile (· ≠ '%')
  let zone := cs.drop (address.length + 1)
  let groups := address.splitOn ':'
  let last := groups.getLast?.getD []
  let expanded := if '.' ∈ last then groups.dropLast ++ [['0'], ['0']] else groups
  ('%' ∉ cs || (zone ≠ [] && '%' ∉ zone)) && 3 ≤ groups.length && expanded.length ≤ 9 &&
    ('.' ∉ last || isVersion4 last) && areGroups expanded

/-- An address of a later version: `v`, hexadecimal digits, a dot, and more. -/
def isFutureVersion (cs : List Char) : Bool :=
  match cs with
  | 'v' :: rest =>
    let (digits, rest) := rest.span fun c => (hexValue? c).isSome
    digits ≠ [] && rest.head? = some '.' && 2 ≤ rest.length
  | _ => false

/-- A host that may stand in brackets, or what is wrong with it. -/
def checkBracketed (host : List Char) : Except Error Unit :=
  if host.head? = some 'v' then
    if isFutureVersion host then .ok () else .error .futureAddress
  else if isVersion4 host then .error .bracketedVersion4
  else if isVersion6 host then .ok ()
  else .error (.noAddress (String.ofList host))

/-- The host and the port of an authority, without the user in front. -/
def withoutUser (authority : List Char) : List Char :=
  (authority.reverse.takeWhile (· ≠ '@')).reverse

/-- The host of an authority that holds brackets: it fills them and nothing
else stands there, unless the brackets belong to the user. -/
def bracketed (authority : List Char) : Except Error (List Char) :=
  match withoutUser authority with
  | '[' :: inside =>
    let (host, rest) := inside.span (· ≠ ']')
    let port := rest.drop 1
    if port = [] ∨ port.head? = some ':' then .ok host else .error .strayText
  | place => if '[' ∈ place then .error .strayText else .ok (place.takeWhile (· ≠ ':'))

/-- Brackets come in pairs, around an address. -/
def checkBrackets (authority : List Char) : Except Error Unit :=
  match decide ('[' ∈ authority), decide (']' ∈ authority) with
  | false, false => .ok ()
  | true, true => do checkBracketed (← bracketed authority)
  | _, _ => .error .unpairedBracket

/-- The characters whose compatibility form holds one of the delimiters slash,
question mark, hash, at sign and colon. -/
def hiddenDelimiters : List Nat :=
  [0x2047, 0x2048, 0x2049, 0x2100, 0x2101, 0x2105, 0x2106, 0x2A74, 0xFE13, 0xFE16, 0xFE55,
    0xFE56, 0xFE5F, 0xFE6B, 0xFF03, 0xFF0F, 0xFF1A, 0xFF1F, 0xFF20]

/-- No character hides a delimiter. -/
def checkDelimiters (authority : List Char) : Except Error Unit :=
  if authority.any (hiddenDelimiters.contains ·.toNat) then
    .error (.hiddenDelimiter (String.ofList authority))
  else .ok ()

end Walkthrough.Url
