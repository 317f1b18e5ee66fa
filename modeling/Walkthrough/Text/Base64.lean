/-!
# Base64

Four characters of an alphabet of sixty-four stand for three bytes. The reader
skips whatever is not in the alphabet; a group of two or three characters must
be filled up with padding, where the reading ends. The writer fills up the
last group.
-/

namespace Walkthrough.Text.Base64

/-- Why a text does not stand for bytes. -/
inductive Error where
  /-- A character beyond ASCII. -/
  | notAscii
  /-- A group that padding does not fill up. -/
  | padding
  /-- A single character behind the last group, being the one of this number. -/
  | stray (count : Nat)
deriving DecidableEq, Repr

/-- The message of a refusal. -/
def Error.message : Error → String
  | notAscii => "string argument should contain only ASCII characters"
  | padding => "Incorrect padding"
  | stray n =>
    "Invalid base64-encoded string: number of data characters (" ++ toString n ++
      ") cannot be 1 more than a multiple of 4"

/-- The number that a character of the alphabet stands for. -/
def value? (c : Char) : Option Nat :=
  let n := c.toNat
  if 65 ≤ n ∧ n ≤ 90 then some (n - 65)
  else if 97 ≤ n ∧ n ≤ 122 then some (n - 71)
  else if 48 ≤ n ∧ n ≤ 57 then some (n + 4)
  else if c = '+' then some 62
  else if c = '/' then some 63
  else none

/-- The character of the alphabet for a number. -/
def letter (n : Nat) : Char :=
  if n < 26 then Char.ofNat (n + 65)
  else if n < 52 then Char.ofNat (n + 71)
  else if n < 62 then Char.ofNat (n - 4)
  else if n = 62 then '+'
  else '/'

/-- The bytes that a text stands for, given how many characters of the alphabet
have been read, the bits left over from them, and how many paddings follow
them. -/
def decodeFrom (count left pads : Nat) : List Char → Except Error (List UInt8)
  | [] =>
    if count % 4 = 0 then .ok []
    else if count % 4 = 1 then .error (.stray count)
    else .error .padding
  | c :: rest =>
    if c = '=' then
      if count % 4 < 2 then decodeFrom count left pads rest
      else if 4 ≤ count % 4 + pads + 1 then .ok []
      else decodeFrom count left (pads + 1) rest
    else
      match value? c with
      | none => decodeFrom count left pads rest
      | some v =>
        match count % 4 with
        | 0 => decodeFrom (count + 1) v 0 rest
        | 1 => (decodeFrom (count + 1) (v % 16) 0 rest).map (UInt8.ofNat (left * 4 + v / 16) :: ·)
        | 2 => (decodeFrom (count + 1) (v % 4) 0 rest).map (UInt8.ofNat (left * 16 + v / 4) :: ·)
        | _ => (decodeFrom (count + 1) 0 0 rest).map (UInt8.ofNat (left * 64 + v) :: ·)

/-- **The bytes that a text stands for.** -/
def decode (text : String) : Except Error (List UInt8) :=
  if text.toList.all (·.toNat < 128) then decodeFrom 0 0 0 text.toList else .error .notAscii

/-- The characters for some bytes. -/
def encodeBytes : List UInt8 → List Char
  | [] => []
  | [a] => [letter (a.toNat / 4), letter (a.toNat % 4 * 16), '=', '=']
  | [a, b] =>
    [letter (a.toNat / 4), letter (a.toNat % 4 * 16 + b.toNat / 16), letter (b.toNat % 16 * 4), '=']
  | a :: b :: c :: rest =>
    letter (a.toNat / 4) :: letter (a.toNat % 4 * 16 + b.toNat / 16) ::
      letter (b.toNat % 16 * 4 + c.toNat / 64) :: letter (c.toNat % 64) :: encodeBytes rest

/-- **The text for some bytes.** -/
def encode (bytes : List UInt8) : String := String.ofList (encodeBytes bytes)

end Walkthrough.Text.Base64
