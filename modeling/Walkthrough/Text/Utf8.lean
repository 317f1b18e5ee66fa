/-!
# UTF-8

Writing gives each character its UTF-8 bytes. Reading never fails: a damaged
sequence is replaced. The reader is a machine with two kinds of state, idle
and inside a sequence; a byte that cannot continue the sequence ends it with
one replacement character and is then read as if the machine were idle. So
each longest initial part of a valid sequence costs one replacement character,
and no byte that stands for itself is ever swallowed.
-/

namespace Walkthrough.Text.Utf8

/-- The character that stands for a damaged sequence. -/
def replacement : Char := Char.ofNat 0xFFFD

/-- An unfinished sequence: the bits read so far, how many bytes are missing,
and the range the next one must lie in. -/
structure Pending where
  bits : Nat
  missing : Nat
  least : Nat
  greatest : Nat
deriving DecidableEq, Repr

/-- The reader between two bytes: idle, or inside a sequence. -/
abbrev State := Option Pending

/-- A sequence of which one more byte, from `0x80` to `0xBF`, is due. -/
def Pending.plain (bits missing : Nat) : Pending := ⟨bits, missing, 0x80, 0xBF⟩

/-- What an idle reader does with a byte: the characters it gives out, and the
state it goes to. The second byte of a sequence has a narrower range where
the first alone would allow a number written too long, a surrogate, or one
beyond the last character. -/
def lead (b : Nat) : List Char × State :=
  if b < 0x80 then ([Char.ofNat b], none)
  else if 0xC2 ≤ b ∧ b ≤ 0xDF then ([], some (.plain (b - 0xC0) 1))
  else if b = 0xE0 then ([], some ⟨0, 2, 0xA0, 0xBF⟩)
  else if b = 0xED then ([], some ⟨0xD, 2, 0x80, 0x9F⟩)
  else if 0xE1 ≤ b ∧ b ≤ 0xEF then ([], some (.plain (b - 0xE0) 2))
  else if b = 0xF0 then ([], some ⟨0, 3, 0x90, 0xBF⟩)
  else if 0xF1 ≤ b ∧ b ≤ 0xF3 then ([], some (.plain (b - 0xF0) 3))
  else if b = 0xF4 then ([], some ⟨4, 3, 0x80, 0x8F⟩)
  else ([replacement], none)

/-- What the reader does with a byte in any state. -/
def step : State → Nat → List Char × State
  | none, b => lead b
  | some p, b =>
    if p.least ≤ b ∧ b ≤ p.greatest then
      let bits := p.bits * 64 + (b - 0x80)
      if p.missing ≤ 1 then ([Char.ofNat bits], none)
      else ([], some (.plain bits (p.missing - 1)))
    else
      let (out, next) := lead b
      (replacement :: out, next)

/-- What the reader gives out when the bytes end: one replacement character
for an unfinished sequence. -/
def flush : State → List Char
  | none => []
  | some _ => [replacement]

/-- The characters read from bytes, starting in a given state. -/
def readFrom (s : State) : List UInt8 → List Char
  | [] => flush s
  | b :: rest => (step s b.toNat).1 ++ readFrom (step s b.toNat).2 rest

/-- **The text of a byte string,** with a replacement character for each
damaged sequence. -/
def decode (bytes : List UInt8) : List Char := readFrom none bytes

/-- The bytes of a text. -/
def encode (cs : List Char) : List UInt8 := cs.flatMap String.utf8EncodeChar

end Walkthrough.Text.Utf8
