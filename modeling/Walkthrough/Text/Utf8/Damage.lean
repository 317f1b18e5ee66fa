import Walkthrough.Text.Hex
import Walkthrough.Text.Utf8
/-!
# Damaged text

Where bytes are no UTF-8. The first damaged sequence is reported with its
place and the cause: a byte that starts no sequence, a sequence that breaks off
before a byte that cannot continue it, or one that breaks off at the end. The
sequence is as long as the one that reading replaces.
-/

namespace Walkthrough.Text.Utf8

/-- What is wrong with a sequence. -/
inductive DamageCause where
  | badStart
  | badContinuation
  | cutShort
deriving DecidableEq, Repr

/-- The words for what is wrong with a sequence. -/
def DamageCause.words : DamageCause → String
  | badStart => "invalid start byte"
  | badContinuation => "invalid continuation byte"
  | cutShort => "unexpected end of data"

/-- A damaged sequence: its bytes and how many bytes stand before it. -/
structure Damage where
  position : Nat
  bytes : List UInt8
  cause : DamageCause
deriving DecidableEq, Repr

/-- The message about a damaged sequence. -/
def Damage.message (d : Damage) : String :=
  let place := match d.bytes with
    | [b] => "byte 0x" ++ String.ofList (hexDigits 2 b.toNat) ++ " in position " ++
        toString d.position
    | _ => "bytes in position " ++ toString d.position ++ "-" ++
        toString (d.position + d.bytes.length - 1)
  "'utf-8' codec can't decode " ++ place ++ ": " ++ d.cause.words

/-- The first damaged sequence of some bytes. The reader is in a given state:
idle, or behind the bytes `read` of a sequence, which starts at `position`. -/
def damageFrom (position : Nat) (read : List UInt8) : State → List UInt8 → Option Damage
  | none, [] => none
  | some _, [] => some ⟨position, read, .cutShort⟩
  | none, b :: rest =>
    if (lead b.toNat).1 = [replacement] then some ⟨position, [b], .badStart⟩
    else
      match (lead b.toNat).2 with
      | none => damageFrom (position + 1) [] none rest
      | some p => damageFrom position [b] (some p) rest
  | some p, b :: rest =>
    if p.least ≤ b.toNat ∧ b.toNat ≤ p.greatest then
      match (step (some p) b.toNat).2 with
      | none => damageFrom (position + read.length + 1) [] none rest
      | some q => damageFrom position (read ++ [b]) (some q) rest
    else some ⟨position, read, .badContinuation⟩

/-- **The first damaged sequence** of some bytes, if they are no UTF-8. -/
def damage? (bytes : List UInt8) : Option Damage := damageFrom 0 [] none bytes

end Walkthrough.Text.Utf8
