import Walkthrough.Decimal.Double
/-!
# The shortest decimal of a double

The decimals of `n` digits lie on a grid, and a double lies between two
neighbours of it. The shortest decimal that reads back as the double is found
by trying these two neighbours on the grids of one digit, two digits, and so
on; of two that both read back, the nearer one is taken. Seventeen digits are
always enough; should they ever not be, the exact decimal of the double stands
in.
-/

namespace Walkthrough.Double

/-- A decimal without sign: `digits * 10 ^ exponent`. -/
structure Grid where
  digits : Nat
  exponent : Int
deriving DecidableEq, Repr

/-- A positive double as a fraction. -/
def fraction (mantissa : Nat) (exponent : Int) : Nat × Nat := scale 2 mantissa 1 (-exponent)

/-- The greatest `k` with `10 ^ k ≤ num / den`. -/
def decimalLog (num den : Nat) : Int :=
  let k := (digitCount num : Int) - (digitCount den : Int)
  let (n, d) := scale 10 num den k
  if n < d then k - 1 else k

/-- The decimal reads back as the double `mantissa * 2 ^ exponent`. -/
def readsBack (mantissa : Nat) (exponent : Int) (g : Grid) : Bool :=
  ofDecimal false g.digits g.exponent = finite false mantissa exponent

/-- The neighbour of the double on the grid of `count` digits that reads back,
if one does. -/
def neighbour? (mantissa : Nat) (exponent : Int) (count : Nat) : Option Grid :=
  let (num, den) := fraction mantissa exponent
  let unit := decimalLog num den - count + 1
  let (n, d) := scale 10 num den unit
  let low : Grid := ⟨n / d, unit⟩
  let high : Grid := ⟨n / d + 1, unit⟩
  match readsBack mantissa exponent low, readsBack mantissa exponent high with
  | true, true => some (if roundDiv n d = n / d then low else high)
  | true, false => some low
  | false, true => some high
  | false, false => none

/-- The decimal that is equal to the double. -/
def exact (mantissa : Nat) (exponent : Int) : Grid :=
  if 0 ≤ exponent then ⟨mantissa * Nat.pow 2 exponent.toNat, 0⟩
  else ⟨mantissa * Nat.pow 5 (-exponent).toNat, exponent⟩

/-- **The shortest decimal that reads back.** -/
def shortest (mantissa : Nat) (exponent : Int) : Grid :=
  ((List.range 17).findSome? fun i => neighbour? mantissa exponent (i + 1)).getD
    (exact mantissa exponent)

end Walkthrough.Double
