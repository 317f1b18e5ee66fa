/-!
# Doubles

A `Double` is a binary floating-point number of 53 bits, held as what it
stands for: sign, mantissa and exponent of two. Everything that makes one goes
through `ofRatio`, which rounds a quotient of natural numbers to the nearest
double, a tie going to the even mantissa. A decimal is rounded as the quotient
that it is.
-/

namespace Walkthrough

/-- A number of double precision: `mantissa * 2 ^ exponent` with a sign, an
infinity, or no number. -/
inductive Double where
  | nan
  | infinite (negative : Bool)
  | finite (negative : Bool) (mantissa : Nat) (exponent : Int)
deriving DecidableEq, Repr, Inhabited

namespace Double

/-- The exponent of the smallest doubles. -/
def leastExponent : Int := -1074

/-- The exponent of the greatest doubles. -/
def greatestExponent : Int := 971

/-- Where a mantissa has become too long. -/
def mantissaLimit : Nat := Nat.pow 2 53

/-- Zero, with a sign. -/
def zero (negative : Bool) : Double := finite negative 0 leastExponent

/-- The double is a zero. -/
def isZero : Double → Bool
  | finite _ 0 _ => true
  | _ => false

/-- The double is an infinity. -/
def isInfinite : Double → Bool
  | infinite _ => true
  | _ => false

/-- The natural number nearest to `num / den`; a tie goes to the even one. -/
def roundDiv (num den : Nat) : Nat :=
  let q := num / den
  let twice := 2 * (num % den)
  if twice < den then q else if den < twice then q + 1 else q + q % 2

/-- `num / den * base ^ (-e)`, as a fraction. -/
def scale (base : Nat) (num den : Nat) (e : Int) : Nat × Nat :=
  if 0 ≤ e then (num, den * Nat.pow base e.toNat) else (num * Nat.pow base (-e).toNat, den)

/-- The greatest `k` with `2 ^ k ≤ num / den`. -/
def binaryLog (num den : Nat) : Int :=
  let k := (Nat.log2 num : Int) - (Nat.log2 den : Int)
  let (n, d) := scale 2 num den k
  if n < d then k - 1 else k

/-- A finite double, or an infinity where the exponent is too great. A
mantissa that rounding made too long is halved. -/
def normal (negative : Bool) (mantissa : Nat) (exponent : Int) : Double :=
  let (m, e) :=
    if mantissa < mantissaLimit then (mantissa, exponent) else (mantissa / 2, exponent + 1)
  if greatestExponent < e then infinite negative else finite negative m e

/-- **The double nearest to a quotient.** -/
def ofRatio (negative : Bool) (num den : Nat) : Double :=
  if num = 0 then zero negative
  else
    let e := max leastExponent (binaryLog num den - 52)
    let (n, d) := scale 2 num den e
    normal negative (roundDiv n d) e

/-- How many decimal digits a number has. -/
def digitCount (n : Nat) : Nat := (Nat.toDigits 10 n).length

/-- The double nearest to `digits * 10 ^ exponent`. Numbers far outside the
range are settled by the place of their first digit. -/
def ofDecimal (negative : Bool) (digits : Nat) (exponent : Int) : Double :=
  let place := (digitCount digits : Int) + exponent
  if digits = 0 ∨ place < -330 then zero negative
  else if 310 < place then infinite negative
  else
    let (n, d) := scale 10 digits 1 (-exponent)
    ofRatio negative n d

/-- The double nearest to an integer. -/
def ofInt (n : Int) : Double := ofRatio (n < 0) n.natAbs 1

/-- The double nearest to an integer, unless that is too great for one. -/
def ofInt? (n : Int) : Option Double :=
  if (ofInt n).isInfinite then none else some (ofInt n)

end Double

end Walkthrough
