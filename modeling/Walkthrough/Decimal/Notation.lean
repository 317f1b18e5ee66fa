import Walkthrough.Decimal.Shortest
import Walkthrough.Text.Blank
/-!
# The text of a double

A double is written with the fewest digits that read back as it. From `1e-4`
up to, but not including, `1e16` the point stands in its place, and a whole
number keeps one zero behind it; outside that range the number is written with
an exponent of at least two digits. Only the spelling of the infinities and of
what is no number depends on where the text goes. Reading is more generous than
writing, and most generous where spaces or groups are let pass.
-/

namespace Walkthrough.Double

open Walkthrough.Text

/-- How the doubles without digits are spelled. -/
structure Spelling where
  nan : String
  infinity : String

/-- The digits of a decimal without final zeros, and the place of the point,
counted from the front of the digits. -/
def places (g : Grid) : List Char × Int :=
  let all := Nat.toDigits 10 g.digits
  (dropTail (· = '0') all, all.length + g.exponent)

/-- Digits with the point at a place inside them or outside. -/
def positional (digits : List Char) (point : Int) : List Char :=
  if point ≤ 0 then "0.".toList ++ List.replicate (-point).toNat '0' ++ digits
  else
    let n := point.toNat
    if digits.length ≤ n then digits ++ List.replicate (n - digits.length) '0' ++ ".0".toList
    else digits.take n ++ '.' :: digits.drop n

/-- An exponent: its sign and at least two digits. -/
def exponentText (e : Int) : List Char :=
  let digits := Nat.toDigits 10 e.natAbs
  (if e < 0 then '-' else '+') :: (if digits.length < 2 then '0' :: digits else digits)

/-- Digits with the point behind the first, and an exponent. -/
def scientific (digits : List Char) (point : Int) : List Char :=
  let mantissa :=
    match digits with
    | [] => []
    | [d] => [d]
    | d :: rest => d :: '.' :: rest
  mantissa ++ 'e' :: exponentText (point - 1)

/-- The text of a positive decimal. -/
def gridText (g : Grid) : List Char :=
  let (digits, point) := places g
  if -4 < point ∧ point ≤ 16 then positional digits point else scientific digits point

/-- The text of a double. -/
def toText (sp : Spelling) : Double → List Char
  | nan => sp.nan.toList
  | infinite negative => (if negative then ['-'] else []) ++ sp.infinity.toList
  | finite negative m e =>
    (if negative then ['-'] else []) ++ if m = 0 then "0.0".toList else gridText (shortest m e)

/-- The value of decimal digits. -/
def digitsValue (ds : List Char) : Nat := ds.foldl (fun n d => n * 10 + (d.toNat - 48)) 0

/-- Decimal digits at the front of a text, and what follows. -/
def spanDigits (cs : List Char) : List Char × List Char := cs.span Char.isDigit

/-- The double of a whole part, a fraction and an exponent. -/
def ofParts (negative : Bool) (whole fraction : List Char) (exponent : Int) : Double :=
  ofDecimal negative (digitsValue (whole ++ fraction)) (exponent - fraction.length)

/-- A sign at the front of a text. -/
def splitSign : List Char → Bool × List Char
  | '-' :: rest => (true, rest)
  | '+' :: rest => (false, rest)
  | rest => (false, rest)

/-- An exponent at the end of a number: nothing, or `e` and an integer. -/
def exponent? : List Char → Option Int
  | [] => some 0
  | c :: rest =>
    let (negative, digits) := splitSign rest
    if c.toLower = 'e' ∧ digits ≠ [] ∧ digits.all Char.isDigit then
      some (if negative then -(digitsValue digits : Int) else digitsValue digits)
    else none

/-- The double that a text states: a decimal with or without fraction and
exponent, an infinity, or no number. -/
def ofText? (text : List Char) : Option Double :=
  let (negative, body) := splitSign text
  let word := body.map Char.toLower
  if word = "nan".toList then some nan
  else if word = "inf".toList ∨ word = "infinity".toList then some (infinite negative)
  else
    let (whole, rest) := spanDigits body
    let (fraction, rest) :=
      match rest with
      | '.' :: more => spanDigits more
      | _ => ([], rest)
    if whole = [] ∧ fraction = [] then none
    else (exponent? rest).map (ofParts negative whole fraction)

/-- A text of two groups or more, none of them empty, without the underscores
between them. -/
def joinGroups? (text : List Char) : Option (List Char) :=
  let groups := text.splitOn '_'
  if 2 ≤ groups.length ∧ groups.all (· ≠ []) then some groups.flatten else none

/-- The double that a text states with spaces around it, or else in groups. -/
def ofLooseText? (text : List Char) : Option Double :=
  (ofText? (trimSpace text)).or ((joinGroups? text).bind ofText?)

end Walkthrough.Double
