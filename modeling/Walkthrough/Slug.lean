import Walkthrough.Text.Blank
/-!
# Slugs

A slug names a file after a text: its letters and digits, with one dash for
each run of other characters between them. The letters are the ASCII ones
and the four characters that fold to one of them when case is ignored. Dashes at the
ends are dropped before the slug is cut to its length, so a cut can leave a
dash at the end.
-/

namespace Walkthrough.Slug

open Walkthrough.Text

/-- The characters beyond ASCII that are a letter from `a` to `z` when case is
ignored: dotted and dotless `i`, long `s`, and the sign for kelvin. -/
def foldsToLetter (c : Char) : Bool :=
  c.toNat = 0x130 || c.toNat = 0x131 || c.toNat = 0x17F || c.toNat = 0x212A

/-- A character that a slug keeps. -/
def isKept (c : Char) : Bool := c.isAlphanum || foldsToLetter c

/-- A text with one dash for each run of characters that are not kept, given
whether such a run has just been written. -/
def dashed : Bool → List Char → List Char
  | _, [] => []
  | inRun, c :: rest =>
    if isKept c then c :: dashed false rest
    else if inRun then dashed true rest
    else '-' :: dashed true rest

/-- The slug of a text before it is cut. -/
def whole (name : List Char) : List Char :=
  dropTail (· = '-') ((dashed false name).dropWhile (· = '-'))

/-- The first characters of a text, up to an end that counts from the back
when it is negative. -/
def cut (cs : List Char) (limit : Int) : List Char :=
  if 0 ≤ limit then cs.take limit.toNat else cs.take (cs.length - limit.natAbs)

/-- The usual limit. -/
def defaultLimit : Int := 80

/-- **The slug of a text,** cut to a limit. -/
def ofText (name : String) (limit : Int) : String := String.ofList (cut (whole name.toList) limit)

/-- The slug of a text, or another name where nothing is left. -/
def nameOr (name fallback : String) : String :=
  let slug := ofText name defaultLimit
  if slug = "" then fallback else slug

end Walkthrough.Slug
