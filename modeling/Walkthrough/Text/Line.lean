/-!
# Lines

A text is cut into lines at ten separators: line feed, carriage return (with
the line feed that may follow it), vertical tab, form feed, the three
information separators, next line, and the Unicode line and paragraph
separators. A separator ends its line and belongs to none; a final separator
opens no further line.

A document read from a file knows one separator fewer: reading turns each
carriage return, with the line feed that may follow it, into a line feed.
-/

namespace Walkthrough.Text

/-- The characters at which a text is cut into lines. -/
def isLineBreak (c : Char) : Bool :=
  let n := c.toNat
  (10 ≤ n && n ≤ 13) || (28 ≤ n && n ≤ 30) || n == 0x85 || n == 0x2028 || n == 0x2029

/-- A character put in front of the first of some lines. -/
def consLine (c : Char) : List (List Char) → List (List Char)
  | [] => [[c]]
  | line :: rest => (c :: line) :: rest

/-- The lines of a text, without their separators. -/
def lines : List Char → List (List Char)
  | [] => []
  | '\r' :: '\n' :: rest => [] :: lines rest
  | c :: rest => if isLineBreak c then [] :: lines rest else consLine c (lines rest)

/-- Every carriage return, with the line feed that may follow it, as one line
feed. -/
def unifyLineEnds : List Char → List Char
  | [] => []
  | '\r' :: '\n' :: rest => '\n' :: unifyLineEnds rest
  | c :: rest => (if c = '\r' then '\n' else c) :: unifyLineEnds rest

end Walkthrough.Text
