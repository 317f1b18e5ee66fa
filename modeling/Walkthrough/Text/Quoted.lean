import Walkthrough.Text.Hex
import Walkthrough.Text.Printable
/-!
# Quoted text

Messages show a text in quotes: in apostrophes, or in double quotes where it
holds an apostrophe and no double quote. The quote, the backslash, and
whatever is not printable are escaped, the latter by name or by the shortest
of the three forms of its number.
-/

namespace Walkthrough.Text

/-- An unprintable character by its number. -/
def numberEscape (c : Char) : List Char :=
  let n := c.toNat
  if n < 0x100 then '\\' :: 'x' :: hexDigits 2 n
  else if n < 0x10000 then '\\' :: 'u' :: hexDigits 4 n
  else '\\' :: 'U' :: hexDigits 8 n

/-- A character between two quotes `q`. -/
def quotedChar (q c : Char) : List Char :=
  if c = q ∨ c = '\\' then ['\\', c]
  else if c = '\n' then ['\\', 'n']
  else if c = '\r' then ['\\', 'r']
  else if c = '\t' then ['\\', 't']
  else if isPrintable c then [c]
  else numberEscape c

/-- The quote that a text is put between. -/
def quoteFor (cs : List Char) : Char := if '\'' ∈ cs ∧ '"' ∉ cs then '"' else '\''

/-- **A text in quotes.** -/
def quoted (s : String) : String :=
  let q := quoteFor s.toList
  String.ofList (q :: (s.toList.flatMap (quotedChar q) ++ [q]))

/-- A text in quotes, or the word for no text. -/
def quoted? : Option String → String
  | some s => quoted s
  | none => "None"

end Walkthrough.Text
