import Walkthrough.Json.Value
import Walkthrough.Decimal.Notation
import Walkthrough.Text.Hex
/-!
# Writing JSON

Two styles are in use. On one line, a blank follows each comma, and a
character outside printable ASCII is escaped: so a value can stand inside a
page expression. Over several lines, each member of a list or record stands
on a line of its own, indented by two blanks for each level, and characters
beyond ASCII stand for themselves. A style is a record of what differs, so
that one writer serves both.
-/

namespace Walkthrough.Json

/-- What differs between styles of writing: how a character of a text is
written, and the gaps after an opening bracket, between two members, and
before a closing bracket, at a given depth. -/
structure Style where
  character : Char → List Char
  opening : Nat → List Char
  between : Nat → List Char
  closing : Nat → List Char

/-- A number of sixteen bits as an escape. -/
def escape4 (n : Nat) : List Char := '\\' :: 'u' :: Text.hexDigits 4 n

/-- The characters with an escape of their own. -/
def shortEscape? (c : Char) : Option (List Char) :=
  if c = '"' then some ['\\', '"']
  else if c = '\\' then some ['\\', '\\']
  else if c = '\n' then some ['\\', 'n']
  else if c = '\r' then some ['\\', 'r']
  else if c = '\t' then some ['\\', 't']
  else if c.toNat = 8 then some ['\\', 'b']
  else if c.toNat = 12 then some ['\\', 'f']
  else none

/-- An escape by number: one, or a pair of surrogates for a character beyond
the first plane. -/
def escapeByNumber (c : Char) : List Char :=
  let n := c.toNat
  if n < 0x10000 then escape4 n
  else escape4 (0xD800 + (n - 0x10000) / 1024) ++ escape4 (0xDC00 + (n - 0x10000) % 1024)

/-- A character escaped unless it is printable ASCII. -/
def asciiCharacter (c : Char) : List Char :=
  (shortEscape? c).getD <| if 0x20 ≤ c.toNat ∧ c.toNat ≤ 0x7E then [c] else escapeByNumber c

/-- A character escaped only where it must be. -/
def plainCharacter (c : Char) : List Char :=
  (shortEscape? c).getD <| if 0x20 ≤ c.toNat then [c] else escapeByNumber c

/-- A line feed and two blanks for each level. -/
def lineAt (depth : Nat) : List Char := '\n' :: List.replicate (2 * depth) ' '

/-- On one line, in ASCII. -/
def Style.line : Style where
  character := asciiCharacter
  opening _ := []
  between _ := [' ']
  closing _ := []

/-- Over several lines. -/
def Style.indented : Style where
  character := plainCharacter
  opening depth := lineAt (depth + 1)
  between depth := lineAt (depth + 1)
  closing depth := lineAt depth

/-- How doubles without digits are spelled in JSON. -/
def numberSpelling : Double.Spelling := ⟨"NaN", "Infinity"⟩

/-- The text of an integer. -/
def intText (n : Int) : List Char :=
  (if n < 0 then ['-'] else []) ++ Nat.toDigits 10 n.natAbs

namespace Style

/-- A text in quotes. -/
def quoted (st : Style) (s : List Char) : List Char :=
  '"' :: (s.flatMap st.character ++ ['"'])

mutual

/-- A value at a given depth. -/
def value (st : Style) (depth : Nat) : Value → List Char
  | .null => "null".toList
  | .bool true => "true".toList
  | .bool false => "false".toList
  | .int n => intText n
  | .float d => d.toText numberSpelling
  | .text s => st.quoted s.toList
  | .list [] => ['[', ']']
  | .list (v :: rest) =>
    '[' :: (st.opening depth ++ st.value (depth + 1) v ++ st.items depth rest ++
      st.closing depth ++ [']'])
  | .record [] => ['{', '}']
  | .record ((name, v) :: rest) =>
    '{' :: (st.opening depth ++ st.quoted name.toList ++ [':', ' '] ++ st.value (depth + 1) v ++
      st.fields depth rest ++ st.closing depth ++ ['}'])

/-- The members of a list behind the first. -/
def items (st : Style) (depth : Nat) : List Value → List Char
  | [] => []
  | v :: rest => ',' :: (st.between depth ++ st.value (depth + 1) v ++ st.items depth rest)

/-- The fields of a record behind the first. -/
def fields (st : Style) (depth : Nat) : List (String × Value) → List Char
  | [] => []
  | (name, v) :: rest =>
    ',' :: (st.between depth ++ st.quoted name.toList ++ [':', ' '] ++ st.value (depth + 1) v ++
      st.fields depth rest)

end

end Style

namespace Value

/-- A value on one line, in ASCII. -/
def toLine (v : Value) : String := String.ofList (Style.line.value 0 v)

/-- A value over several lines. -/
def toIndented (v : Value) : String := String.ofList (Style.indented.value 0 v)

end Value

end Walkthrough.Json
