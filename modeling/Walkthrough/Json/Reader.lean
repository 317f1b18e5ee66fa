import Walkthrough.Json.Value
import Walkthrough.Decimal.Notation
import Walkthrough.Text.Hex
/-!
# Reading JSON

The reader takes a whole text, with blanks, tabs and line ends allowed around
it and between its tokens, and gives its value or nothing. Beside plain JSON
it knows the three numbers without digits, and it refuses an integer of more
than 4300 digits. A text holds no raw control character. An escaped surrogate
joins with the one after it; one that stands alone becomes the replacement
character. The later of two fields of one name is kept.

Lists and records inside of each other take up room, and a reader may have only
so much of it (`Room`). It gives up at the bracket for which there is none left,
whatever follows that bracket, and this is not the same as to find no value.
-/

namespace Walkthrough.Json

open Walkthrough.Text

/-- The characters allowed between tokens. -/
def isGap (c : Char) : Bool := c = ' ' || c = '\t' || c = '\n' || c = '\r'

/-- A text without the gap in front. -/
def skipGap (cs : List Char) : List Char := cs.dropWhile isGap

/-- The value of four hexadecimal digits. -/
def hex4? (a b c d : Char) : Option Nat := do
  let a ← hexValue? a
  let b ← hexValue? b
  let c ← hexValue? c
  let d ← hexValue? d
  some (((a * 16 + b) * 16 + c) * 16 + d)

/-- A piece of a text: a character, or a number of sixteen bits escaped. -/
inductive Piece where
  | plain (c : Char)
  | number (n : Nat)
deriving DecidableEq, Repr

/-- The character after a backslash that is no number. -/
def unescape? (c : Char) : Option Char :=
  if c = '"' then some '"'
  else if c = '\\' then some '\\'
  else if c = '/' then some '/'
  else if c = 'b' then some (Char.ofNat 8)
  else if c = 'f' then some (Char.ofNat 12)
  else if c = 'n' then some '\n'
  else if c = 'r' then some '\r'
  else if c = 't' then some '\t'
  else none

/-- The pieces of a text up to its closing quote, and what follows. -/
def readPieces : List Char → Option (List Piece × List Char)
  | [] => none
  | '"' :: rest => some ([], rest)
  | '\\' :: 'u' :: a :: b :: c :: d :: rest => do
    let n ← hex4? a b c d
    let (pieces, after) ← readPieces rest
    some (.number n :: pieces, after)
  | '\\' :: c :: rest => do
    let c ← unescape? c
    let (pieces, after) ← readPieces rest
    some (.plain c :: pieces, after)
  | c :: rest =>
    if c.toNat < 0x20 then none
    else do
      let (pieces, after) ← readPieces rest
      some (.plain c :: pieces, after)

/-- The first half of a pair of surrogates. -/
def isHighSurrogate (n : Nat) : Bool := 0xD800 ≤ n && n < 0xDC00

/-- The second half of a pair of surrogates. -/
def isLowSurrogate (n : Nat) : Bool := 0xDC00 ≤ n && n < 0xE000

/-- The character of a number; a surrogate has none of its own. -/
def charOfNumber (n : Nat) : Char :=
  if 0xD800 ≤ n ∧ n < 0xE000 then Char.ofNat 0xFFFD else Char.ofNat n

/-- The characters of some pieces. -/
def joinPieces : List Piece → List Char
  | [] => []
  | .plain c :: rest => c :: joinPieces rest
  | [.number n] => [charOfNumber n]
  | .number n :: .plain c :: rest => charOfNumber n :: c :: joinPieces rest
  | .number n :: .number m :: rest =>
    if isHighSurrogate n && isLowSurrogate m then
      Char.ofNat (0x10000 + (n - 0xD800) * 1024 + (m - 0xDC00)) :: joinPieces rest
    else charOfNumber n :: joinPieces (.number m :: rest)

/-- A text behind its opening quote, and what follows. -/
def readText (cs : List Char) : Option (List Char × List Char) :=
  (readPieces cs).map fun (pieces, rest) => (joinPieces pieces, rest)

/-- The greatest number of digits of an integer. -/
def digitLimit : Nat := 4300

/-- The fraction of a number: a point and digits, or nothing. -/
def spanFraction (cs : List Char) : List Char × List Char :=
  match cs with
  | '.' :: rest =>
    match Double.spanDigits rest with
    | ([], _) => ([], cs)
    | found => found
  | _ => ([], cs)

/-- The exponent of a number, or nothing. -/
def spanExponent (cs : List Char) : Option Int × List Char :=
  match cs with
  | [] => (none, cs)
  | c :: rest =>
    let (negative, more) := Double.splitSign rest
    let (digits, after) := Double.spanDigits more
    if c.toLower = 'e' ∧ digits ≠ [] then
      let n : Int := Double.digitsValue digits
      (some (if negative then -n else n), after)
    else (none, cs)

/-- A number, and what follows. -/
def readNumber (cs : List Char) : Option (Value × List Char) :=
  let (negative, body) :=
    match cs with
    | '-' :: rest => (true, rest)
    | _ => (false, cs)
  let (whole, rest) := Double.spanDigits body
  let (fraction, rest) := spanFraction rest
  let (exponent, rest) := spanExponent rest
  if whole = [] ∨ (whole.head? = some '0' ∧ 1 < whole.length) then none
  else if fraction = [] ∧ exponent = none then
    if digitLimit < whole.length then none
    else
      let n : Int := Double.digitsValue whole
      some (.int (if negative then -n else n), rest)
  else some (.float (Double.ofParts negative whole fraction (exponent.getD 0)), rest)

/-- The words that stand for a value. -/
def words : List (List Char × Value) :=
  [("null".toList, .null), ("true".toList, .bool true), ("false".toList, .bool false),
    ("NaN".toList, .float .nan), ("Infinity".toList, .float (.infinite false)),
    ("-Infinity".toList, .float (.infinite true))]

/-- A word or a number, and what follows. -/
def readPlain (cs : List Char) : Option (Value × List Char) :=
  match words.findSome? fun w => (w.1.isPrefixOf? cs).map (w.2, ·) with
  | some found => some found
  | none => readNumber cs

/-- A record of the fields read. -/
def recordOf (fields : List (String × Value)) : Value :=
  .record (fields.foldl (fun kept f => Value.put kept f.1 f.2) [])

/-- What values stand inside of. -/
inductive Nest where
  | list
  | record
deriving DecidableEq, Repr

/-- Why a text is not read. -/
inductive Misread where
  /-- It states no value. -/
  | noValue
  /-- There is no room for a list or a record in it. -/
  | tooDeep (nest : Nest)
deriving DecidableEq, Repr

/-- How many lists and records inside of each other there is room for. No number
means that there is always room. -/
abbrev Room := Option Nat

/-- What was found, or that there is no value. -/
def found : Option α → Except Misread α
  | some a => .ok a
  | none => .error .noValue

/-- What stands inside of a list or a record is read with less room. -/
def enter (nest : Nest) (room : Room) (read : Room → Except Misread α) : Except Misread α :=
  match room with
  | none => read none
  | some 0 => .error (.tooDeep nest)
  | some (n + 1) => read (some n)

mutual

/-- A value, and what follows. Each step down or along costs one unit of
fuel. -/
def readValue : Nat → Room → List Char → Except Misread (Value × List Char)
  | 0, _, _ => .error .noValue
  | fuel + 1, room, cs =>
    match cs with
    | '"' :: rest => (found (readText rest)).map fun (t, after) => (.text (String.ofList t), after)
    | '[' :: rest => enter .list room fun inner =>
      match skipGap rest with
      | ']' :: after => .ok (.list [], after)
      | inside => (readItems fuel inner inside).map fun (vs, after) => (.list vs, after)
    | '{' :: rest => enter .record room fun inner =>
      match skipGap rest with
      | '}' :: after => .ok (.record [], after)
      | inside => (readFields fuel inner inside).map fun (fs, after) => (recordOf fs, after)
    | _ => found (readPlain cs)

/-- The members of a list up to its bracket, and what follows. -/
def readItems : Nat → Room → List Char → Except Misread (List Value × List Char)
  | 0, _, _ => .error .noValue
  | fuel + 1, room, cs => do
    let (v, rest) ← readValue fuel room cs
    match skipGap rest with
    | ',' :: more =>
      let (vs, after) ← readItems fuel room (skipGap more)
      .ok (v :: vs, after)
    | ']' :: after => .ok ([v], after)
    | _ => .error .noValue

/-- The fields of a record up to its bracket, and what follows. -/
def readFields : Nat → Room → List Char → Except Misread (List (String × Value) × List Char)
  | 0, _, _ => .error .noValue
  | fuel + 1, room, cs => do
    match cs with
    | '"' :: rest =>
      let (name, rest) ← found (readText rest)
      match skipGap rest with
      | ':' :: rest =>
        let (v, rest) ← readValue fuel room (skipGap rest)
        match skipGap rest with
        | ',' :: more =>
          let (fs, after) ← readFields fuel room (skipGap more)
          .ok ((String.ofList name, v) :: fs, after)
        | '}' :: after => .ok ([(String.ofList name, v)], after)
        | _ => .error .noValue
      | _ => .error .noValue
    | _ => .error .noValue

end

/-- The value of a text, with fuel enough for every character of it. -/
def parseChars (room : Room) (cs : List Char) : Except Misread Value := do
  let (v, rest) ← readValue (2 * cs.length + 2) room (skipGap cs)
  if skipGap rest = [] then .ok v else .error .noValue

/-- **What a text reads as** where there is so much room. -/
def Value.parse (room : Room) (text : String) : Except Misread Value := parseChars room text.toList

/-- **The value that a text states,** if it states one. -/
def Value.parse? (text : String) : Option Value := (Value.parse none text).toOption

end Walkthrough.Json
