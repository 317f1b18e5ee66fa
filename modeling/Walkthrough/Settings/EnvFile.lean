import Walkthrough.Settings.Environment
import Walkthrough.Text.Blank
import Walkthrough.Text.Line
/-!
# Files of variables

A file of variables holds bindings, one to a line: a name, perhaps `export`
in front of it, then `=` and a value, which may stand in quotes and then run
over several lines. Between quotes a backslash takes the character behind it,
so a quote taken that way closes nothing. A hash behind a gap starts a comment,
also where the value is still to come. A line that is no binding is skipped, a
name alone binds nothing. Within a value, `${NAME}` stands for the value of a
variable, the environment's or else the one bound further up, and
`${NAME:-text}` for the text where there is none. A variable that the
environment sets keeps its value.
-/

namespace Walkthrough.EnvFile

open Walkthrough.Text

/-- A gap within a line. -/
def isGap (c : Char) : Bool := isBlank c && c ≠ '\n'

/-- A text without the gap in front. -/
def skipGap (cs : List Char) : List Char := cs.dropWhile isGap

/-- What follows the line that a text starts with. -/
def skipLine (cs : List Char) : List Char := (cs.dropWhile (· ≠ '\n')).drop 1

/-- A name that may be bound to a value. -/
structure Binding where
  name : String
  value : Option String
deriving DecidableEq, Repr

/-- A text without the word `export` and the gap behind it. -/
def skipExport (cs : List Char) : List Char :=
  match "export".toList.isPrefixOf? cs with
  | some rest => if rest.head?.any isGap then skipGap rest else cs
  | none => cs

/-- A character of a name without quotes. -/
def isNameChar (c : Char) : Bool := !(c = '=' || c = '#' || isBlank c)

/-- The name at the front of a text and what follows, no name where a comment
starts, and nothing where neither stands there. -/
def readName (cs : List Char) : Option (Option (List Char) × List Char) :=
  match cs with
  | '#' :: _ => some (none, cs)
  | '\'' :: rest =>
    let (name, after) := rest.span (· ≠ '\'')
    if name ≠ [] ∧ after ≠ [] then some (some name, after.drop 1) else none
  | _ =>
    let (name, after) := cs.span isNameChar
    if name ≠ [] then some (some name, after) else none

/-- What stands between an opening quote and the closing one, which is the first
that no backslash has taken, and what follows. A backslash takes the character
behind it, whatever that is. -/
def readQuoted (q : Char) : List Char → Option (List Char × List Char)
  | [] => none
  | '\\' :: c :: rest => (readQuoted q rest).map fun cut => ('\\' :: c :: cut.1, cut.2)
  | c :: rest =>
    if c = q then some ([], rest)
    else (readQuoted q rest).map fun cut => (c :: cut.1, cut.2)

/-- A text whose escapes stand for characters, according to a table. -/
def unescape (table : Char → Option Char) : List Char → List Char
  | '\\' :: c :: rest =>
    match table c with
    | some d => d :: unescape table rest
    | none => '\\' :: unescape table (c :: rest)
  | c :: rest => c :: unescape table rest
  | [] => []

/-- The escapes within apostrophes. -/
def singleEscape (c : Char) : Option Char := if c = '\\' ∨ c = '\'' then some c else none

/-- The escapes within double quotes. -/
def doubleEscape (c : Char) : Option Char :=
  if c = '\\' ∨ c = '\'' ∨ c = '"' then some c
  else if c = 'a' then some (Char.ofNat 7)
  else if c = 'b' then some (Char.ofNat 8)
  else if c = 't' then some '\t'
  else if c = 'n' then some '\n'
  else if c = 'v' then some (Char.ofNat 11)
  else if c = 'f' then some (Char.ofNat 12)
  else if c = 'r' then some '\r'
  else none

/-- A line without the comment behind a gap. -/
def dropComment : List Char → List Char
  | [] => []
  | c :: rest =>
    if isBlank c ∧ (rest.dropWhile isBlank).head? = some '#' then [] else c :: dropComment rest

/-- The value behind an equals sign, and what follows. -/
def readValue (cs : List Char) : Option (List Char × List Char) :=
  match skipGap cs with
  | '\'' :: rest => (readQuoted '\'' rest).map fun cut => (unescape singleEscape cut.1, cut.2)
  | '"' :: rest => (readQuoted '"' rest).map fun cut => (unescape doubleEscape cut.1, cut.2)
  | _ =>
    let (line, after) := cs.span (· ≠ '\n')
    some (trim (dropComment line), after)

/-- What follows the rest of a line on which only a comment may stand. -/
def endLine (cs : List Char) : Option (List Char) :=
  let rest := match skipGap cs with
    | '#' :: comment => comment.dropWhile (· ≠ '\n')
    | other => other
  match rest with
  | [] => some []
  | '\n' :: after => some after
  | _ => none

/-- The binding of a name once the name has been read, and what follows; the
text to go on with where the line is no binding. -/
def readBound (name : Option (List Char)) (cs : List Char) :
    Except (List Char) (Option Binding × List Char) := do
  let finish (value : Option (List Char)) (rest : List Char) :=
    match endLine rest with
    | some after => .ok (name.map fun n => ⟨String.ofList n, value.map String.ofList⟩, after)
    | none => .error (skipLine rest)
  match skipGap cs with
  | '=' :: rest =>
    match readValue rest with
    | some (value, after) => finish (some value) after
    | none => .error (skipLine (skipGap rest))
  | rest => finish none rest

/-- The binding at the front of a text, if its line is one, and what follows
that. -/
def readBinding (cs : List Char) : Option Binding × List Char :=
  match cs.dropWhile isBlank with
  | [] => (none, [])
  | start =>
    let start := skipExport start
    match readName start with
    | none => (none, skipLine start)
    | some (name, rest) =>
      match readBound name rest with
      | .ok found => found
      | .error rest => (none, rest)

/-- The bindings of a text, which is read in at most `fuel` steps. -/
def readBindings : Nat → List Char → List Binding
  | 0, _ => []
  | fuel + 1, cs =>
    match cs with
    | [] => []
    | _ =>
      let (binding, rest) := readBinding cs
      binding.toList ++ readBindings fuel rest

/-- The text of a file without the mark that may open it, and with line feeds
for all line ends. -/
def fileText (cs : List Char) : List Char :=
  unifyLineEnds (match cs with
    | c :: rest => if c.toNat = 0xFEFF then rest else cs
    | [] => [])

/-- **The bindings of a file,** in order. -/
def bindings (text : String) : List Binding :=
  let cs := fileText text.toList
  readBindings (cs.length + 1) cs

/-- A piece of a value: characters, or a reference to a variable with the text
that stands in for it. -/
inductive Piece where
  | plain (c : Char)
  | reference (name : String) (fallback : String)
deriving DecidableEq, Repr

/-- A reference at the front of a text, behind its dollar sign and brace: the
name, the text that stands in, and how many characters they take. -/
def reference? (cs : List Char) : Option (Piece × Nat) :=
  let (name, rest) := cs.span fun c => c ≠ '}' ∧ c ≠ ':'
  match rest with
  | '}' :: _ => some (.reference (String.ofList name) "", name.length + 1)
  | ':' :: '-' :: more =>
    let (fallback, after) := more.span (· ≠ '}')
    if after = [] then none
    else
      some (.reference (String.ofList name) (String.ofList fallback),
        name.length + fallback.length + 3)
  | _ => none

/-- The pieces of a value, `skip` characters being part of a reference that
has been read. -/
def piecesFrom : Nat → List Char → List Piece
  | _, [] => []
  | skip + 1, _ :: rest => piecesFrom skip rest
  | 0, c :: rest =>
    let found := match c, rest with
      | '$', '{' :: inside => reference? inside
      | _, _ => none
    match found with
    | some (piece, length) => piece :: piecesFrom (length + 1) rest
    | none => .plain c :: piecesFrom 0 rest

/-- The bindings made so far, a name standing once. -/
abbrev Bound := List (String × Option String)

/-- What a name is bound to, if it has been bound. -/
def Bound.get? (bound : Bound) (name : String) : Option (Option String) :=
  (bound.find? (·.1 = name)).map (·.2)

/-- A name bound anew. -/
def Bound.put (bound : Bound) (name : String) (value : Option String) : Bound :=
  if bound.any (·.1 = name) then bound.map fun b => if b.1 = name then (name, value) else b
  else bound ++ [(name, value)]

/-- The text of a piece. A name that has been bound to nothing is empty, and no
text stands in for it. -/
def Piece.expand (env : Environment) (bound : Bound) : Piece → String
  | plain c => c.toString
  | reference name fallback =>
    match env.get? name with
    | some value => value
    | none =>
      match bound.get? name with
      | some value => value.getD ""
      | none => fallback

/-- A value with its references carried out. -/
def expand (env : Environment) (bound : Bound) (value : String) : String :=
  String.join ((piecesFrom 0 value.toList).map (·.expand env bound))

/-- Names and values once every reference has been carried out. -/
def resolve (env : Environment) (bs : List Binding) : Bound :=
  bs.foldl (fun bound b => bound.put b.name (b.value.map (expand env bound))) []

/-- Why a binding cannot be set. -/
inductive Error where
  /-- The name or the value holds the character zero. -/
  | nullCharacter
  /-- The name holds an equals sign. -/
  | badName
deriving DecidableEq, Repr

/-- The message of a refusal. -/
def Error.message : Error → String
  | nullCharacter => "embedded null byte"
  | badName => "illegal environment variable name"

/-- The environment with a variable set, where that can be done. -/
def set (env : Environment) (name value : String) : Except Error Environment :=
  if Char.ofNat 0 ∈ name.toList ∨ Char.ofNat 0 ∈ value.toList then .error .nullCharacter
  else if '=' ∈ name.toList then .error .badName
  else .ok (env.add name value)

/-- The environment with the bound names that it does not set. -/
def merge (env : Environment) : Bound → Except Error Environment
  | [] => .ok env
  | (name, some value) :: rest =>
    if (env.get? name).isSome then merge env rest
    else do merge (← set env name value) rest
  | (_, none) :: rest => merge env rest

/-- The variable that keeps the file from being read. -/
def disabling : String := "PYTHON_DOTENV_DISABLED"

/-- A character in lower case, the long `s` being an `s`. -/
def foldCase (c : Char) : Char := if c.toNat = 0x17F then 's' else c.toLower

/-- The file is not to be read. -/
def isDisabled (env : Environment) : Bool :=
  match env.get? disabling with
  | some value =>
    ["1", "true", "t", "yes", "y"].contains (String.ofList (value.toList.map foldCase))
  | none => false

/-- **The environment as a file completes it,** whose bindings are read off its text
in some way. -/
def load (read : String → List Binding) (env : Environment) (text : String) :
    Except Error Environment :=
  if isDisabled env then .ok env else merge env (resolve env (read text))

end Walkthrough.EnvFile
