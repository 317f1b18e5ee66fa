/-!
# Words of a command

A command text is cut into words as a shell does it: words stand between
blanks, tabs and line ends; within apostrophes everything stands for itself;
within double quotes a backslash escapes a double quote or a backslash and
otherwise stands for itself; outside of quotes it escapes any character. A word
may be empty where quotes show it.
-/

namespace Walkthrough.ShellWords

/-- Why a text is no list of words. -/
inductive Error where
  /-- The text ends within quotes. -/
  | openQuote
  /-- The text ends behind a backslash. -/
  | openEscape
deriving DecidableEq, Repr

/-- The message of a refusal. -/
def Error.message : Error → String
  | openQuote => "No closing quotation"
  | openEscape => "No escaped character"

/-- Where the reader stands: between words or in one, within apostrophes or
double quotes, or behind a backslash outside or within double quotes. -/
inductive Place where
  | between
  | word
  | single
  | double
  | escape
  | doubleEscape
deriving DecidableEq, Repr

/-- A character that parts words. -/
def isGap (c : Char) : Bool := c = ' ' || c = '\t' || c = '\r' || c = '\n'

/-- The place that a character leads to outside of quotes. -/
def opened (c : Char) : Place :=
  if c = '\'' then .single else if c = '"' then .double else if c = '\\' then .escape else .word

/-- What a character adds to a word outside of quotes. -/
def added (c : Char) : List Char := if c = '\'' ∨ c = '"' ∨ c = '\\' then [] else [c]

/-- A word in front of others. -/
def consWord (w : List Char) (rest : Except Error (List (List Char))) :
    Except Error (List (List Char)) :=
  rest.map (w :: ·)

/-- The words of a text, given the place and the word begun. -/
def wordsFrom : Place → List Char → List Char → Except Error (List (List Char))
  | .between, _, [] => .ok []
  | .word, w, [] => .ok [w]
  | .single, _, [] => .error .openQuote
  | .double, _, [] => .error .openQuote
  | .escape, _, [] => .error .openEscape
  | .doubleEscape, _, [] => .error .openEscape
  | .between, _, c :: rest =>
    if isGap c then wordsFrom .between [] rest else wordsFrom (opened c) (added c) rest
  | .word, w, c :: rest =>
    if isGap c then consWord w (wordsFrom .between [] rest)
    else wordsFrom (opened c) (w ++ added c) rest
  | .single, w, c :: rest =>
    if c = '\'' then wordsFrom .word w rest else wordsFrom .single (w ++ [c]) rest
  | .double, w, c :: rest =>
    if c = '"' then wordsFrom .word w rest
    else if c = '\\' then wordsFrom .doubleEscape w rest
    else wordsFrom .double (w ++ [c]) rest
  | .escape, w, c :: rest => wordsFrom .word (w ++ [c]) rest
  | .doubleEscape, w, c :: rest =>
    wordsFrom .double (if c = '"' ∨ c = '\\' then w ++ [c] else w ++ ['\\', c]) rest

/-- **The words of a command.** -/
def split (text : String) : Except Error (List String) :=
  (wordsFrom .between [] text.toList).map (·.map String.ofList)

end Walkthrough.ShellWords
