import Walkthrough.Text.Digit
import Walkthrough.Text.Quoted
/-!
# The command line

The arguments are documents to run, and two options: one asks for help, the
other for a look at a single page. Arguments are sorted first, each by its
form alone, and then read from left to right. An option with two dashes can be
cut short as long as it stays clear which one is meant, and can hold its value
behind an equals sign. Documents stand together: those in front of an option
and those behind it are not taken as one list, and whatever is left over is
refused at the end.
-/

namespace Walkthrough.CommandLine

/-- The options. -/
inductive OptionName where
  | help
  | probe
deriving DecidableEq, Repr

namespace OptionName

/-- All options. -/
def all : List OptionName := [help, probe]

/-- The name of an option with two dashes. -/
def long : OptionName → String
  | help => "--help"
  | probe => "--probe"

/-- All spellings of an option. -/
def spellings : OptionName → String
  | help => "-h/--help"
  | probe => "--probe"

end OptionName

/-- An argument by its form. -/
inductive Word where
  /-- A document, or the value of an option in front of it. -/
  | plain (text : String)
  /-- Two dashes, behind which no argument is an option. -/
  | separator
  /-- An option, spelled short or long, with a value inside the argument. -/
  | named (o : OptionName) (short : Bool) (inside : Option String)
  /-- An option that there is not. -/
  | unknown (text : String)
deriving DecidableEq, Repr

/-- Why arguments are refused. -/
inductive Refusal where
  /-- More than one option can be meant. -/
  | ambiguous (argument : String) (candidates : List OptionName)
  /-- The option takes no value. -/
  | needless (o : OptionName) (value : String)
  /-- The option needs a value. -/
  | valueMissing (o : OptionName)
  /-- There is no use for some arguments. -/
  | leftOver (arguments : List String)
deriving DecidableEq, Repr

/-- The message of a refusal. -/
def Refusal.message : Refusal → String
  | ambiguous argument candidates =>
    "ambiguous option: " ++ argument ++ " could match " ++
      ", ".intercalate (candidates.map (·.long))
  | needless o value =>
    "argument " ++ o.spellings ++ ": ignored explicit argument " ++ Text.quoted value
  | valueMissing o => "argument " ++ o.spellings ++ ": expected one argument"
  | leftOver arguments => "unrecognized arguments: " ++ " ".intercalate arguments

/-- A text cut at its first equals sign. -/
def cutAtEquals (cs : List Char) : List Char × Option String :=
  match cs.dropWhile (· ≠ '=') with
  | [] => (cs, none)
  | _ :: value => (cs.takeWhile (· ≠ '='), some (String.ofList value))

/-- The short spelling of the option for help. -/
def shortHelp : List Char := ['-', 'h']

/-- The option that a text spells in full. -/
def spelled? (cs : List Char) : Option (OptionName × Bool) :=
  if cs = shortHelp then some (.help, true)
  else (OptionName.all.find? (·.long.toList = cs)).map (·, false)

/-- A number below zero. -/
def isNegativeNumber (cs : List Char) : Bool :=
  let body := if cs.getLast? = some '\n' then cs.dropLast else cs
  match body with
  | '-' :: number =>
    let fraction := (number.dropWhile Text.isDecimalDigit)
    match fraction with
    | [] => !number.isEmpty
    | '.' :: digits => !digits.isEmpty && digits.all Text.isDecimalDigit
    | _ => false
  | _ => false

/-- An argument that spells no option. -/
def other (cs : List Char) : Word :=
  let text := String.ofList cs
  if isNegativeNumber cs ∨ ' ' ∈ cs then .plain text else .unknown text

/-- An argument with two dashes in front that spells no option in full. -/
def shortened (cs : List Char) : Except Refusal Word :=
  let (start, inside) := cutAtEquals cs
  match OptionName.all.filter fun o => start.isPrefixOf o.long.toList with
  | [] => .ok (other cs)
  | [o] => .ok (.named o false inside)
  | candidates => .error (.ambiguous (String.ofList cs) candidates)

/-- **An argument by its form,** none being a lone pair of dashes. -/
def wordOf (cs : List Char) : Except Refusal Word :=
  if cs.head? ≠ some '-' ∨ cs = ['-'] then .ok (.plain (String.ofList cs))
  else
    match spelled? cs with
    | some (o, short) => .ok (.named o short none)
    | none =>
      let (start, inside) := cutAtEquals cs
      match (if inside.isSome then spelled? start else none) with
      | some (o, short) => .ok (.named o short inside)
      | none =>
        if ['-', '-'].isPrefixOf cs then shortened cs
        else if shortHelp.isPrefixOf cs then
          .ok (.named .help true (some (String.ofList (cs.drop 2))))
        else .ok (other cs)

/-- The arguments by their form. -/
def words : List String → Except Refusal (List Word)
  | [] => .ok []
  | argument :: rest =>
    if argument = "--" then .ok (.separator :: rest.map .plain)
    else do
      let word ← wordOf argument.toList
      return word :: (← words rest)

/-- Whether documents have been met, and whether more can follow them. -/
inductive Place where
  | before
  | among
  | behind
deriving DecidableEq, Repr

/-- The place at an option. -/
def Place.atOption : Place → Place
  | before => before
  | _ => behind

/-- What has been read of the arguments. -/
structure Read where
  files : List String := []
  probe : Option String := none
  leftOver : List String := []
  place : Place := .before
deriving DecidableEq, Repr

/-- Why reading ends early. -/
inductive Stop where
  | helpAsked
  | refused (r : Refusal)
deriving DecidableEq, Repr

namespace Read

/-- One more document, or one argument too many. -/
def file (r : Read) (text : String) : Read :=
  if r.place = .behind then { r with leftOver := r.leftOver ++ [text] }
  else { r with files := r.files ++ [text], place := .among }

/-- The pair of dashes, which is no document where documents may stand. -/
def dashes (r : Read) : Read :=
  if r.place = .behind then { r with leftOver := r.leftOver ++ ["--"] }
  else { r with place := .among }

/-- A page to look at. A lone pair of dashes means none. -/
def look (r : Read) (value : String) : Read :=
  { r with probe := if value = "--" then none else some value, place := r.place.atOption }

/-- An option that there is not. -/
def stray (r : Read) (text : String) : Read :=
  { r with leftOver := r.leftOver ++ [text], place := r.place.atOption }

end Read

/-- What follows from a value inside the option for help: each of its letters
would have to be that option again. -/
def helpStop : List Char → Stop
  | [] => .refused (.needless .help "")
  | c :: rest =>
    if c ≠ 'h' then .refused (.needless .help (String.ofList (c :: rest)))
    else if rest.isEmpty then .helpAsked
    else helpStop rest

/-- The arguments read from left to right. -/
def readWords (r : Read) : List Word → Except Stop Read
  | [] => .ok r
  | .plain text :: rest => readWords (r.file text) rest
  | .separator :: rest => readWords r.dashes rest
  | .unknown text :: rest => readWords (r.stray text) rest
  | .named .help _ none :: _ => .error .helpAsked
  | .named .help true (some inside) :: _ => .error (helpStop inside.toList)
  | .named .help false (some inside) :: _ => .error (.refused (.needless .help inside))
  | .named .probe _ (some value) :: rest => readWords (r.look value) rest
  | .named .probe _ none :: .plain value :: rest => readWords (r.look value) rest
  | .named .probe _ none :: _ => .error (.refused (.valueMissing .probe))

/-- What the arguments ask for. -/
structure Invocation where
  files : List String
  probe : Option String
deriving DecidableEq, Repr

/-- **What the arguments ask for,** unless they ask for help or are refused. -/
def parse (arguments : List String) : Except Stop Invocation :=
  match words arguments with
  | .error e => .error (.refused e)
  | .ok ws =>
    match readWords {} ws with
    | .error e => .error e
    | .ok r =>
      if r.leftOver.isEmpty then .ok ⟨r.files, r.probe⟩
      else .error (.refused (.leftOver r.leftOver))

/-- How the program is used. -/
def usage : String := "usage: mdwright [-h] [--probe URL] [files ...]\n"

/-- What the program does, in a sentence. -/
def purpose : String := "Run natural-language browser scenarios through a browser tool server\n"

/-- What is said about the documents. -/
def filesHelp : String :=
  "positional arguments:\n  files        scenario documents (default: every .md in NL_DIR)\n"

/-- What is said about the options. -/
def optionsHelp : String :=
  "options:\n  -h, --help   show this help message and exit\n" ++
    "  --probe URL  snapshot a single page instead of running scenarios\n"

/-- The text of the help. -/
def help : String := usage ++ "\n" ++ purpose ++ "\n" ++ filesHelp ++ "\n" ++ optionsHelp

/-- What is said about arguments that are refused. -/
def complaint (r : Refusal) : String := usage ++ "mdwright: error: " ++ r.message ++ "\n"

end Walkthrough.CommandLine
