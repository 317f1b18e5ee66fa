import Walkthrough.Json.Value
/-!
# The chronicle

Everything that a run does to its surroundings is an entry of one chronicle,
in order: what passes between it and the tool server, the files it writes, the
notices it prints and the records it logs. What a reader of one channel sees
is a view of the chronicle.
-/

namespace Walkthrough

/-- A notice printed for the one who started the run. -/
inductive Notice where
  | suiteStarted (name : String) (source : Option String) (steps : Nat)
  | caseStarted (title : String)
  | stepPassed (step : String)
  | stepFailed (step : String) (reason : Option String)
  | suiteFinished (source : Option String) (passed failed : Nat)
  | probed (url path : String)
deriving DecidableEq, Repr

namespace Notice

/-- A text, or the word for no text. -/
def orNone (s : Option String) : String := s.getD "None"

/-- The text of a notice, with its line ends. -/
def text : Notice → String
  | suiteStarted name source steps =>
    "[exec] suite=" ++ name ++ " file=" ++ orNone source ++ " steps=" ++ toString steps ++ "\n"
  | caseStarted title => "  case: " ++ title ++ "\n"
  | stepPassed step => "   ✓ " ++ step ++ "\n"
  | stepFailed step reason => "   ✕ " ++ step ++ "  (" ++ orNone reason ++ ")\n"
  | suiteFinished source passed failed =>
    if failed = 0 then
      "\n PASS " ++ orNone source ++ " (" ++ toString passed ++ "/" ++ toString (passed + failed) ++
        ")\n\n"
    else
      "\n FAIL " ++ orNone source ++ " (" ++ toString passed ++ " passed, " ++ toString failed ++
        " failed)\n\n"
  | probed url path => "[probe] " ++ url ++ " -> " ++ path ++ "\n"

end Notice

/-- How much a logged record matters. -/
inductive Level where
  | debug
  | info
  | warning
  | error
deriving DecidableEq, Repr

/-- The name of a level. -/
def Level.name : Level → String
  | debug => "DEBUG"
  | info => "INFO"
  | warning => "WARNING"
  | error => "ERROR"

/-- A logged record. -/
inductive LogEntry where
  | connected (command : List String)
  | disconnected
  | emptyPage (url alternative : String)
  | unrecognized (step : String)
  | noNavigation
  | snapshotSaved (path : String)
  | nothingToRun (message : String)
  | runFailed (message : String)
deriving DecidableEq, Repr

namespace LogEntry

/-- The level of a record. -/
def level : LogEntry → Level
  | unrecognized _ => .warning
  | nothingToRun _ | runFailed _ => .error
  | _ => .info

/-- The channel of a record. -/
def channel : LogEntry → String
  | connected _ | disconnected => "mcp_session"
  | emptyPage _ _ | unrecognized _ => "step_definitions"
  | noNavigation => "scenario_executor"
  | snapshotSaved _ => "run_reporter"
  | nothingToRun _ | runFailed _ => "mdwright"

/-- The text of a record. -/
def text : LogEntry → String
  | connected command =>
    "Connected to tool server: " ++ command.headD "" ++ " " ++ " ".intercalate command.tail
  | disconnected => "Disconnected from tool server"
  | emptyPage url alternative => "Empty page at " ++ url ++ ", trying " ++ alternative
  | unrecognized step => "Unrecognized step: " ++ step
  | noNavigation => "No navigation step, opening the base URL first"
  | snapshotSaved path => "Debug snapshot saved: " ++ path
  | nothingToRun message => message ++ ". Usage: mdwright [tests/md/Some.md]"
  | runFailed message => "[E-EXEC] " ++ message

end LogEntry

/-- The arguments of a tool call, by name. -/
abbrev Arguments := List (String × Json.Value)

/-- An entry of the chronicle. -/
inductive Happening where
  /-- A transport to a tool server was to be opened by a command. -/
  | opened (command : List String)
  /-- The tool server was greeted. -/
  | greeted
  /-- A transport was to be closed. -/
  | closed
  /-- A tool was called. -/
  | called (tool : String) (args : Arguments)
  /-- A file was written. -/
  | wrote (path : String) (bytes : List UInt8)
  /-- A notice was printed. -/
  | printed (notice : Notice)
  /-- A record was logged. -/
  | logged (entry : LogEntry)
deriving Repr

/-- Entries in the order in which they came. -/
abbrev Chronicle := List Happening

namespace Chronicle

/-- What passed between the run and the tool server. -/
def exchanges (c : Chronicle) : Chronicle :=
  c.filter fun
    | .opened _ | .greeted | .closed | .called _ _ => true
    | _ => false

/-- The notices printed. -/
def notices (c : Chronicle) : List Notice :=
  c.filterMap fun
    | .printed n => some n
    | _ => none

/-- The text printed. -/
def console (c : Chronicle) : String := String.join (c.notices.map (·.text))

/-- The records logged. -/
def log (c : Chronicle) : List LogEntry :=
  c.filterMap fun
    | .logged e => some e
    | _ => none

/-- The names of the tools called. -/
def tools (c : Chronicle) : List String :=
  c.filterMap fun
    | .called t _ => some t
    | _ => none

end Chronicle

end Walkthrough
