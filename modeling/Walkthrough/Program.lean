import Walkthrough.CommandLine
import Walkthrough.Run
import Walkthrough.Settings.Reading
/-!
# The program

From the arguments and the environment to an exit status. Arguments come
first: they may end the program with its help or a complaint. Then settings
are read, and then the run begins, every fault of which is logged and turned
into an exit status.
-/

namespace Walkthrough.Program

/-- What comes of the arguments, the environment and the files at hand. -/
inductive Start where
  /-- The arguments ask for help. -/
  | help
  /-- The arguments are refused. -/
  | refused (r : CommandLine.Refusal)
  /-- The settings cannot be read. -/
  | unset (e : Settings.Error)
  /-- A run can begin. -/
  | ready (s : Settings) (i : CommandLine.Invocation)
deriving DecidableEq, Repr

/-- **What comes of the arguments,** the environment and the files at hand. -/
def start (arguments : List String) (env : Environment) (tree : FileTree) : Start :=
  match CommandLine.parse arguments with
  | .error .helpAsked => .help
  | .error (.refused r) => .refused r
  | .ok i =>
    match Settings.ofFiles EnvFile.bindings env tree none with
    | .error e => .unset e
    | .ok s => .ready s i

/-- The exit status after help has been given. -/
def helpStatus : Nat := 0

/-- The exit status after arguments have been refused. -/
def refusedStatus : Nat := 2

/-- The exit status where there was nothing to run. -/
def nothingStatus : Nat := 2

/-- The exit status after a fault. -/
def faultStatus : Nat := 1

/-- The least level of what is logged under some settings. -/
def level (s : Settings) : Level := if s.debug then .debug else .info

/-- **A run and its exit status.** No fault is left. -/
def exitStatus (s : Settings) (i : CommandLine.Invocation) : Act Nat := do
  match ← .attempt (Run.run s i.files i.probe) with
  | .ok status => return status
  | .error (.noDocuments directory) =>
    .log (.nothingToRun (Fault.noDocuments directory).message)
    return nothingStatus
  | .error e =>
    .log (.runFailed e.message)
    return faultStatus

end Walkthrough.Program
