import Walkthrough.Program
import Walkthrough.Server.Wire
/-!
# The command line program

Reads the files a run can need, follows its dialogue with a tool server, and
carries over to the outside what the chronicle tells: notices go to standard
output, logged records to standard error, written files to the disk. Starting
the server is left to whoever starts the program, who gives it descriptor 3 to
write to the server and descriptor 4 to read from it. Paths are taken from the
working directory.
-/

open Walkthrough Walkthrough.Json

namespace Walkthrough.Terminal

/-! ## Files -/

/-- What is on the disk at a path, put into a tree; of a directory, all that
is in it down to a depth. -/
def load (path : String) (place : Location) : Nat → FileTree → IO FileTree
  | depth, tree => do
    let onDisk := (← IO.currentDir) / path
    if !(← onDisk.pathExists) then return tree
    if ← onDisk.isDir then
      let tree := tree.put place .directory
      match depth with
      | 0 => return tree
      | depth + 1 =>
        (← onDisk.readDir).foldlM
          (fun tree e => load (path ++ "/" ++ e.fileName) (place ++ [e.fileName]) depth tree) tree
    else return tree.put place (.file (← IO.FS.readBinFile onDisk).toList)

/-- A path put into a tree part by part, with what is there down to a depth. -/
def plant (tree : FileTree) (path : String) (depth : Nat) : IO FileTree := do
  let rec walk (behind : String) (place : Location) : List String → FileTree → IO FileTree
    | [], tree => return tree
    | part :: rest, tree => do
      let here := behind ++ part
      if part = ".." then walk (here ++ "/") (Location.above place) rest tree
      else
        let place := place ++ [part]
        let tree ← load here place (if rest.isEmpty then depth else 0) tree
        walk (here ++ "/") place rest tree
  if Path.root path = "" then walk "./" [] (Path.parts path) tree
  else walk "/" Location.root (Path.parts path) tree

/-- The files that a run of some settings can need. -/
def gather (tree : FileTree) (s : Settings) (i : CommandLine.Invocation) : IO FileTree := do
  let tree ← plant tree s.documents 1
  let tree ← i.files.foldlM (plant · · 0) tree
  plant tree s.artifacts 6

/-- A file written at a path from the working directory. -/
def store (path : String) (bytes : List UInt8) : IO Unit := do
  let onDisk := (← IO.currentDir) / path
  if let some parent := onDisk.parent then IO.FS.createDirAll parent
  IO.FS.writeBinFile onDisk ⟨bytes.toArray⟩

/-! ## The environment -/

/-- The variables of the environment. -/
def environment : IO Environment := do
  let bytes ← IO.FS.readBinFile "/proc/self/environ"
  let texts := (Text.Utf8.decode bytes.toList).splitOn (Char.ofNat 0)
  return texts.filterMap fun text =>
    match text.dropWhile (· ≠ '=') with
    | [] => none
    | _ :: value => some (String.ofList (text.takeWhile (· ≠ '=')), String.ofList value)

/-! ## The dialogue -/

/-- A wire to a server. -/
structure Line where
  output : IO.FS.Handle
  input : IO.FS.Handle

/-- What the outside knows of a run: the wire, how many requests have been
numbered, and how much of the chronicle has been carried over. -/
structure Outside where
  line : Option Line := none
  number : Nat := 0
  told : Nat := 0

/-- An entry of the chronicle carried over to the outside. -/
def carryOver (level : Level) : Happening → IO Unit
  | .wrote path bytes => store path bytes
  | .printed notice => do
    let output ← IO.getStdout
    output.putStr notice.text
    output.flush
  | .logged entry => do
    if level = .debug || entry.level ≠ .debug then
      let line := entry.level.name ++ " " ++ entry.channel ++ ": " ++ entry.text ++ "\n"
      (← IO.getStderr).putStr line
  | _ => return ()

/-- The chronicle carried over as far as it goes. -/
def catchUp (level : Level) (w : World) (o : Outside) : IO Outside := do
  (w.chronicle.drop o.told).forM (carryOver level)
  return { o with told := w.chronicle.length }

/-- A message put on a wire. -/
def send (line : Line) (v : Value) : IO Unit := do
  line.output.putStr (v.toLine ++ "\n")
  line.output.flush

/-- The outcome that a wire brings for a numbered request. -/
partial def receive (line : Line) (number : Nat) : IO (Except ServerFault Value) := do
  let text ← line.input.getLine
  if text.isEmpty then return Wire.hungUp
  match Wire.outcome? number text with
  | some outcome => return outcome
  | none => receive line number

/-- The outcome of a request on a wire. -/
def exchange (line : Line) (number : Nat) (q : Request) : IO (Except ServerFault Value) := do
  match Wire.message? number q with
  | none => return .ok .null
  | some message =>
    send line message
    let outcome ← receive line number
    if let some thanks := Wire.acknowledgement? q then send line thanks
    return outcome

/-- The wire that the program was started with. -/
def openLine : IO Line := do
  return ⟨← IO.FS.Handle.mk "/dev/fd/3" .write, ← IO.FS.Handle.mk "/dev/fd/4" .read⟩

/-- The outcome of a request. -/
def outcomeOf (q : Request) (o : Outside) : IO (Except ServerFault Value × Outside) := do
  match q, o.line with
  | .connect _, _ => return (.ok .null, { o with line := some (← openLine) })
  | .disconnect, _ => return (.ok .null, { o with line := none })
  | q, some line => return (← exchange line o.number q, { o with number := o.number + 1 })
  | _, none => return (Wire.hungUp, o)

/-- The answer to a request, what goes wrong on the way being one too. -/
def answer (q : Request) (o : Outside) : IO (Answer × Outside) := do
  let start ← IO.monoNanosNow
  let (outcome, o) ←
    try outcomeOf q o
    catch e => pure (.error (.other "system" (toString e)), o)
  return ({ outcome, elapsed := (← IO.monoNanosNow) - start }, o)

/-- **A dialogue** with the server on the wire. -/
def converse (level : Level) : Dialogue α → Outside → IO (α × Outside)
  | .done a, o => return (a, o)
  | .ask w q k, o => do
    let (a, o) ← answer q (← catchUp level w o)
    converse level (k a) o

end Walkthrough.Terminal

open Walkthrough.Terminal

/-- **The program.** -/
def main (arguments : List String) : IO UInt32 := do
  let tree ← plant {} (Settings.filePath none) 0
  match Program.start arguments (← environment) tree with
  | .help =>
    IO.print CommandLine.help
    return UInt32.ofNat Program.helpStatus
  | .refused r =>
    IO.eprint (CommandLine.complaint r)
    return UInt32.ofNat Program.refusedStatus
  | .unset e => throw (IO.userError e.message)
  | .ready settings invocation =>
    let level := Program.level settings
    let tree ← gather tree settings invocation
    let begun := Program.exitStatus settings invocation (.start settings tree)
    let ((result, w), outside) ← converse level begun {}
    let _ ← catchUp level w outside
    match result with
    | .ok status => return UInt32.ofNat status
    | .error e => throw (IO.userError e.message)
