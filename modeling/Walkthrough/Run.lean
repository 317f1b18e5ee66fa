import Walkthrough.Run.Suite
/-!
# Runs

One run: it finds out what there is to do, connects to the tool server, does
it, and closes the connection whatever comes of it. Without documents named
and without a probe, every document in the directory for documents is carried
out, in the order of their paths.
-/

namespace Walkthrough.Run

/-- What a run is for. -/
inductive Task where
  /-- A look at one page. -/
  | probe (target : String)
  /-- Documents at some paths. -/
  | documents (paths : List String)
deriving DecidableEq, Repr

/-- The name is that of a document. -/
def isDocumentName (name : String) : Bool := ".md".toList.isSuffixOf name.toList

/-- The paths of the documents in a directory, in order. -/
def documentsIn (tree : FileTree) (directory : String) : Except FileError (List String) := do
  if ← tree.isDirectory directory then
    match tree.find (Path.plain directory) with
    | .ok place =>
      let names := (tree.namesIn place).filter isDocumentName
      return (names.map (Path.child (Path.plain directory))).mergeSort
    | .error _ => return []
  else return []

/-- **The documents of a run:** those named, or else all in a directory. -/
def documents (tree : FileTree) (directory : String) (named : List String) :
    Except FileError (List String) :=
  if named.isEmpty then documentsIn tree directory else .ok named

/-- **What a run is for,** where there is anything to do. An empty probe is
none. -/
def taskOf (tree : FileTree) (settings : Settings) (named : List String) (target : Option String) :
    Except Fault Task :=
  match target.filter (· ≠ "") with
  | some t => .ok (.probe t)
  | none =>
    match documents tree settings.documents named with
    | .error e => .error (.file e)
    | .ok [] => .error (.noDocuments settings.documents)
    | .ok paths => .ok (.documents paths)

/-- A task is carried out, and the exit status is returned. -/
def carryOut (c : Conduct) : Task → Act Nat
  | .probe target => do
    let _ ← probe c target
    return 0
  | .documents paths => do
    return (← runFiles c paths).exitCode

/-- What is done with the connection of a session: it is opened, and closed in
any case. -/
def connected (x : Act α) : Act α := Act.andFinally (do Session.connect; x) Session.close

/-- **One run.** Returns the exit status. -/
def run (settings : Settings) (named : List String) (target : Option String) : Act Nat := do
  let task ← .ofExcept id (taskOf (← .read (·.files)) settings named target)
  Session.requireCommand
  connected (carryOut (.ofSettings settings) task)

end Walkthrough.Run
