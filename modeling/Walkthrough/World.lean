import Walkthrough.Chronicle
import Walkthrough.FileTree
import Walkthrough.Settings
/-!
# The world of a run

What a run knows and can change: its connection to the tool server, where its
reports go, the files, the chronicle so far, and the clock. The clock counts
nanoseconds and moves only while the tool server is at work.
-/

namespace Walkthrough

/-- A connection to a tool server. Once closed it stays retired: it can be
connected again, but closing it again does nothing. -/
structure Connection where
  command : List String
  connected : Bool := false
  retired : Bool := false
  scriptReady : Bool := false
deriving DecidableEq, Repr, Inhabited

/-- Where reports go: the directory for all of them, the one of the document
being run, and how many of its pages have been kept. -/
structure Desk where
  artifacts : String
  current : Option String := none
  pages : Nat := 0
deriving DecidableEq, Repr, Inhabited

/-- A desk that writes below a directory. -/
def Desk.at (directory : String) : Desk := ⟨Path.plain directory, none, 0⟩

/-- What a run knows and can change. -/
structure World where
  connection : Connection
  desk : Desk
  files : FileTree := {}
  chronicle : Chronicle := []
  clock : Nat := 0
deriving Repr, Inhabited

namespace World

/-- The world with one more entry in the chronicle. -/
def record (w : World) (h : Happening) : World := { w with chronicle := w.chronicle ++ [h] }

/-- The world in which a run of some settings starts. -/
def start (settings : Settings) (files : FileTree) : World where
  connection := ⟨settings.command, false, false, false⟩
  desk := .at settings.artifacts
  files := files

end World

end Walkthrough
