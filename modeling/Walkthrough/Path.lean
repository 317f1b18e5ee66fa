/-!
# Paths

A path is a text of parts between slashes. In its plain form the empty parts
and the parts that are a single dot are gone; parts of two dots stay, since
what they lead to depends on the files. The name of a path is its last part;
the name's extension is what follows its last dot, where something stands
before that dot and something behind it.
-/

namespace Walkthrough.Path

/-- The parts of a path between its slashes. -/
def split (path : String) : List String :=
  (path.toList.splitOn '/').map String.ofList

/-- A part that names something. -/
def isPart (part : String) : Bool := part ≠ "" && part ≠ "."

/-- The parts of a path that name something. -/
def parts (path : String) : List String := (split path).filter isPart

/-- The slash or two slashes that a path from the root starts with. -/
def root (path : String) : String :=
  match path.toList with
  | '/' :: '/' :: '/' :: _ => "/"
  | '/' :: '/' :: _ => "//"
  | '/' :: _ => "/"
  | _ => ""

/-- The text of some parts. -/
def join (ps : List String) : String := "/".intercalate ps

/-- A path in its plain form; the path without parts is the dot. -/
def plain (path : String) : String :=
  let whole := root path ++ join (parts path)
  if whole = "" then "." else whole

/-- A part below a path in its plain form. -/
def child (path part : String) : String :=
  if path = "." then part else if path.toList.getLast? = some '/' then path ++ part
  else path ++ "/" ++ part

/-- The last part of a path, empty where it has none. -/
def name (path : String) : String := ((parts path).getLast?).getD ""

/-- A name cut before its last dot, where something stands on both sides of
it. -/
def cutName (name : List Char) : List Char × List Char :=
  let after := (name.reverse.takeWhile (· ≠ '.')).reverse
  let before := name.take (name.length - after.length - 1)
  if '.' ∈ name ∧ before ≠ [] ∧ after ≠ [] then (before, '.' :: after) else (name, [])

/-- The name of a path without its extension. -/
def stem (path : String) : String := String.ofList (cutName (name path).toList).1

/-- The extension of a path with its dot, empty where it has none. -/
def extension (path : String) : String := String.ofList (cutName (name path).toList).2

end Walkthrough.Path
