import Walkthrough.Path
import Walkthrough.Text.Quoted
/-!
# File trees

The files and directories below the directory that a run works in, and what a
run has put outside of it, where nothing else is known but that the
directories above are there. A path is followed part by part: each part but
the last must lead to a directory, a part of two dots leads to the directory
above, and a name must not be too long to be looked up. Reading, writing and
the making of directories refuse what the files do not allow, and name the
path in question. `node?_put` says what a change does to every place: it
changes that one alone.
-/

namespace Walkthrough

/-- A place in a tree: the names that lead to it. Outside of the directory
that a run works in the first of them is a slash, which is the root, or two
dots, which is the directory above; more pairs of dots lead further up. -/
abbrev Location := List String

namespace Location

/-- The root of all paths. -/
def root : Location := ["/"]

/-- A place that is there whatever the tree holds. -/
def isTop (l : Location) : Bool := l = root || l.all (· = "..")

/-- The place above a place. The root is above itself. -/
def above (l : Location) : Location :=
  if l = root then l else if l.all (· = "..") then l ++ [".."] else l.dropLast

/-- The way up from a place that is there leads to one that is there. -/
theorem isTop_above {l : Location} (h : l.isTop = true) : (above l).isTop = true := by
  unfold above
  split
  · exact h
  · next hr =>
    split
    · next hd => simp [isTop, List.all_append, hd]
    · next hd => simp [isTop, hr, hd] at h

/-- A place below the directory that a run works in. -/
def isInside (l : Location) : Bool := l.head?.all fun name => name ≠ "/" && name ≠ ".."

end Location

/-- What a place can hold. -/
inductive Node where
  | file (bytes : List UInt8)
  | directory
deriving DecidableEq, Repr, Inhabited

/-- Files and directories by their place. -/
structure FileTree where
  entries : List (Location × Node) := []
deriving DecidableEq, Repr, Inhabited

/-- Why a path cannot be used. -/
inductive FileTrouble where
  | missing
  | isDirectory
  | notDirectory
  | taken
  | tooLong
  | zeroCharacter
deriving DecidableEq, Repr

/-- A path that cannot be used. -/
structure FileError where
  trouble : FileTrouble
  path : String
deriving DecidableEq, Repr

/-- The message about a path that cannot be used. -/
def FileError.message (e : FileError) : String :=
  let about (text : String) := text ++ Text.quoted e.path
  match e.trouble with
  | .missing => about "[Errno 2] No such file or directory: "
  | .isDirectory => about "[Errno 21] Is a directory: "
  | .notDirectory => about "[Errno 20] Not a directory: "
  | .taken => about "[Errno 17] File exists: "
  | .tooLong => about "[Errno 36] File name too long: "
  | .zeroCharacter => "embedded null byte"

namespace FileTree

/-- What a place holds. The directory of a run and those above it are there. -/
def node? (t : FileTree) (l : Location) : Option Node :=
  if Location.isTop l then some .directory else (t.entries.find? (·.1 = l)).map (·.2)

/-- The tree with a place holding something new. -/
def put (t : FileTree) (l : Location) (n : Node) : FileTree :=
  if t.entries.any (·.1 = l) then
    ⟨t.entries.map fun e => if e.1 = l then (l, n) else e⟩
  else ⟨t.entries ++ [(l, n)]⟩

/-- The most bytes that a name can have. -/
def nameLimit : Nat := 255

/-- The most bytes that a path can have. -/
def pathLimit : Nat := 4095

/-- Where a path leads that starts at a place. -/
def locate (t : FileTree) (start : Location) : List String → Except FileTrouble Location
  | [] => .ok start
  | part :: rest =>
    match t.node? start with
    | none => .error .missing
    | some (.file _) => .error .notDirectory
    | some .directory =>
      if part = ".." then locate t (Location.above start) rest
      else if nameLimit < part.utf8ByteSize then .error .tooLong
      else locate t (start ++ [part]) rest

/-- Where a path leads. -/
def find (t : FileTree) (path : String) : Except FileTrouble Location :=
  if Char.ofNat 0 ∈ path.toList then .error .zeroCharacter
  else if path = "" then .error .missing
  else if pathLimit < path.utf8ByteSize then .error .tooLong
  else t.locate (if Path.root path = "" then [] else Location.root) (Path.parts path)

/-- What a path leads to is a directory. -/
def hasDirectory (t : FileTree) (path : String) : Bool :=
  match t.find path with
  | .ok l => t.node? l = some .directory
  | .error _ => false

/-- Whether the plain form of a path leads to a directory. There is no telling
where the path is too long; any other path that leads nowhere does not. -/
def isDirectory (t : FileTree) (path : String) : Except FileError Bool :=
  match t.find (Path.plain path) with
  | .error .tooLong => .error ⟨.tooLong, Path.plain path⟩
  | _ => .ok (t.hasDirectory (Path.plain path))

/-- The path can only mean a directory: it ends in a slash or a dot. -/
def asksForDirectory (path : String) : Bool :=
  !((Path.split path).getLast?.any Path.isPart)

/-- The bytes of the file at a path. -/
def read (t : FileTree) (path : String) : Except FileError (List UInt8) :=
  match t.find path with
  | .error e => .error ⟨e, path⟩
  | .ok l =>
    match t.node? l with
    | none => .error ⟨.missing, path⟩
    | some .directory => .error ⟨.isDirectory, path⟩
    | some (.file bytes) =>
      if asksForDirectory path then .error ⟨.notDirectory, path⟩ else .ok bytes

/-- The tree with a file written at a path. -/
def write (t : FileTree) (path : String) (bytes : List UInt8) : Except FileError FileTree :=
  match t.find path with
  | .error e => .error ⟨e, path⟩
  | .ok l =>
    match t.node? l with
    | some .directory => .error ⟨.isDirectory, path⟩
    | _ => .ok (t.put l (.file bytes))

/-- The tree with one directory more. -/
def makeOne (t : FileTree) (path : String) : Except FileTrouble FileTree :=
  match t.find path with
  | .error e => .error e
  | .ok l => if (t.node? l).isSome then .error .taken else .ok (t.put l .directory)

/-- A directory and those above it are made, and the tree is given back. The
parts of the path, which starts at some root, are given from the last to the
first. A directory that is there already will do, and those made before one
that cannot be stay. -/
def makeAll (root : String) (t : FileTree) : List String → Except FileError Unit × FileTree
  | [] => (.ok (), t)
  | last :: above =>
    let path := root ++ Path.join (last :: above).reverse
    let settle (t : FileTree) (e : FileTrouble) : Except FileError Unit × FileTree :=
      (if t.hasDirectory path then .ok () else .error ⟨e, path⟩, t)
    match t.makeOne path with
    | .ok made => (.ok (), made)
    | .error .missing =>
      match makeAll root t above with
      | (.error e, t) => (.error e, t)
      | (.ok (), t) =>
        match t.makeOne path with
        | .ok made => (.ok (), made)
        | .error e => settle t e
    | .error e => settle t e

/-- The directory at a path is made, and those above it. -/
def makeDirectories (t : FileTree) (path : String) : Except FileError Unit × FileTree :=
  makeAll (Path.root path) t (Path.parts path).reverse

/-- The names in the directory at a place. -/
def namesIn (t : FileTree) (l : Location) : List String :=
  t.entries.filterMap fun e =>
    if e.1.dropLast = l then e.1.getLast? else none

/-- The tree with something at a path and directories above it. -/
def plant (t : FileTree) (l : Location) (n : Node) : FileTree :=
  let above := (List.range l.length).filterMap fun k => if k = 0 then none else some (l.take k)
  (above.foldl (fun t a => if (t.node? a).isSome then t else t.put a .directory) t).put l n

/-- The tree of some paths and what stands there. -/
def ofList (contents : List (String × Node)) : FileTree :=
  contents.foldl (fun t c => t.plant (Path.parts c.1) c.2) {}

/-- The files in the directory of a run by their paths. -/
def files (t : FileTree) : List (String × List UInt8) :=
  t.entries.filterMap fun e =>
    match e.2 with
    | .file bytes => if Location.isInside e.1 then some (Path.join e.1, bytes) else none
    | .directory => none

/-- Replacing what one place holds does not move what another one holds. -/
theorem find?_replaced_of_ne (es : List (Location × Node)) {l k : Location} (n : Node)
    (h : k ≠ l) :
    (es.map fun e => if e.1 = l then (l, n) else e).find? (·.1 = k) = es.find? (·.1 = k) := by
  induction es with
  | nil => rfl
  | cons e es ih =>
    rw [List.map_cons, List.find?_cons, List.find?_cons, ih]
    by_cases he : e.1 = l
    · simp [he, Ne.symm h]
    · simp [he]

/-- What has been replaced is found. -/
theorem find?_replaced_self (es : List (Location × Node)) {l : Location} (n : Node)
    (h : es.any (·.1 = l) = true) :
    (es.map fun e => if e.1 = l then (l, n) else e).find? (·.1 = l) = some (l, n) := by
  induction es with
  | nil => simp at h
  | cons e es ih =>
    rw [List.map_cons, List.find?_cons]
    by_cases he : e.1 = l
    · simp [he]
    · have : es.any (·.1 = l) = true := by simpa [he] using h
      simp [he, ih this]

/-- **A change is a change of one place.** -/
theorem node?_put (t : FileTree) {l k : Location} (n : Node) (hl : Location.isTop l = false) :
    (t.put l n).node? k = if k = l then some n else t.node? k := by
  by_cases hk : Location.isTop k = true
  · have : k ≠ l := fun h => by simp [h, hl] at hk
    simp [node?, hk, this]
  · simp only [node?, hk, put]
    by_cases h : t.entries.any (·.1 = l) = true
    · rw [if_pos h]
      by_cases hkl : k = l
      · subst hkl
        simp [find?_replaced_self _ n h]
      · simp [hkl, find?_replaced_of_ne _ n hkl]
    · rw [if_neg h, List.find?_append]
      by_cases hkl : k = l
      · subst hkl
        have : t.entries.find? (·.1 = k) = none := by
          rw [List.find?_eq_none]
          intro e he hek
          exact h (List.any_eq_true.2 ⟨e, he, hek⟩)
        simp [this]
      · simp [hkl, Ne.symm hkl]

end FileTree

end Walkthrough
