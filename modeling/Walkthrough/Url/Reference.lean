import Walkthrough.Url.Split
/-!
# References

A reference is a URL or a part of one, read against a base. It takes over from
the base whatever it leaves out in front of its first own part: the scheme,
the authority, and for a relative path the directory of the base's path.
Segments of one and two dots are then carried out, never above the root. The
parameters behind a semicolon in the last segment are no part of the path for
this purpose.
-/

namespace Walkthrough.Url

/-- The schemes whose references are read against a base. -/
def relativeSchemes : List (List Char) :=
  ["", "ftp", "http", "gopher", "nntp", "imap", "wais", "file", "https", "shttp", "mms",
    "prospero", "rtsp", "rtspu", "sftp", "svn", "svn+ssh", "ws", "wss"].map String.toList

/-- The schemes whose paths have parameters. -/
def parameterSchemes : List (List Char) :=
  ["", "ftp", "hdl", "prospero", "http", "imap", "https", "shttp", "rtsp", "rtspu",
    "sip", "sips", "mms", "sftp", "tel"].map String.toList

/-- A path without the parameters of its last segment, and these. -/
def cutParameters (path : List Char) : List Char × List Char :=
  let last := (path.reverse.takeWhile (· ≠ '/')).reverse
  let front := path.take (path.length - last.length)
  (front ++ (cutAt ';' last).1, (cutAt ';' last).2)

/-- A URL whose parameters are apart from its path. -/
structure Reference where
  parts : Parts
  parameters : List Char
deriving DecidableEq, Repr

/-- A text as a reference, with a scheme to assume. -/
def Reference.ofText (assumed text : List Char) : Except Error Reference := do
  let p ← splitWith assumed text
  if isOneOf parameterSchemes p.scheme then
    let (path, parameters) := cutParameters p.path
    return ⟨{ p with path := path }, parameters⟩
  else return ⟨p, []⟩

/-- The text of a reference. -/
def Reference.text (r : Reference) : List Char :=
  { r.parts with path := r.parts.path ++ marked ';' r.parameters }.join

/-- A segment that names the directory it stands in. -/
def oneDot : List Char := ['.']

/-- A segment that names the directory above. -/
def twoDots : List Char := ['.', '.']

/-- Segments with those of dots carried out, the last one first. -/
def walk (visited : List (List Char)) : List (List Char) → List (List Char)
  | [] => visited
  | s :: rest =>
    if s = twoDots then walk visited.tail rest
    else if s = oneDot then walk visited rest
    else walk (s :: visited) rest

/-- Segments with those of dots carried out. Where the last one is of dots,
what is left ends in a slash. -/
def resolveDots (segments : List (List Char)) : List (List Char) :=
  let kept := (walk [] segments).reverse
  match segments.getLast? with
  | some last => if last = oneDot ∨ last = twoDots then kept ++ [[]] else kept
  | none => kept

/-- The directory of a path, as segments: the last one is left out unless it
is empty. -/
def directory (path : List Char) : List (List Char) :=
  let segments := path.splitOn '/'
  if segments.getLast? = some [] then segments else segments.dropLast

/-- Segments without the empty ones between the first and the last. -/
def dropInnerEmpty : List (List Char) → List (List Char)
  | [] => []
  | [s] => [s]
  | s :: rest => s :: (rest.dropLast.filter (· ≠ []) ++ rest.getLast?.toList)

/-- The segments that a path stands for, read against the path of a base. -/
def segmentsAgainst (base path : List Char) : List (List Char) :=
  if path.head? = some '/' then path.splitOn '/'
  else dropInnerEmpty (directory base ++ path.splitOn '/')

/-- The path that a path stands for, read against the path of a base. -/
def pathAgainst (base path : List Char) : List Char :=
  match ['/'].intercalate (resolveDots (segmentsAgainst base path)) with
  | [] => ['/']
  | joined => joined

/-- A reference completed from a base of the same scheme. -/
def Reference.completed (r base : Reference) : List Char :=
  let hasAuthority := isOneOf authoritySchemes r.parts.scheme
  if hasAuthority && r.parts.authority ≠ [] then r.text
  else
    let authority := if hasAuthority then base.parts.authority else r.parts.authority
    if r.parts.path = [] ∧ r.parameters = [] then
      let query := if r.parts.query = [] then base.parts.query else r.parts.query
      Reference.text
        ⟨{ r.parts with authority := authority, path := base.parts.path, query := query },
          base.parameters⟩
    else
      let path := pathAgainst base.parts.path r.parts.path
      Reference.text ⟨{ r.parts with authority := authority, path := path }, r.parameters⟩

/-- **A reference read against a base.** -/
def resolve (base text : List Char) : Except Error (List Char) :=
  if base = [] then .ok text
  else if text = [] then .ok base
  else do
    let b ← Reference.ofText [] base
    let r ← Reference.ofText b.parts.scheme text
    if r.parts.scheme ≠ b.parts.scheme ∨ !isOneOf relativeSchemes r.parts.scheme then return text
    else return r.completed b

end Walkthrough.Url
