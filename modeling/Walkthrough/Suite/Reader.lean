import Walkthrough.Suite
import Walkthrough.Text.Blank
import Walkthrough.Text.Bytes
/-!
# Reading a document

A document is read line by line. A line whose trimmed text starts with `case:`
opens a case; one that starts with a dash is a step of the case that is open,
or of none. A document without cases is one case that holds all its steps. The
name of the suite stands behind the first `suite:` that opens a line, lines
being cut at line feeds alone for this purpose: it is the first text behind
the marker, on whatever line, up to the end of that line.
-/

namespace Walkthrough.Suite

open Walkthrough.Text

/-- What opens a case. -/
def caseMarker : List Char := "case:".toList

/-- What stands in front of the name of a suite. -/
def nameMarker : List Char := "suite:".toList

/-- The title of a case whose marker stands alone. -/
def untitledCase : List Char := "case".toList

/-- A step without its dashes and the blanks around it. -/
def stripBullet (line : List Char) : List Char :=
  trim ((trim line).dropWhile (· = '-'))

/-- The title of the case that a line opens. -/
def caseTitle? (line : List Char) : Option (List Char) :=
  (caseMarker.isPrefixOf? (trim line)).map fun rest =>
    match trim rest with
    | [] => untitledCase
    | title => title

/-- The step that a line states. -/
def bullet? (line : List Char) : Option (List Char) :=
  if (trim line).head? = some '-' then some (stripBullet line) else none

/-- Steps that belong to no case, then the cases. -/
structure Sections where
  loose : List String
  cases : List Case
deriving DecidableEq, Repr

/-- A line put in front of the sections below it. -/
def Sections.cons (line : List Char) (below : Sections) : Sections :=
  match caseTitle? line with
  | some title => ⟨[], ⟨String.ofList title, below.loose⟩ :: below.cases⟩
  | none =>
    match bullet? line with
    | some step => ⟨String.ofList step :: below.loose, below.cases⟩
    | none => below

/-- The sections of some lines. -/
def sections (ls : List (List Char)) : Sections := ls.foldr .cons ⟨[], []⟩

/-- The cases of a text. -/
def casesOf (text : List Char) : List Case :=
  match sections (lines text) with
  | ⟨loose, []⟩ => [⟨defaultCaseTitle, loose⟩]
  | ⟨_, cases⟩ => cases

/-- What follows the first name marker that opens a line, the flag telling
whether a line starts here. -/
def afterNameMarker? : Bool → List Char → Option (List Char)
  | _, [] => none
  | atStart, c :: rest =>
    match if atStart then nameMarker.isPrefixOf? (trimStart (c :: rest)) else none with
    | some after => some after
    | none => afterNameMarker? (c = '\n') rest

/-- The name that stands behind a marker. Where only blanks follow, the last
of them that is no line feed is the name. -/
def nameIn? (after : List Char) : Option (List Char) :=
  match trimStart after with
  | [] => ((after.filter (· ≠ '\n')).getLast?).map ([·])
  | text => some (trimEnd (text.takeWhile (· ≠ '\n')))

/-- The name that a text gives its suite. -/
def name? (text : List Char) : Option (List Char) :=
  (afterNameMarker? true text).bind nameIn?

/-- **The suite of a document text.** -/
def parse (text : String) (source : Option String) : Suite where
  name := ((name? text.toList).map String.ofList).getD defaultName
  cases := casesOf text.toList
  source := source

/-- The suite of a document file. -/
def ofFile (path : String) (bytes : List UInt8) : Suite :=
  parse (ofBytes bytes) (some path)

end Walkthrough.Suite
