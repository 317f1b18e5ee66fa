import Walkthrough.Act
import Walkthrough.Json.Writer
import Walkthrough.Outcome.Record
import Walkthrough.Slug
import Walkthrough.Suite
import Walkthrough.Text.Bytes
/-!
# Reports

What a run leaves behind, below one directory. Each document has a directory
of its own, named by the slug of its file name: the plan of the document is
written there before any step is carried out, the result after the last one,
and kept pages are numbered. What was seen when a target was not found, and
what a probe saw, goes to two directories beside. Console notices are printed
here too.
-/

namespace Walkthrough.Report

open Walkthrough.Json Walkthrough.Text

/-- The name of a document that has no file. -/
def unnamedDocument : String := "document"

/-- The directory of a document's reports. -/
def documentDirectory (artifacts : String) (source : Option String) : String :=
  let stem := match source with
    | some path => if path = "" then unnamedDocument else Path.stem path
    | none => unnamedDocument
  Path.child (Path.child artifacts "exec") (Slug.nameOr stem unnamedDocument)

/-- The directory for what was seen when a target was not found. -/
def snapshotDirectory (artifacts : String) : String := Path.child artifacts "exec-debug"

/-- The directory for what probes saw. -/
def probeDirectory (artifacts : String) : String := Path.child artifacts "probe"

/-- A file that holds a text. -/
def writeText (path text : String) : Update Unit := .writeFile path (toBytes text)

/-- A file that holds a JSON value. -/
def writeValue (path : String) (v : Value) : Update Unit := writeText path v.toIndented

/-- The file of an image, unless the image is empty or there is none. -/
def writeImage (path : String) (image : Option (List UInt8)) : Update Unit :=
  match image with
  | none | some [] => .pure ()
  | some bytes => .writeFile path bytes

/-- **The plan of a document,** in its directory, which becomes the current
one. Returns the path of the plan. -/
def writePlan (s : Suite) : Update String := do
  let artifacts ← .read (·.desk.artifacts)
  let directory := documentDirectory artifacts s.source
  .change fun w => { w with desk := { w.desk with current := some directory } }
  .makeDirectory directory
  .change fun w => { w with desk := { w.desk with pages := 0 } }
  let path := Path.child directory "meta.json"
  writeValue path s.plan
  return path

/-- **The result of a document,** in the current directory. Returns its path. -/
def writeResult (r : SuiteResult) : Update (Option String) := do
  match ← .read (·.desk.current) with
  | none => return none
  | some directory =>
    let path := Path.child directory "result.json"
    writeValue path r.toValue
    return some path

/-- A number with at least three digits. -/
def threeDigits (n : Nat) : String :=
  let digits := Nat.toDigits 10 n
  String.ofList (List.replicate (3 - digits.length) '0' ++ digits)

/-- **A page worth keeping,** under the next number of the current document.
Returns its path. -/
def keepPage (markup : String) : Update (Option String) := do
  match ← .read (·.desk.current) with
  | none => return none
  | some directory =>
    .change fun w => { w with desk := { w.desk with pages := w.desk.pages + 1 } }
    let pages := Path.child directory "pages"
    .makeDirectory pages
    let path := Path.child pages (threeDigits (← .read (·.desk.pages)) ++ ".html")
    writeText path markup
    return some path

/-- The name of what was seen at a step. -/
def snapshotName (c : Classification) : String :=
  c.kind.name ++ "-" ++ Slug.nameOr c.subject "step"

/-- **What was seen when the target of a step was not found.** The markup is
kept twice, once as that of the last page. Returns the path without extension. -/
def writeSnapshot (c : Classification) (image : Option (List UInt8)) (markup : Option String) :
    Update String := do
  let directory := snapshotDirectory (← .read (·.desk.artifacts))
  .makeDirectory directory
  let path := Path.child directory (snapshotName c)
  writeImage (path ++ ".png") image
  match markup with
  | some text =>
    writeText (path ++ ".html") text
    writeText (Path.child directory "last-page.html") text
  | none => .pure ()
  .log (.snapshotSaved path)
  return path

/-- **What a probe saw.** Returns the path without extension. -/
def writeProbe (url : String) (image : Option (List UInt8)) (markup : Option String) :
    Update String := do
  let directory := probeDirectory (← .read (·.desk.artifacts))
  .makeDirectory directory
  let path := Path.child directory (Slug.nameOr url "page")
  writeImage (path ++ ".png") image
  match markup with
  | some text => writeText (path ++ ".html") text
  | none => .pure ()
  .print (.probed url path)
  return path

/-- A suite is about to be run. -/
def suiteStarted (s : Suite) : Update Unit :=
  .print (.suiteStarted s.name s.source s.stepCount)

/-- A case is about to be run. -/
def caseStarted (title : String) : Update Unit := .print (.caseStarted title)

/-- A step went as it should. -/
def stepPassed (o : Outcome) : Update Unit := .print (.stepPassed o.step)

/-- A step did not. -/
def stepFailed (o : Outcome) : Update Unit := .print (.stepFailed o.step o.reason)

/-- A suite has been run: its result is written, then announced. -/
def suiteFinished (r : SuiteResult) : Update Unit := do
  let _ ← writeResult r
  .print (.suiteFinished r.source r.passed r.failed)

end Walkthrough.Report
