import Walkthrough.FileTree
import Walkthrough.Json.Reader
import Walkthrough.Settings
import Walkthrough.Step
import Walkthrough.Text.Base64
import Walkthrough.Url.Host
/-!
# Faults

Everything that can go wrong while scenarios are carried out, by cause. A step
that cannot be carried out has a `StepFailure`, which becomes the reason of
its outcome; every other fault ends the run.
-/

namespace Walkthrough

/-- How a tool server fails to do what it is asked. -/
inductive ServerFault where
  /-- A tool was rejected or failed. -/
  | tool (tool message : String)
  /-- Anything else, with the name of its kind. -/
  | other (kind message : String)
deriving DecidableEq, Repr, Inhabited

/-- Why a step could not be carried out. -/
inductive StepFailure where
  /-- A tool call failed on which the step hangs. -/
  | callFailed (kind : StepKind) (target cause : String)
  /-- No field has the label. -/
  | noField (label : String)
  /-- No control has the caption. -/
  | noControl (caption : String)
  /-- The page does not show the phrase. -/
  | notShown (phrase : String)
deriving DecidableEq, Repr

/-- The reason given for a step that could not be carried out. -/
def StepFailure.reason : StepFailure → String
  | callFailed kind target cause => kind.name ++ " " ++ target ++ ": " ++ cause
  | noField label => "target not found: " ++ label
  | noControl caption => "click target not found: " ++ caption
  | notShown phrase => "text not found: " ++ phrase

/-- A value of the wrong shape in an answer of the tool server, or a text in it that
nests deeper than there is room for. -/
inductive Misshape where
  /-- The contents are not a list of items. -/
  | contents
  /-- The text of an item that is to be read is no text. -/
  | readText
  /-- The text of an item of an error is no text. -/
  | errorText
  /-- The data of an image are no text. -/
  | imageData
  /-- What a text states is nested too deep to be read. -/
  | tooDeep (nest : Json.Nest)
deriving DecidableEq, Repr

/-- What can go wrong. -/
inductive Fault where
  | tool (tool message : String)
  | server (kind message : String)
  | step (failure : StepFailure)
  | noDocuments (directory : String)
  | noCommand
  | url (e : Url.Error)
  | file (e : FileError)
  | image (e : Text.Base64.Error)
  | misshapen (m : Misshape)
deriving DecidableEq, Repr

/-- The message about a value of the wrong shape. -/
def Misshape.message : Misshape → String
  | .tooDeep .list =>
    "maximum recursion depth exceeded while decoding a JSON array from a unicode string"
  | .tooDeep .record =>
    "maximum recursion depth exceeded while decoding a JSON object from a unicode string"
  | _ => ""

namespace Fault

/-- The fault of a tool server as a fault of the run. -/
def ofServer : ServerFault → Fault
  | .tool t m => tool t m
  | .other k m => server k m

/-- The message of a fault. -/
def message : Fault → String
  | tool t m => t ++ ": " ++ m
  | server _ m => m
  | step f => f.reason
  | noDocuments d => "No .md found in " ++ d
  | noCommand => ""
  | url e => e.message
  | file e => e.message
  | image e => e.message
  | misshapen m => m.message

end Fault

end Walkthrough
