import Walkthrough.Decimal.Notation
import Walkthrough.Server.Session
import Walkthrough.Text.Quoted
/-!
# Scripted servers

A tool server for rehearsals, whose behaviour is written down beforehand. The
first rule that applies to a call answers it with the next of its replies, the
last reply standing for all that follow; calls to which no rule applies have
usual answers. Connecting, greeting and disconnecting go well unless the
script says otherwise, and every call takes an eighth of a second.
-/

namespace Walkthrough.Scripted

open Walkthrough.Json

/-- What is sent back for a call. -/
abbrev Reply := Except ServerFault Value

/-- A rule: the calls that it applies to, and the replies it still has. A call
must be one of the tool, where a tool is named, and hold a text. -/
structure Rule where
  tool : Option String := none
  contains : String := ""
  replies : List Reply

/-- The behaviour of a server. -/
structure Script where
  rules : List Rule := []
  onConnect : Option ServerFault := none
  onGreet : Option ServerFault := none
  onDisconnect : Option ServerFault := none

/-- An item with a text. -/
def textItem (text : String) : Value := .record [("type", .text "text"), ("text", .text text)]

/-- A result with one text. -/
def textResult (text : String) (isError : Bool) : Value :=
  .record [("content", .list [textItem text]), ("isError", .bool isError)]

/-- A result with a structured value alone. -/
def structuredResult (v : Value) : Value :=
  .record [("content", .list []), ("structuredContent", v)]

/-- A result with one image. -/
def imageResult (data : String) : Value :=
  .record [("content", .list [.record [("type", .text "image"), ("data", .text data),
    ("mimeType", .text "image/png")]])]

/-- The usual answer of a tool. -/
def usual (tool : String) : Value :=
  if tool = Session.evaluateTool then .record [("content", .list [])]
  else if tool = Session.screenshotTool then imageResult "iVBORw0KGgpmYWtl"
  else textResult "ok" false

mutual

/-- A value as it stands inside of another. -/
def shown : Value → String
  | .null => "None"
  | .bool b => if b then "True" else "False"
  | .int n => toString n
  | .float d => String.ofList (d.toText ⟨"nan", "inf"⟩)
  | .text s => Text.quoted s
  | .list vs => "[" ++ ", ".intercalate (shownAll vs) ++ "]"
  | .record fs => "\x7b" ++ ", ".intercalate (shownFields fs) ++ "\x7d"

/-- The values of a list. -/
def shownAll : List Value → List String
  | [] => []
  | v :: vs => shown v :: shownAll vs

/-- The fields of a record. -/
def shownFields : List (String × Value) → List String
  | [] => []
  | (k, v) :: fs => (Text.quoted k ++ ": " ++ shown v) :: shownFields fs

end

/-- The text of an argument. -/
def argumentText : Value → String
  | .text s => s
  | v => shown v

/-- The text in which rules look. -/
def callText (args : Arguments) : String := " ".intercalate (args.map fun a => argumentText a.2)

/-- A text occurs in another. -/
def occursIn (part : List Char) : List Char → Bool
  | [] => part.isEmpty
  | c :: rest => part.isPrefixOf (c :: rest) || occursIn part rest

/-- A rule applies to a call. -/
def Rule.applies (r : Rule) (tool text : String) : Bool :=
  r.tool.all (· = tool) && occursIn r.contains.toList text.toList

/-- A rule after one of its replies has been given. -/
def Rule.spend (r : Rule) : Rule :=
  match r.replies with
  | _ :: next :: later => { r with replies := next :: later }
  | _ => r

/-- The reply of some rules to a call, and the rules after it. -/
def reply (tool text : String) : List Rule → Reply × List Rule
  | [] => (.ok (usual tool), [])
  | r :: rest =>
    if r.applies tool text then (r.replies.head?.getD (.ok (usual tool)), r.spend :: rest)
    else
      let (answer, rest) := reply tool text rest
      (answer, r :: rest)

/-- How many nanoseconds a call takes. -/
def callTime : Nat := 125000000

/-- Success, or the fault that a script provides. -/
def stage (f : Option ServerFault) : Answer :=
  match f with
  | none => { outcome := .ok .null }
  | some e => { outcome := .error e }

/-- **The server of a script.** -/
def server : Server Script where
  answer s
    | .connect _ => (stage s.onConnect, s)
    | .greet => (stage s.onGreet, s)
    | .disconnect => (stage s.onDisconnect, s)
    | .call tool args =>
      let (answer, rules) := reply tool (callText args) s.rules
      ({ outcome := answer, elapsed := callTime }, { s with rules := rules })

end Walkthrough.Scripted
