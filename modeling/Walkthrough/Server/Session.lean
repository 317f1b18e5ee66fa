import Walkthrough.Act
import Walkthrough.Page.Expression
import Walkthrough.Page.Script
import Walkthrough.Server.Reply
/-!
# Sessions

What a run does with a tool server: it connects and closes, calls tools, and
has expressions evaluated in the page. The page script is installed at most
once into each page as far as the session can tell: whatever may bring a new
page makes it forget the script, and only an installation that went well lets
it remember.
-/

namespace Walkthrough.Session

open Walkthrough.Json

/-- The tool that opens a page. -/
def navigateTool : String := "browser_navigate"

/-- The tool that waits for a state of the page. -/
def waitTool : String := "browser_wait_for"

/-- The tool that evaluates a function in the page. -/
def evaluateTool : String := "browser_evaluate"

/-- The tool that takes a picture of the page. -/
def screenshotTool : String := "browser_take_screenshot"

/-- A change of the connection. -/
def changeConnection (f : Connection → Connection) : Act Unit :=
  .change fun w => { w with connection := f w.connection }

/-- A request other than a tool call, for which only failure matters. -/
def demand (request : Request) : Act Unit := do
  match (← .ask request).outcome with
  | .ok _ => return ()
  | .error e => .fail (.ofServer e)

/-- A session has a command to start its server with. -/
def requireCommand : Act Unit := do
  let c ← .read (·.connection)
  if c.command.isEmpty then .fail .noCommand

/-- The end of a transport. -/
def hangUp : Act Unit := do
  .record .closed
  demand .disconnect

/-- **Connect.** A server that starts and then does not greet back is hung up
on, and a failure to do so is the one that counts. -/
def connect : Act Unit := do
  let c ← .read (·.connection)
  if c.connected then return ()
  .record (.opened c.command)
  demand (.connect c.command)
  .record .greeted
  match ← .attempt (demand .greet) with
  | .ok _ =>
    changeConnection ({ · with connected := true })
    .log (.connected c.command)
  | .error e =>
    hangUp
    .fail e

/-- **Close.** Only the first closing does anything. -/
def close : Act Unit := do
  let c ← .read (·.connection)
  if c.retired then return ()
  changeConnection ({ · with connected := false, retired := true, scriptReady := false })
  if c.connected then
    hangUp
    .log .disconnected

/-- An act inside a connection, which is closed in any case. -/
def within (x : Act α) : Act α := do
  connect
  x.andFinally close

/-- What the tool server comes to when a tool is called, and the room there is to read
it. The clock moves on by the time that the call takes. -/
def callTool (tool : String) (args : Arguments) : Act (Value × Nat) := do
  let c ← .read (·.connection)
  if c.connected then
    .record (.called tool args)
    let answer ← .ask (.call tool args)
    .change fun w => { w with clock := w.clock + answer.elapsed }
    .ofExcept .ofServer (answer.outcome.map (·, answer.room))
  else .fail (.tool tool "session is not connected")

/-- A fault as one of a tool. -/
def asToolFault (tool : String) : Fault → Fault
  | .tool t m => .tool t m
  | e => .tool tool e.message

/-- **The result of a tool,** with the room there is to read it. One that is flagged
as an error is a fault. -/
def resultOf (tool : String) (args : Arguments) : Act (Value × Nat) := do
  match ← .attempt (callTool tool args) with
  | .error e => .fail (asToolFault tool e)
  | .ok (result, room) =>
    if (result.field "isError").truthy then
      let text ← .ofExcept .misshapen (Reply.errorText (result.field "content"))
      .fail (.tool tool text)
    else return (result, room)

/-- The items in the result of a tool. -/
def invoke (tool : String) (args : Arguments) : Act (List Value) := do
  let (result, _) ← resultOf tool args
  .ofExcept .misshapen (Reply.items (result.field "content"))

/-- **The value of an expression** in the page. -/
def evaluate (expression : String) : Act Value := do
  let (result, room) ←
    resultOf evaluateTool [("function", .text (Page.expressionFunction expression))]
  let _ ← .ofExcept .misshapen (Reply.items (result.field "content"))
  .ofExcept .misshapen
    (Reply.value room (result.field "content") (result.field "structuredContent"))

/-- Statements carried out in the page. -/
def evaluateStatement (code : String) : Act Unit := do
  let _ ← invoke evaluateTool [("function", .text (Page.statementFunction code))]

/-- The page script is forgotten. -/
def forgetScript : Act Unit := changeConnection ({ · with scriptReady := false })

/-- **A page is opened.** Even if this fails, another page may be there. -/
def navigate (url : String) : Act (List Value) := do
  forgetScript
  invoke navigateTool [("url", .text url)]

/-- A state of the page is waited for, so many milliseconds. -/
def waitFor (state : String) (timeout : Int) : Act (List Value) :=
  invoke waitTool [("state", .text state), ("timeout", .int timeout)]

/-- A picture of the whole page, if the server sends one. -/
def screenshot : Act (Option (List UInt8)) := do
  let items ← invoke screenshotTool [("fullPage", .bool true)]
  .ofExcept id (Reply.image? items)

/-- The markup of the page, if the server sends a text. -/
def pageMarkup : Act (Option String) := do
  return (← evaluate Page.markup).text?

/-- **The page script is installed** unless it is known to be there. -/
def ensureScript : Act Unit := do
  let c ← .read (·.connection)
  if c.scriptReady then return ()
  evaluateStatement Page.script
  changeConnection ({ · with scriptReady := true })

end Walkthrough.Session
