import Walkthrough.Dialogue
import Walkthrough.Json.Reader
import Walkthrough.Json.Writer
/-!
# The wire

How requests and answers look on the way to a tool server and back: each is a
JSON record on a line of its own. A request has a number, and its answer has
the same one; lines with other numbers are none of its business. Opening and
closing the wire send nothing.
-/

namespace Walkthrough.Wire

open Walkthrough.Json

/-- The version of the messages. -/
def version : String × Value := ("jsonrpc", .text "2.0")

/-- A numbered request for a method. -/
def request (number : Nat) (method : String) (parameters : Value) : Value :=
  .record [version, ("id", .nat number), ("method", .text method), ("params", parameters)]

/-- What a run says about itself. -/
def introduction : Value :=
  .record [("protocolVersion", .text "2024-11-05"), ("capabilities", .record []),
    ("clientInfo", .record [("name", .text "mdwright"), ("version", .text "1.0")])]

/-- What is said once both sides know each other. -/
def ready : Value := .record [version, ("method", .text "notifications/initialized")]

/-- The message of a request, if it has one. -/
def message? (number : Nat) : Request → Option Value
  | .connect _ | .disconnect => none
  | .greet => some (request number "initialize" introduction)
  | .call tool args =>
    some (request number "tools/call" (.record [("name", .text tool), ("arguments", .record args)]))

/-- What is said after the answer to a request. -/
def acknowledgement? : Request → Option Value
  | .greet => some ready
  | _ => none

/-- The message carries a number. -/
def isNumbered (number : Nat) (v : Value) : Bool :=
  match v.field "id" with
  | .int n => n = number
  | _ => false

/-- The outcome that a line holds for the request of a number. -/
def outcome? (number : Nat) (line : String) : Option (Except ServerFault Value) :=
  match Value.parse? line with
  | none => none
  | some v =>
    if !isNumbered number v then none
    else if (v.field "error").isNull then some (.ok (v.field "result"))
    else some (.error (.other "server" (((v.field "error").field "message").text?.getD "")))

/-- The outcome when the server says no more. -/
def hungUp : Except ServerFault Value := .error (.other "server" "Connection closed")

end Walkthrough.Wire
