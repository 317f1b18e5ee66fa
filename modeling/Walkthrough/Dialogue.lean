import Walkthrough.Fault
import Walkthrough.World
/-!
# Dialogues with a tool server

A run that depends on a tool server is a `Dialogue`: it is done, or it asks
something, with the world as it stands at that moment, and goes on with the
answer. So every way in which a server can behave is a way through one tree,
and nothing about a server has to be known to say what a run does.
`Dialogue.run` follows the way of one server.
-/

namespace Walkthrough

open Walkthrough.Json

/-- What a tool server can be asked. -/
inductive Request where
  /-- Start the server of a command. -/
  | connect (command : List String)
  /-- Agree to talk. -/
  | greet
  /-- End. -/
  | disconnect
  /-- Use a tool. -/
  | call (tool : String) (args : Arguments)
deriving Repr

/-- How many lists and records inside of each other can usually be read: not quite a
thousand calls of the reader, less those that are under way already. -/
def usualRoom : Nat := 960

/-- An answer: what came of the request, how many nanoseconds it took, and how many
lists and records inside of each other there is room for when a text in it is read.
Only the result of a tool is ever looked at. -/
structure Answer where
  outcome : Except ServerFault Value
  elapsed : Nat := 0
  room : Nat := usualRoom

/-- A run that is done, or asks and goes on with the answer. -/
inductive Dialogue (α : Type) where
  | done (a : α)
  | ask (world : World) (request : Request) (resume : Answer → Dialogue α)

namespace Dialogue

/-- A dialogue carried on where another one is done. -/
def andThen (d : Dialogue α) (f : α → Dialogue β) : Dialogue β :=
  match d with
  | done a => f a
  | ask w q k => ask w q fun r => (k r).andThen f

/-- A dialogue carried on with nothing more is the same dialogue. -/
theorem andThen_done (d : Dialogue α) : d.andThen done = d := by
  induction d with
  | done a => rfl
  | ask w q k ih => simp only [andThen]; congr; funext r; exact ih r

/-- It does not matter in which order dialogues are joined. -/
theorem andThen_assoc (d : Dialogue α) (f : α → Dialogue β) (g : β → Dialogue γ) :
    (d.andThen f).andThen g = d.andThen fun a => (f a).andThen g := by
  induction d with
  | done a => rfl
  | ask w q k ih => simp only [andThen]; congr; funext r; exact ih r

end Dialogue

/-- A tool server: how its state answers a request, and what becomes of it. -/
structure Server (σ : Type) where
  answer : σ → Request → Answer × σ

namespace Dialogue

/-- **A dialogue with one server,** from a state of it. -/
def run (server : Server σ) : Dialogue α → σ → α × σ
  | done a, s => (a, s)
  | ask _ q k, s => (k (server.answer s q).1).run server (server.answer s q).2

/-- A joined dialogue is run part by part. -/
theorem run_andThen (server : Server σ) (d : Dialogue α) (f : α → Dialogue β) (s : σ) :
    (d.andThen f).run server s = (f (d.run server s).1).run server (d.run server s).2 := by
  induction d generalizing s with
  | done a => rfl
  | ask w q k ih => simp only [andThen, run]; exact ih _ _

end Dialogue

end Walkthrough
