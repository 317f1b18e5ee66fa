import Walkthrough.Dialogue
/-!
# Acts

An act is a piece of a run: it starts from a world, may ask the tool server,
and ends with a value or a fault, in either case with the world as it has
become. Acts are put together in sequence; a fault ends a sequence, and
`Act.attempt` and `Act.bestEffort` are the two ways to go on after one. An
`Update` is an act that asks nobody.
-/

namespace Walkthrough

/-- A change of the world that gives a value or a fault and asks nobody. -/
def Update (α : Type) : Type := World → Except Fault α × World

namespace Update

/-- Nothing changes. -/
def pure (a : α) : Update α := fun w => (.ok a, w)

/-- One change, then another that may depend on its value. -/
def bind (u : Update α) (f : α → Update β) : Update β := fun w =>
  match u w with
  | (.ok a, w) => f a w
  | (.error e, w) => (.error e, w)

instance : Monad Update where
  pure := Update.pure
  bind := Update.bind

/-- A change carried on with nothing more is the same change. -/
theorem bind_pure (u : Update α) : u.bind Update.pure = u := by
  funext w
  unfold Update.bind
  rcases u w with ⟨r, w'⟩
  cases r <;> rfl

/-- It does not matter in which order changes are joined. -/
theorem bind_assoc (u : Update α) (f : α → Update β) (g : β → Update γ) :
    (u.bind f).bind g = u.bind fun a => (f a).bind g := by
  funext w
  unfold Update.bind
  rcases u w with ⟨r, w'⟩
  cases r <;> rfl

instance : LawfulMonad Update := .mk' Update bind_pure (fun _ _ => rfl) bind_assoc

/-- A fault. -/
def fail (e : Fault) : Update α := fun w => (.error e, w)

/-- Something that depends on the world. -/
def read (f : World → α) : Update α := fun w => (.ok (f w), w)

/-- A change. -/
def change (f : World → World) : Update Unit := fun w => (.ok (), f w)

/-- One more entry in the chronicle. -/
def record (h : Happening) : Update Unit := change (·.record h)

/-- A notice. -/
def print (n : Notice) : Update Unit := record (.printed n)

/-- A logged record. -/
def log (e : LogEntry) : Update Unit := record (.logged e)

/-- A value, or the fault in its place. -/
def ofExcept (toFault : ε → Fault) : Except ε α → Update α
  | .ok a => pure a
  | .error e => fail (toFault e)

/-- A directory, and those above it. -/
def makeDirectory (path : String) : Update Unit := fun w =>
  match w.files.makeDirectories path with
  | (.ok (), files) => (.ok (), { w with files := files })
  | (.error e, files) => (.error (.file e), { w with files := files })

/-- A file. -/
def writeFile (path : String) (bytes : List UInt8) : Update Unit := fun w =>
  match w.files.write path bytes with
  | .ok files => (.ok (), { w with files := files }.record (.wrote path bytes))
  | .error e => (.error (.file e), w)

/-- The bytes of a file. -/
def readFile (path : String) : Update (List UInt8) := fun w =>
  match w.files.read path with
  | .ok bytes => (.ok bytes, w)
  | .error e => (.error (.file e), w)

end Update

/-- A piece of a run. -/
def Act (α : Type) : Type := World → Dialogue (Except Fault α × World)

namespace Act

/-- Nothing is done. -/
def pure (a : α) : Act α := fun w => .done (.ok a, w)

/-- What follows an act that has ended. -/
def proceed (f : α → Act β) : Except Fault α × World → Dialogue (Except Fault β × World)
  | (.ok a, w) => f a w
  | (.error e, w) => .done (.error e, w)

/-- One act, then another that may depend on its value. -/
def bind (x : Act α) (f : α → Act β) : Act β := fun w => (x w).andThen (proceed f)

instance : Monad Act where
  pure := Act.pure
  bind := Act.bind

/-- An act carried on with nothing more is the same act. -/
theorem bind_pure (x : Act α) : x.bind Act.pure = x := by
  funext w
  have h : proceed (Act.pure : α → Act α) = Dialogue.done := by
    funext r
    rcases r with ⟨r, w'⟩
    cases r <;> rfl
  show (x w).andThen (proceed Act.pure) = x w
  rw [h, Dialogue.andThen_done]

/-- It does not matter in which order acts are joined. -/
theorem bind_assoc (x : Act α) (f : α → Act β) (g : β → Act γ) :
    (x.bind f).bind g = x.bind fun a => (f a).bind g := by
  funext w
  show ((x w).andThen (proceed f)).andThen (proceed g) = (x w).andThen (proceed _)
  rw [Dialogue.andThen_assoc]
  congr
  funext r
  rcases r with ⟨r, w'⟩
  cases r <;> rfl

instance : LawfulMonad Act := .mk' Act bind_pure (fun _ _ => rfl) bind_assoc

/-- A fault. -/
def fail (e : Fault) : Act α := fun w => .done (.error e, w)

/-- A change of the world. -/
def ofUpdate (u : Update α) : Act α := fun w => .done (u w)

instance : MonadLift Update Act := ⟨ofUpdate⟩

/-- Something that depends on the world. -/
def read (f : World → α) : Act α := ofUpdate (.read f)

/-- A change. -/
def change (f : World → World) : Act Unit := ofUpdate (.change f)

/-- One more entry in the chronicle. -/
def record (h : Happening) : Act Unit := ofUpdate (.record h)

/-- A notice. -/
def print (n : Notice) : Act Unit := ofUpdate (.print n)

/-- A logged record. -/
def log (e : LogEntry) : Act Unit := ofUpdate (.log e)

/-- A value, or the fault in its place. -/
def ofExcept (toFault : ε → Fault) (x : Except ε α) : Act α := ofUpdate (.ofExcept toFault x)

/-- The answer of the tool server. -/
def ask (q : Request) : Act Answer := fun w => .ask w q fun r => .done (.ok r, w)

/-- An act whose fault is a value. -/
def attempt (x : Act α) : Act (Except Fault α) := fun w =>
  (x w).andThen fun (r, w) => .done (.ok r, w)

/-- **An act whose fault does not matter:** another value stands in. -/
def bestEffort (default : α) (x : Act α) : Act α := do
  match ← attempt x with
  | .ok a => return a
  | .error _ => return default

/-- An act with another after it that is done in any case. A fault of the
second stands in for whatever the first came to. -/
def andFinally (x : Act α) (last : Act Unit) : Act α := do
  let r ← attempt x
  last
  match r with
  | .ok a => return a
  | .error e => fail e

/-- **An act with one server,** from a world and a state of the server. -/
def run (server : Server σ) (x : Act α) (w : World) (s : σ) : (Except Fault α × World) × σ :=
  (x w).run server s

end Act

end Walkthrough
