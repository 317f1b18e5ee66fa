import Walkthrough.Proofs.Act
import Walkthrough.Report
/-!
# What reports can come to

A report is written file by file, and only a file that cannot be written stops
it (`IsFile`). Reports change the files, the desk and the chronicle, and never
the connection to the tool server.
-/

namespace Walkthrough

variable {α β : Type}

/-- The fault of a file. -/
def IsFile : Fault → Prop
  | .file _ => True
  | _ => False

namespace Update

/-- What follows a change that went well starts from where it led. -/
theorem bind_of_ok {u : Update α} {f : α → Update β} {w w' : World} {a : α}
    (h : u w = (.ok a, w')) : (u >>= f) w = f a w' := by
  show Update.bind u f w = f a w'
  unfold Update.bind
  rw [h]

theorem read_bind {γ : Type} {f : World → γ} {g : γ → Update α} {w : World} :
    (read f >>= g) w = g (f w) w := rfl

theorem change_bind {f : World → World} {g : Unit → Update α} {w : World} :
    (change f >>= g) w = g () (f w) := rfl

/-- A change that may only fail for a file, and leaves the connection alone. -/
def Clerical (u : Update α) : Prop :=
  ∀ w, Ends (fun _ => True) IsFile (u w).1 ∧ (u w).2.connection = w.connection

theorem Clerical.bind {u : Update α} {f : α → Update β} (hu : u.Clerical)
    (hf : ∀ a, (f a).Clerical) : (u >>= f).Clerical := by
  intro w
  have ⟨hr, hc⟩ := hu w
  show Ends _ _ (Update.bind u f w).1 ∧ (Update.bind u f w).2.connection = _
  unfold Update.bind
  rcases h : u w with ⟨r, w₁⟩
  rw [h] at hr hc
  cases r with
  | ok a =>
    have ⟨hr', hc'⟩ := hf a w₁
    exact ⟨hr', hc'.trans hc⟩
  | error e => exact ⟨hr, hc⟩

/-- **What a change yields:** unless a file keeps it from that, it returns a value
that fits the world before it and the one after. -/
structure Yields (u : Update α) (P : World → α → World → Prop) : Prop where
  ends (w : World) : Ends (fun a => P w a (u w).2) IsFile (u w).1

theorem Clerical.yields {u : Update α} {P : World → α → World → Prop} (hu : u.Clerical)
    (h : ∀ w a w', u w = (.ok a, w') → P w a w') : Yields u P := by
  refine ⟨fun w => ?_⟩
  have ⟨hr, _⟩ := hu w
  rcases hres : u w with ⟨r, w'⟩
  rw [hres] at hr
  cases r with
  | ok a => exact h w a w' hres
  | error e => exact hr

theorem Yields.of_toOption {u : Update α} {P : World → α → World → Prop} (h : Yields u P)
    {w : World} {a : α} (ha : (u w).1.toOption = some a) : P w a (u w).2 := by
  have hends := h.ends w
  cases hr : (u w).1 with
  | ok b =>
    rw [hr] at ha hends
    cases ha
    exact hends
  | error e =>
    rw [hr] at ha
    cases ha

theorem clerical_pure (a : α) : (Pure.pure a : Update α).Clerical := fun _ => ⟨trivial, rfl⟩

theorem clerical_read (f : World → α) : (read f).Clerical := fun _ => ⟨trivial, rfl⟩

theorem clerical_changeDesk (f : World → Desk) :
    (change fun w => { w with desk := f w }).Clerical := fun _ => ⟨trivial, rfl⟩

theorem clerical_print (n : Notice) : (print n).Clerical := fun _ => ⟨trivial, rfl⟩

theorem clerical_log (l : LogEntry) : (log l).Clerical := fun _ => ⟨trivial, rfl⟩

theorem clerical_makeDirectory (path : String) : (makeDirectory path).Clerical := by
  intro w
  unfold makeDirectory
  split
  · exact ⟨trivial, rfl⟩
  · exact ⟨trivial, rfl⟩

/-- Reading a file changes nothing, so it only depends on the world. -/
theorem readFile_eq (path : String) (w : World) :
    readFile path w = ofExcept .file (w.files.read path) w := by
  unfold readFile
  cases w.files.read path <;> rfl

theorem clerical_readFile (path : String) : (readFile path).Clerical := by
  intro w
  rw [readFile_eq]
  cases w.files.read path <;> exact ⟨trivial, rfl⟩

theorem clerical_writeFile (path : String) (bytes : List UInt8) :
    (writeFile path bytes).Clerical := by
  intro w
  unfold writeFile
  split
  · exact ⟨trivial, rfl⟩
  · exact ⟨trivial, rfl⟩

end Update

namespace Report

open Update

theorem clerical_writeText (path text : String) : (writeText path text).Clerical :=
  clerical_writeFile path _

theorem clerical_writeValue (path : String) (v : Json.Value) : (writeValue path v).Clerical :=
  clerical_writeText path _

theorem clerical_writeImage (path : String) (image : Option (List UInt8)) :
    (writeImage path image).Clerical := by
  unfold writeImage
  split
  · exact clerical_pure ()
  · exact clerical_pure ()
  · exact clerical_writeFile path _

/-- The plan of a document. -/
theorem clerical_writePlan (s : Suite) : (writePlan s).Clerical := by
  refine (clerical_read _).bind fun artifacts => ?_
  refine (clerical_changeDesk _).bind fun _ => ?_
  refine (clerical_makeDirectory _).bind fun _ => ?_
  refine (clerical_changeDesk _).bind fun _ => ?_
  exact (clerical_writeValue _ _).bind fun _ => clerical_pure _

/-- The result of a document. -/
theorem clerical_writeResult (r : SuiteResult) : (writeResult r).Clerical := by
  refine (clerical_read _).bind fun current => ?_
  cases current with
  | none => exact clerical_pure none
  | some directory => exact (clerical_writeValue _ _).bind fun _ => clerical_pure _

/-- The result of a document, written and announced. -/
theorem clerical_suiteFinished (r : SuiteResult) : (suiteFinished r).Clerical :=
  (clerical_writeResult r).bind fun _ => clerical_print _

/-- A page worth keeping. -/
theorem clerical_keepPage (markup : String) : (keepPage markup).Clerical := by
  refine (clerical_read _).bind fun current => ?_
  cases current with
  | none => exact clerical_pure none
  | some directory =>
    refine (clerical_changeDesk _).bind fun _ => ?_
    refine (clerical_makeDirectory _).bind fun _ => ?_
    refine (clerical_read _).bind fun pages => ?_
    exact (clerical_writeText _ _).bind fun _ => clerical_pure _

/-- What was seen when the target of a step was not found. -/
theorem clerical_writeSnapshot (c : Classification) (image : Option (List UInt8))
    (markup : Option String) : (writeSnapshot c image markup).Clerical := by
  refine (clerical_read _).bind fun artifacts => ?_
  refine (clerical_makeDirectory _).bind fun _ => ?_
  refine (clerical_writeImage _ image).bind fun _ => ?_
  cases markup with
  | none =>
    refine (clerical_pure ()).bind fun _ => ?_
    exact (clerical_log _).bind fun _ => clerical_pure _
  | some text =>
    refine (clerical_writeText _ _).bind fun _ => ?_
    refine (clerical_writeText _ _).bind fun _ => ?_
    exact (clerical_log _).bind fun _ => clerical_pure _

/-- What a probe saw. -/
theorem clerical_writeProbe (url : String) (image : Option (List UInt8))
    (markup : Option String) : (writeProbe url image markup).Clerical := by
  refine (clerical_read _).bind fun artifacts => ?_
  refine (clerical_makeDirectory _).bind fun _ => ?_
  refine (clerical_writeImage _ image).bind fun _ => ?_
  cases markup with
  | none =>
    refine (clerical_pure ()).bind fun _ => ?_
    exact (clerical_print _).bind fun _ => clerical_pure _
  | some text =>
    refine (clerical_writeText _ _).bind fun _ => ?_
    exact (clerical_print _).bind fun _ => clerical_pure _

end Report

end Walkthrough
