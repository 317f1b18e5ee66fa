import Walkthrough.Proofs.Outcome
import Walkthrough.Proofs.Run.Transport
/-!
# What a task can come to

However the tool server answers, a task comes to an exit status of zero or one,
or to a fault of work (`gives_carryOut`), and so does a task inside of its
connection (`gives_connected`). That there is nothing to do is found out before
any work begins, and no fault of work can be taken for it
(`run_eq_noDocuments_iff`).
-/

namespace Walkthrough

/-- A fault of work: neither that there is none, nor that there is no command to
start a tool server with. -/
def OfWork : Fault → Prop
  | .noDocuments _ | .noCommand => False
  | _ => True

theorem ofWork_of_isFile (e : Fault) (h : IsFile e) : OfWork e := by
  cases e with
  | file _ => trivial
  | _ => exact h.elim

/-! ## Connecting and closing -/

namespace Session

variable {A : Exchange → Prop}

theorem gives_demand {q : Request} : Act.Gives A (demand q) (fun _ => True) OfWork := by
  intro w es r w' h _
  unfold demand at h
  rw [Act.way_ask_bind] at h
  obtain ⟨a, fs, -, h⟩ := h
  cases ha : a.outcome with
  | ok _ =>
    rw [ha] at h
    obtain ⟨-, rfl, -⟩ := Act.way_pure_iff.1 h
    trivial
  | error e =>
    rw [ha] at h
    obtain ⟨-, rfl, -⟩ := Act.way_fail_iff.1 h
    cases e <;> trivial

theorem gives_hangUp : Act.Gives A hangUp (fun _ => True) OfWork :=
  (Act.gives_change (P := fun _ => True) trivial).bind fun _ _ => gives_demand

theorem gives_connect : Act.Gives A connect (fun _ => True) OfWork := by
  unfold connect
  refine (Act.gives_read (P := fun _ => True) fun _ => trivial).bind fun c _ => ?_
  split
  · exact Act.gives_pure trivial
  refine (Act.gives_change (P := fun _ => True) trivial).bind fun _ _ => ?_
  refine gives_demand.bind fun _ _ => ?_
  refine (Act.gives_change (P := fun _ => True) trivial).bind fun _ _ => ?_
  refine gives_demand.attempt.bind fun r hr => ?_
  cases r with
  | ok _ =>
    exact (Act.gives_change (P := fun _ => True) trivial).bind fun _ _ => Act.gives_log trivial
  | error e => exact gives_hangUp.bind fun _ _ => Act.gives_fail hr

theorem gives_close : Act.Gives A close (fun _ => True) OfWork := by
  unfold close
  refine (Act.gives_read (P := fun _ => True) fun _ => trivial).bind fun c _ => ?_
  split
  · exact Act.gives_pure trivial
  refine (Act.gives_change (P := fun _ => True) trivial).bind fun _ _ => ?_
  split
  · exact gives_hangUp.bind fun _ _ => Act.gives_log trivial
  · exact Act.gives_pure trivial

end Session

/-! ## Tasks -/

namespace Run

variable {c : Conduct} {A : Exchange → Prop}

/-- Under any answers the faults of steps are faults of work, -/
theorem stepFaults_any : StepFaults (fun _ => True) OfWork where
  resolve _ _ _ hq _ := by
    refine gives_resolve Session.callFaults_any (fun _ => trivial) (fun e he _ => ?_) hq
    cases e with
    | tool _ _ | misshapen _ => trivial
    | _ => exact he.elim
  step _ := trivial
  file := ofWork_of_isFile

/-- and so are those of suites. -/
theorem suiteFaults_any (s : Suite) : SuiteFaults c s (fun _ => True) OfWork where
  step case _ raw _ := by
    refine gives_outcome (stepFaults_any.perform fun e he => ?_) fun r hr => ?_
    · obtain ⟨_, _, -, rfl, -⟩ := he
      trivial
    · rcases r with e | k
      · cases e with
        | step f => trivial
        | _ => exact hr
      · trivial
  root _ _ := trivial
  file := ofWork_of_isFile

theorem gives_runFile (path : String) :
    Act.Gives (fun _ => True) (runFile c path) (fun _ => True) OfWork := by
  refine (Act.gives_clerical (Update.clerical_readFile path) ofWork_of_isFile).bind
    fun bytes _ => ?_
  exact (suiteFaults_any _).runSuite.mono (fun _ _ => trivial) fun _ he => he

theorem gives_probe (target : String) : Act.Gives A (probe c target) (fun _ => True) OfWork := by
  refine Act.Gives.bind (P := fun _ => True)
    (Act.gives_ofExcept (ends_mapError fun _ => trivial)) fun url _ => ?_
  refine gives_goTo.bind fun _ _ => gives_idly.bind fun _ _ => ?_
  refine Act.gives_bestEffort.bind fun image _ => Act.gives_bestEffort.bind fun markup _ => ?_
  exact Act.gives_clerical (Report.clerical_writeProbe url image markup) ofWork_of_isFile

/-- **What a task can come to** under any answers. -/
theorem gives_carryOut (task : Task) :
    Act.Gives (fun _ => True) (carryOut c task) (fun status => status = 0 ∨ status = 1)
      OfWork := by
  cases task with
  | probe target => exact (gives_probe target).bind fun _ _ => Act.gives_pure (.inl rfl)
  | documents paths =>
    have hfiles : Act.Gives (fun _ => True) (runFiles c paths) (fun _ => True) OfWork :=
      (gives_each fun path _ => gives_runFile path).bind fun _ _ => Act.gives_pure trivial
    exact hfiles.bind fun summary _ => Act.gives_pure summary.exitCode_eq

/-- Connecting and closing add faults of work only. -/
theorem gives_connected {α : Type} {x : Act α} {P : α → Prop} (h : Act.Gives A x P OfWork) :
    Act.Gives A (connected x) P OfWork :=
  (Session.gives_connect.bind fun _ _ => h).andFinally Session.gives_close

/-! ## Nothing to do -/

variable {settings : Settings} {tree : FileTree} {named : List String} {target : Option String}

/-- There is nothing to do just where no page is to be looked at and the documents
come to none. -/
theorem taskOf_eq_noDocuments_iff :
    (∃ d, taskOf tree settings named target = .error (.noDocuments d)) ↔
      target.filter (· ≠ "") = none ∧ documents tree settings.documents named = .ok [] := by
  unfold taskOf
  cases target.filter (· ≠ "") with
  | some t => simp
  | none =>
    cases documents tree settings.documents named with
    | error e => simp
    | ok paths => cases paths <;> simp

/-- **A run comes to having nothing to do** there and nowhere else: no other fault can
be taken for that one. -/
theorem run_eq_noDocuments_iff {w' : World} {es : List Exchange} {r : Except Fault Nat}
    (h : (run settings named target).Way (.start settings tree) es r w') :
    (∃ d, r = .error (.noDocuments d)) ↔
      target.filter (· ≠ "") = none ∧ documents tree settings.documents named = .ok [] := by
  rw [← taskOf_eq_noDocuments_iff]
  rcases way_run_iff.1 h with ⟨e, he, -, rfl, -⟩ | ⟨task, htask, ⟨-, -, rfl, -⟩ | ⟨-, h⟩⟩
  · simp [he]
  · simp [htask]
  · have hwork := gives_connected (gives_carryOut task) h fun _ _ => trivial
    rw [htask]
    constructor
    · rintro ⟨d, rfl⟩
      exact hwork.elim
    · rintro ⟨d, hd⟩
      cases hd

/-- **What a run comes to** is zero, one or a fault. -/
theorem run_le_one {w' : World} {es : List Exchange} {status : Nat}
    (h : (run settings named target).Way (.start settings tree) es (.ok status) w') :
    status = 0 ∨ status = 1 := by
  rcases way_run_iff.1 h with ⟨_, -, -, he, -⟩ | ⟨task, -, ⟨-, -, he, -⟩ | ⟨-, h⟩⟩
  · cases he
  · cases he
  · exact gives_connected (gives_carryOut task) h fun _ _ => trivial

end Run

end Walkthrough
