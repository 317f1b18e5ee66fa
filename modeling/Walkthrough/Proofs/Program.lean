import Walkthrough.Program
import Walkthrough.Proofs.Run.Success
/-!
# What the exit status says

A run is always turned into an exit status, whatever faults it came to. The
status is two where there was nothing to run, zero where the run succeeded, and
one otherwise (`status_tells`). A failure to hang up counts as well: it stands
in for whatever the run had come to before.
-/

namespace Walkthrough.Program

open CommandLine (Invocation)

variable {w w' : World} {es : List Exchange} {settings : Settings} {i : Invocation}

/-- The exit status for what a run came to. -/
def statusOf : Except Fault Nat → Nat
  | .ok status => status
  | .error (.noDocuments _) => nothingStatus
  | .error _ => faultStatus

/-- **No fault is left:** there is an exit status for all that a run can come to. -/
theorem exists_way_run {r : Except Fault Nat} (h : (exitStatus settings i).Way w es r w') :
    ∃ q w₁, (Run.run settings i.files i.probe).Way w es q w₁ ∧ r = .ok (statusOf q) := by
  obtain ⟨q, w₁, es₁, es₂, hrun, h, rfl⟩ := Act.way_attempt_bind.1 h
  suffices hend : es₂ = [] ∧ r = .ok (statusOf q) by
    obtain ⟨rfl, rfl⟩ := hend
    exact ⟨q, w₁, by simpa using hrun, rfl⟩
  cases q with
  | ok status =>
    obtain ⟨rfl, rfl, -⟩ := Act.way_pure_iff.1 h
    exact ⟨rfl, rfl⟩
  | error e =>
    -- each of the two endings logs and then returns
    cases e
    all_goals
      obtain ⟨rfl, rfl, -⟩ := Act.way_pure_iff.1 ((Act.way_ofUpdate_bind rfl).1 h)
      exact ⟨rfl, rfl⟩

theorem statusOf_eq_two_iff {q : Except Fault Nat} (hq : ∀ n, q = .ok n → n = 0 ∨ n = 1) :
    statusOf q = 2 ↔ ∃ d, q = .error (.noDocuments d) := by
  cases q with
  | ok n => rcases hq n rfl with rfl | rfl <;> simp [statusOf]
  | error e => cases e <;> simp [statusOf, nothingStatus, faultStatus]

theorem statusOf_eq_zero_iff {q : Except Fault Nat} : statusOf q = 0 ↔ q = .ok 0 := by
  cases q with
  | ok n => simp [statusOf]
  | error e => cases e <;> simp [statusOf, nothingStatus, faultStatus]

theorem statusOf_le {q : Except Fault Nat} (hq : ∀ n, q = .ok n → n = 0 ∨ n = 1) :
    statusOf q ≤ 2 := by
  cases q with
  | ok n => rcases hq n rfl with rfl | rfl <;> simp [statusOf]
  | error e => cases e <;> simp [statusOf, nothingStatus, faultStatus]

/-- **The exit status tells how the run went,** whatever the settings and the
arguments are, whatever files there are, and however the tool server behaves.
There always is one. It is two just where no page is to be looked at and the
documents come to none, and then nothing is asked of any server. It is zero just
where the run succeeded: the transport was opened, the server greeted back, the
page was looked at or every document was carried out and no step of any failed,
and the transport was closed. In every other case it is one, so too where the
directory for documents cannot even be looked up. -/
theorem status_tells {σ : Type} (server : Server σ) (s : σ) (settings : Settings)
    (i : Invocation) (tree : FileTree) :
    ∃ status, ((exitStatus settings i).run server (.start settings tree) s).1.1 = .ok status ∧
      (status = 2 ↔ i.probe.filter (· ≠ "") = none ∧
        Run.documents tree settings.documents i.files = .ok []) ∧
      (status = 2 → (exitStatus settings i (.start settings tree)).exchanges server s = []) ∧
      (status = 0 ↔ Run.Succeeds settings tree i.files i.probe
        ((exitStatus settings i (.start settings tree)).exchanges server s)) ∧
      (status = 0 ∨ status = 1 ∨ status = 2) := by
  have h := Act.way_run server (exitStatus settings i) (.start settings tree) s
  generalize (exitStatus settings i (.start settings tree)).exchanges server s = es at h ⊢
  obtain ⟨q, w₁, hrun, hq⟩ := exists_way_run h
  have hone (n : Nat) (hn : q = .ok n) : n = 0 ∨ n = 1 := Run.run_le_one (hn ▸ hrun)
  have htwo := (statusOf_eq_two_iff hone).trans (Run.run_eq_noDocuments_iff hrun)
  refine ⟨statusOf q, hq, htwo, fun hstatus => ?_,
    statusOf_eq_zero_iff.trans (Run.run_eq_zero_iff hrun), ?_⟩
  · obtain ⟨hprobe, hdocuments⟩ := htwo.1 hstatus
    rcases Run.shape_of_run hrun with ⟨hnone, -⟩ | ⟨-, hwork⟩
    · exact hnone
    · refine absurd (.inl ⟨hprobe, fun p ps hps => ?_⟩) hwork
      rw [hdocuments] at hps
      cases hps
  · have := statusOf_le hone
    omega

/-- A server that does whatever it is asked, but cannot be hung up on. -/
def clinging : Server Unit where
  answer _ q :=
    match q with
    | .disconnect => ({ outcome := .error (.other "RuntimeError" "still here") }, ())
    | _ => ({ outcome := .ok .null }, ())

/-- A look at a page with a willing server and with a clinging one, and a look at
none where there are no documents either. -/
example :
    ((exitStatus {} ⟨[], some "/"⟩).run Session.willing (.start {} {}) ()).1.1.toOption = some 0 ∧
      ((exitStatus {} ⟨[], some "/"⟩).run clinging (.start {} {}) ()).1.1.toOption = some 1 ∧
      ((exitStatus {} ⟨[], some ""⟩).run clinging (.start {} {}) ()).1.1.toOption = some 2 := by
  decide +kernel

end Walkthrough.Program
