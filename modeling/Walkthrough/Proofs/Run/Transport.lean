import Walkthrough.Proofs.Run.Kept
import Walkthrough.Proofs.Session.Lifetime
import Walkthrough.Run
/-!
# The transport of a run

A run has at most one transport, and whatever goes wrong it is closed at the
end. What is exchanged has one of four shapes (`shape_of_run`): nothing, or an
opening that failed, or one whose greeting failed and that was closed again, or
a handshake, calls of tools, and the end. `Orderly` says what this comes to.
-/

namespace Walkthrough.Run

open Walkthrough.Session

variable {α : Type} {w w' : World} {es : List Exchange}

/-- A tool is called. -/
def IsCall (e : Exchange) : Prop := ∃ tool args, e.1 = .call tool args

/-- A transport was to be opened. -/
def asksOpening (e : Exchange) : Bool :=
  match e.1 with
  | .connect _ => true
  | _ => false

/-- The tool server agreed to talk. -/
def Agrees (e : Exchange) : Prop := e.1 = .greet ∧ e.2.outcome.isOk = true

/-- **Transports are dealt with in order:** there is at most one, it is closed
just where it was opened, tools are called between the agreement to talk and
the closing only, and the closing comes last. -/
structure Orderly (es : List Exchange) : Prop where
  once : es.countP asksOpening ≤ 1
  balanced : closed es = opened es
  between : ∀ front e back, es = front ++ e :: back → IsCall e →
    (∃ g ∈ front, Agrees g) ∧ ∀ d ∈ front, d.1 ≠ .disconnect
  last : ∀ front e back, es = front ++ e :: back → e.1 = .disconnect → back = []

/-! ## What goes on inside the connection -/

/-- Tools are called and nothing else is asked, and the session stays as
connected as it was. -/
def Talks (w : World) (es : List Exchange) (w' : World) : Prop :=
  (∀ e ∈ es, IsCall e) ∧ w'.connection.connected = w.connection.connected ∧
    w'.connection.retired = w.connection.retired

theorem talks_composes : Act.Composes Talks where
  refl w := ⟨by simp, rfl, rfl⟩
  trans h₁ h₂ := by
    refine ⟨fun e he => ?_, h₂.2.1.trans h₁.2.1, h₂.2.2.trans h₁.2.2⟩
    rcases List.mem_append.1 he with he | he
    · exact h₁.1 e he
    · exact h₂.1 e he

theorem callKept_talks : CallKept (Act.Keeps Talks) where
  closed := Act.closed_keeps talks_composes
  call {α tool args} read := by
    intro w es r w' hx
    rcases way_single hx with ⟨-, a, rfl, -, rfl⟩ | ⟨-, rfl, -, rfl⟩
    · refine ⟨fun e he => ?_, rfl, rfl⟩
      rw [List.mem_singleton.1 he]
      exact ⟨tool, args, rfl⟩
    · exact ⟨by simp, rfl, rfl⟩
  script ready := Act.keeps_ofUpdate fun w => ⟨by simp, rfl, rfl⟩

theorem runKept_talks (c : Conduct) : RunKept (Act.Keeps Talks) c :=
  callKept_talks.runKept
    (fun hu => Act.keeps_ofUpdate fun w => ⟨by simp, by rw [(hu w).2], by rw [(hu w).2]⟩) c

/-- **A task only calls tools.** -/
theorem talks_carryOut (c : Conduct) (task : Task) : Act.Keeps Talks (carryOut c task) := by
  cases task with
  | probe target =>
    exact callKept_talks.closed.bind ((runKept_talks c).probe target) fun _ =>
      callKept_talks.closed.pure _
  | documents paths =>
    exact callKept_talks.closed.bind ((runKept_talks c).runFiles paths) fun _ =>
      callKept_talks.closed.pure _

/-! ## The whole of a run -/

/-- **What can be exchanged over one transport.** -/
inductive Shape (command : List String) : List Exchange → Prop
  /-- It could not be opened, or it was not greeted and closed again. -/
  | broken {es : List Exchange} (h : Handshake command es false) : Shape command es
  /-- Tools were called, and it was closed. -/
  | whole {es fs : List Exchange} {d : Answer} (h : Handshake command es true)
    (hcalls : ∀ e ∈ fs, IsCall e) : Shape command (es ++ fs ++ [(.disconnect, d)])

/-- What is done inside a connection that only calls tools has such a shape. -/
theorem shape_of_connected {x : Act α} {r : Except Fault α} (hx : Act.Keeps Talks x)
    (h : (connected x).Way w es r w') (hc : w.connection.connected = false)
    (hr : w.connection.retired = false) : Shape w.connection.command es := by
  obtain ⟨_, w₁, _, r₂, es₂, h₁, hclose, rfl, -⟩ := Act.way_andFinally_iff.1 h
  rcases Act.way_bind_iff.1 h₁ with ⟨_, w₂, fs₁, fs₂, hconnect, htask, rfl⟩ | ⟨e, hconnect, -⟩
  · -- connected: the task calls tools, and the transport is closed after it
    obtain ⟨hs, hw⟩ := handshake_of_connect hconnect hc
    obtain ⟨hcalls, hcon, hret⟩ := hx htask
    rw [hw] at hcon hret
    obtain ⟨⟨-, d, rfl⟩ | ⟨hcon', -⟩, -⟩ := hangsUp_of_close hclose (hret.trans hr)
    · exact .whole hs hcalls
    · rw [hcon] at hcon'
      cases hcon'
  · -- not connected: nothing is left to close
    obtain ⟨hs, hw⟩ := handshake_of_connect hconnect hc
    obtain ⟨⟨hcon', -⟩ | ⟨-, rfl⟩, -⟩ := hangsUp_of_close hclose (by rw [hw]; exact hr)
    · rw [hw] at hcon'
      cases hcon'
    · rw [List.append_nil]
      exact .broken hs

/-- No page is to be looked at and no document is found, or there is no command
to start a tool server with. -/
def Workless (settings : Settings) (tree : FileTree) (named : List String)
    (target : Option String) : Prop :=
  (target.filter (· ≠ "") = none ∧
      ∀ p ps, documents tree settings.documents named ≠ .ok (p :: ps)) ∨
    settings.command = []

variable {settings : Settings} {tree : FileTree} {named : List String} {target : Option String}

/-- There is nothing to do where no page is to be looked at and no document is
found. -/
theorem taskOf_error_iff :
    (∃ e, taskOf tree settings named target = .error e) ↔
      target.filter (· ≠ "") = none ∧
        ∀ p ps, documents tree settings.documents named ≠ .ok (p :: ps) := by
  unfold taskOf
  cases target.filter (· ≠ "") with
  | some t => simp
  | none =>
    cases documents tree settings.documents named with
    | error e => simp
    | ok paths => cases paths <;> simp

/-- **The ways of a run:** it ends at once where there is nothing to do or no command,
and otherwise goes the way of its task inside a connection. -/
theorem way_run_iff {r : Except Fault Nat} :
    (run settings named target).Way (.start settings tree) es r w' ↔
      (∃ e, taskOf tree settings named target = .error e ∧ es = [] ∧ r = .error e ∧
        w' = .start settings tree) ∨
      ∃ task, taskOf tree settings named target = .ok task ∧
        ((settings.command = [] ∧ es = [] ∧ r = .error .noCommand ∧ w' = .start settings tree) ∨
          (settings.command ≠ [] ∧
            (connected (carryOut (.ofSettings settings) task)).Way (.start settings tree) es r
              w')) := by
  unfold run
  rw [Act.way_read_bind, Act.way_ofExcept_bind, or_comm]
  refine or_congr Iff.rfl (exists_congr fun task => and_congr Iff.rfl ?_)
  unfold Session.requireCommand
  rw [bind_assoc, Act.way_read_bind]
  by_cases hcommand : settings.command = []
  · have hempty : (World.start settings tree).connection.command.isEmpty = true :=
      List.isEmpty_iff.2 hcommand
    rw [if_pos hempty, Act.way_bind_iff]
    constructor
    · rintro (⟨_, _, _, _, h, -, -⟩ | ⟨e, h, rfl⟩)
      · cases (Act.way_fail_iff.1 h).2.1
      · obtain ⟨rfl, he, rfl⟩ := Act.way_fail_iff.1 h
        cases he
        exact .inl ⟨hcommand, rfl, rfl, rfl⟩
    · rintro (⟨-, rfl, rfl, rfl⟩ | ⟨hne, -⟩)
      · exact .inr ⟨_, Act.way_fail_iff.2 ⟨rfl, rfl, rfl⟩, rfl⟩
      · exact absurd hcommand hne
  · have hempty : ¬(World.start settings tree).connection.command.isEmpty = true :=
      fun h => hcommand (List.isEmpty_iff.1 h)
    rw [if_neg hempty, pure_bind]
    constructor
    · exact fun h => .inr ⟨hcommand, h⟩
    · rintro (⟨hnil, -⟩ | ⟨-, h⟩)
      · exact absurd hnil hcommand
      · exact h

/-- **All that a run can exchange:** nothing where there is no work, and otherwise
what one transport takes. -/
theorem shape_of_run {r : Except Fault Nat}
    (h : (run settings named target).Way (.start settings tree) es r w') :
    (es = [] ∧ Workless settings tree named target) ∨
      (Shape settings.command es ∧ ¬Workless settings tree named target) := by
  rcases way_run_iff.1 h with ⟨e, he, rfl, -⟩ | ⟨task, htask, ⟨hnil, rfl, -⟩ | ⟨hcommand, h⟩⟩
  · exact .inl ⟨rfl, .inl (taskOf_error_iff.1 ⟨e, he⟩)⟩
  · exact .inl ⟨rfl, .inr hnil⟩
  · refine .inr ⟨shape_of_connected (talks_carryOut _ task) h rfl rfl, ?_⟩
    rintro (hnone | hnil)
    · obtain ⟨e, he⟩ := taskOf_error_iff.2 hnone
      rw [htask] at he
      cases he
    · exact hcommand hnil

/-! ## Order -/

theorem IsCall.ne {e : Exchange} (h : IsCall e) :
    asksOpening e = false ∧ opens e = false ∧ shuts e = false ∧ e.1 ≠ .disconnect := by
  obtain ⟨tool, args, h⟩ := h
  simp [asksOpening, opens, shuts, h]

/-- Nothing is opened or closed by calls. -/
theorem counts_of_calls (h : ∀ e ∈ es, IsCall e) :
    es.countP asksOpening = 0 ∧ es.countP opens = 0 ∧ es.countP shuts = 0 := by
  refine ⟨?_, ?_, ?_⟩
  · exact List.countP_eq_zero.2 fun e he => by simp [(h e he).ne.1]
  · exact List.countP_eq_zero.2 fun e he => by simp [(h e he).ne.2.1]
  · exact List.countP_eq_zero.2 fun e he => by simp [(h e he).ne.2.2.1]

/-- After exchanges without an ending, one more can end it all. -/
theorem last_of_snoc (es : List Exchange) {d : Exchange} (h : ∀ e ∈ es, e.1 ≠ .disconnect) :
    ∀ front e back, es ++ [d] = front ++ e :: back → e.1 = .disconnect → back = [] := by
  intro front e back heq he
  rcases eq_or_of_snoc heq with ⟨-, -, rfl⟩ | ⟨mid, rfl, rfl⟩
  · rfl
  · exact absurd he (h e (by simp))

/-- **A handshake that went wrong is in order:** no tool is called. -/
theorem orderly_of_handshake {command : List String} (h : Handshake command es false) :
    Orderly es := by
  have hcalls : ∀ e ∈ es, ¬IsCall e := by
    cases h <;> simp [IsCall]
  refine ⟨?_, ?_, fun front e back heq he => ?_, ?_⟩
  · cases h <;> simp [List.countP_cons, asksOpening]
  · cases h with
    | unopened ha => simp [opened, closed, opens, shuts, ha]
    | ungreeted ha hb => simp [opened, closed, opens, shuts, ha]
  · exact absurd he (hcalls e (by simp [heq]))
  · cases h with
    | unopened ha => exact last_of_snoc [] (by simp)
    | @ungreeted a b d ha hb =>
      exact last_of_snoc [(.connect command, a), (.greet, b)] (by simp)

/-- **So is all that takes place over one transport.** -/
theorem Shape.orderly {command : List String} (h : Shape command es) : Orderly es := by
  cases h with
  | broken h => exact orderly_of_handshake h
  | @whole _ fs d h hcalls =>
    cases h with
    | @greeted a b ha hb =>
      obtain ⟨hasks, hopens, hshuts⟩ := counts_of_calls hcalls
      have hends : ∀ e ∈ [(.connect command, a), (.greet, b)] ++ fs, e.1 ≠ .disconnect := by
        simp only [List.cons_append, List.nil_append, List.forall_mem_cons]
        exact ⟨by simp, by simp, fun e he => (hcalls e he).ne.2.2.2⟩
      refine ⟨?_, ?_, fun front e back heq he => ?_, last_of_snoc _ hends⟩
      · simp [List.countP_cons, hasks, asksOpening]
      · simp [opened, closed, hopens, hshuts, opens, shuts, ha]
      · rcases eq_or_of_snoc heq with ⟨-, rfl, -⟩ | ⟨mid, rfl, hmid⟩
        · exact absurd rfl he.ne.2.2.2
        · refine ⟨?_, fun d hd => hends d (by rw [hmid]; exact List.mem_append_left _ hd)⟩
          -- a call is neither of the first two exchanges, so both stand in front of it
          rcases front with _ | ⟨_, _ | ⟨g, front⟩⟩
          · cases hmid
            exact absurd he.ne.1 (by simp [asksOpening])
          · cases hmid
            obtain ⟨_, _, hcall⟩ := he
            cases hcall
          · have hg : g = (.greet, b) := by
              cases hmid
              rfl
            exact ⟨g, by simp, by rw [hg]; exact ⟨rfl, hb⟩⟩

theorem Shape.ne_nil {command : List String} (h : Shape command es) : es ≠ [] := by
  cases h with
  | broken h => cases h <;> simp
  | whole h hcalls => simp

/-- **A run deals with transports in order,** and asks nothing at all just where
there is no work: whatever its settings and files are, however the tool server
behaves, and however the run ends. -/
theorem run_orderly {σ : Type} (server : Server σ) (s : σ) (settings : Settings)
    (named : List String) (target : Option String) (tree : FileTree) :
    Orderly ((run settings named target (.start settings tree)).exchanges server s) ∧
      ((run settings named target (.start settings tree)).exchanges server s = [] ↔
        Workless settings tree named target) := by
  have h := Act.way_run server (run settings named target) (.start settings tree) s
  generalize (run settings named target (.start settings tree)).exchanges server s = es at h ⊢
  rcases shape_of_run h with ⟨rfl, hworkless⟩ | ⟨hs, hworkless⟩
  · exact ⟨⟨by simp, rfl, by simp, by simp⟩, fun _ => hworkless, fun _ => rfl⟩
  · exact ⟨hs.orderly, fun h => absurd h hs.ne_nil, fun h => absurd h hworkless⟩

end Walkthrough.Run
