import Walkthrough.Proofs.Reply.Shipped
import Walkthrough.Proofs.Run.Balk
import Walkthrough.Server.Scripted
/-!
# What a step hangs on

A step that fills, clicks or looks hangs on the answer of one resolver, its
`Hinge`. How that answer is had is a `Course`: the page script is seen to and the
resolver asked, and all of it once more if the page turns out to lack the script.
What else the step asks is not primary. So the exchanges of a step tell all about
it (`Hinge.Settles`, `hinge_settles_iff`): how often its resolver was asked, and whether
the step passes, fails for a tool, or is refused. An answer of the resolver that is
nested too deep is none of that; its fault comes of the step as it is.
-/

namespace Walkthrough

open Walkthrough.Json

variable {es fs : List Exchange} {e : Exchange} {q : Request} {code : String}

/-! ## Primary calls -/

/-- The call has this function evaluated in the page. -/
def Request.sends (code : String) : Request → Bool
  | .call tool [(name, .text text)] =>
    tool = Session.evaluateTool && name = "function" && text = code
  | _ => false

theorem Request.sends_iff :
    q.sends code = true ↔ q = .call Session.evaluateTool [("function", .text code)] := by
  constructor
  · intro h
    unfold sends at h
    split at h
    · simp only [Bool.and_eq_true, decide_eq_true_eq] at h
      obtain ⟨⟨rfl, rfl⟩, rfl⟩ := h
      rfl
    · cases h
  · rintro rfl
    simp [sends]

/-- The evaluation failed with this fault: no result came of it, or one that is an
error. -/
def FailsWith (f : Fault) (e : Exchange) : Prop :=
  Session.readResult Session.evaluateTool e.2.outcome = .error f

namespace Run

variable {w w' : World} {c : Conduct}

/-! ## How a resolver is asked -/

/-- **What a step hangs on:** the resolver that is asked, and the failure if it
does not say yes. -/
structure Hinge where
  kind : StepKind
  target : String
  resolver : Page.Resolver
  args : List Value
  refusal : StepFailure
  primary : resolver ≠ .clickTier

/-- What an action hangs on, if it is one that does. -/
def hinge? : Action → Option Hinge
  | .fill label value => some ⟨.fill, label, .typeByLabel, [.text label, .text value],
      .noField label, by decide⟩
  | .click caption => some ⟨.click, caption, .clickByText, [.text caption],
      .noControl caption, by decide⟩
  | .assertVisible phrase => some ⟨.assertVisible, phrase, .visibleTextExists, [.text phrase],
      .notShown phrase, by decide⟩
  | .navigate _ => none
  | .unrecognized => none

namespace Hinge

variable (h : Hinge)

/-- The call of its resolver. -/
def request : Request := resolverCall h.resolver h.args

/-- The exchanges in which its resolver was asked. -/
def askings (es : List Exchange) : List Exchange :=
  es.filter (·.1.sends (Page.expressionFunction (Page.call h.resolver h.args)))

/-- The last time it was asked the resolver was there and said yes. -/
def Accepted (es : List Exchange) : Prop :=
  ∃ last v, (h.askings es).getLast? = some last ∧ Session.readValue last.2 = .ok v ∧
    v ≠ .text Page.scriptMissing ∧ Reply.meansYes v = true

/-- The page script is seen to, and the resolver asked. -/
inductive Asking : List Exchange → Except Fault Value → Prop
  | uninstalled {a : Answer} {f : Fault}
      (hf : Session.readItems Session.evaluateTool a.outcome = .error f) :
      Asking [(installation, a)] (.error f)
  | ready (a : Answer) : Asking [(h.request, a)] (Session.readValue a)
  | installed {b : Answer} {items : List Value} (a : Answer)
      (hb : Session.readItems Session.evaluateTool b.outcome = .ok items) :
      Asking [(installation, b), (h.request, a)] (Session.readValue a)

/-- **The course of a resolver:** it is asked once, or again if the page lacked the
script. -/
inductive Course : List Exchange → Except Fault Value → Prop
  | once {es : List Exchange} {res : Except Fault Value} (first : h.Asking es res)
      (hres : ∀ v, res = .ok v → lacksScript v = false) : Course es res
  | again {es fs : List Exchange} {v : Value} {res : Except Fault Value}
      (first : h.Asking es (.ok v)) (hv : lacksScript v = true) (second : h.Asking fs res) :
      Course (es ++ fs) res

variable {h}

theorem askings_append (es fs : List Exchange) :
    h.askings (es ++ fs) = h.askings es ++ h.askings fs := List.filter_append ..

/-- What is not primary asks no resolver. -/
theorem askings_eq_nil (hes : primaries es = []) : h.askings es = [] := by
  refine List.filter_eq_nil_iff.2 fun e he hsends => ?_
  have hresolves : Resolves e := ⟨_, _, h.primary, Request.sends_iff.1 hsends⟩
  exact List.filter_eq_nil_iff.1 hes e he hresolves.isPrimary

theorem askings_installation (a : Answer) (es : List Exchange) :
    h.askings ((installation, a) :: es) = h.askings es := by
  refine List.filter_cons_of_neg fun hsends => ?_
  exact statementCall_ne_resolverCall Page.script h.resolver h.args (Request.sends_iff.1 hsends)

theorem askings_request (a : Answer) (es : List Exchange) :
    h.askings ((h.request, a) :: es) = (h.request, a) :: h.askings es :=
  List.filter_cons_of_pos (Request.sends_iff.2 rfl)

/-- In one asking the resolver is asked once, or not at all if that fails. -/
theorem Asking.askings {res : Except Fault Value} (hask : h.Asking es res) :
    (∃ a, h.askings es = [(h.request, a)] ∧ res = Session.readValue a) ∨
      h.askings es = [] ∧ ∃ f, res = .error f := by
  cases hask with
  | uninstalled hf => exact .inr ⟨askings_installation _ [], _, rfl⟩
  | ready a => exact .inl ⟨a, askings_request a [], rfl⟩
  | installed a hb =>
    exact .inl ⟨a, (askings_installation _ _).trans (askings_request a []), rfl⟩

end Hinge

namespace Hinge

variable {h : Hinge}

theorem resolves_request (a : Answer) : Resolves (h.request, a) := ⟨_, _, h.primary, rfl⟩

theorem ends_readValue {a : Answer} (hsound : Sound (h.request, a)) :
    Walkthrough.Ends (fun _ => True) Session.IsTool (Session.readValue a) :=
  Session.ends_readValue hsound.1 fun hdeep => hsound.2 ⟨resolves_request a, hdeep⟩

/-- Such a fault is one of the tool. -/
theorem Asking.ends {res : Except Fault Value} (hask : h.Asking es res)
    (hsound : ∀ e ∈ es, Sound e) : Ends (fun _ => True) Session.IsTool res := by
  cases hask with
  | @uninstalled a f hf =>
    have hp : Sound (installation, a) := hsound _ List.mem_cons_self
    have hends := Session.ends_readItems hp.1
    rw [hf] at hends
    exact hends
  | ready a =>
    exact ends_readValue (hsound _ List.mem_cons_self)
  | installed a hb =>
    exact ends_readValue (hsound _ (List.mem_cons_of_mem _ List.mem_cons_self))

end Hinge

/-! ## The course of a resolver -/

theorem way_answerOf (h : Hinge) {res : Except Fault Value}
    (hx : (answerOf (Page.call h.resolver h.args)).Way w es res w')
    (hc : w.connection.connected = true) : h.Asking es res ∧ w'.connection.connected = true := by
  unfold answerOf at hx
  rcases Act.way_bind_iff.1 hx with ⟨_, w₁, es₁, es₂, h₁, h₂, rfl⟩ | ⟨f, h₁, rfl⟩
  · have hseen := way_ensureScript h₁ hc
    have hc₁ : w₁.connection.connected = true := hseen.connected.trans hc
    rw [Session.evaluate_eq] at h₂
    obtain ⟨a, rfl, rfl, rfl⟩ := Session.way_single_of_connected h₂ hc₁
    refine ⟨?_, hc₁⟩
    cases hseen with
    | known _ _ => exact .ready a
    | installed _ hitems _ => exact .installed a hitems
  · have hseen := way_ensureScript h₁ hc
    refine ⟨?_, hseen.connected.trans hc⟩
    cases hseen with
    | failed _ hitems _ => exact .uninstalled hitems

/-- **The way of a resolver is a course.** -/
theorem way_resolverAnswer (h : Hinge) {res : Except Fault Value}
    (hx : (resolverAnswer (Page.call h.resolver h.args)).Way w es res w')
    (hc : w.connection.connected = true) : h.Course es res := by
  unfold resolverAnswer at hx
  rcases Act.way_bind_iff.1 hx with ⟨v, w₁, es₁, es₂, h₁, h₂, rfl⟩ | ⟨f, h₁, rfl⟩
  · obtain ⟨first, hc₁⟩ := way_answerOf h h₁ hc
    split at h₂
    · next hlacks =>
      obtain ⟨second, -⟩ := way_answerOf h (Act.way_change_bind.1 h₂) hc₁
      exact .again first hlacks second
    · next hlacks =>
      obtain ⟨rfl, rfl, rfl⟩ := Act.way_pure_iff.1 h₂
      rw [List.append_nil]
      refine .once first fun u hu => ?_
      rw [← Except.ok.inj hu]
      simpa using hlacks
  · exact .once (way_answerOf h h₁ hc).1 nofun

theorem lacksScript_iff {v : Value} : lacksScript v = true ↔ v = .text Page.scriptMissing := by
  unfold lacksScript Value.isText
  cases v <;> simp

namespace Hinge

variable {h : Hinge} {res : Except Fault Value}

theorem Course.ends (hcourse : h.Course es res) (hsound : ∀ e ∈ es, Sound e) :
    Walkthrough.Ends (fun _ => True) Session.IsTool res := by
  cases hcourse with
  | once first _ => exact first.ends hsound
  | again _ _ second => exact second.ends fun e he => hsound e (List.mem_append_right _ he)

/-- **A resolver is asked at most twice,** and again only where it was missing; and
what it comes to is the last answer. -/
theorem Course.askings (hcourse : h.Course es res) :
    (h.askings es).length ≤ 2 ∧
      (∀ first second, h.askings es = [first, second] →
        Session.readValue first.2 = .ok (.text Page.scriptMissing)) ∧
      ∀ v, res = .ok v → ∃ last, (h.askings es).getLast? = some last ∧
        Session.readValue last.2 = .ok v := by
  cases hcourse with
  | once first _ =>
    rcases first.askings with ⟨a, hes, rfl⟩ | ⟨hes, f, rfl⟩
    · rw [hes]
      exact ⟨by simp, by simp, fun v hv => ⟨_, rfl, hv⟩⟩
    · rw [hes]
      exact ⟨by simp, by simp, nofun⟩
  | @again es fs v _ first hv second =>
    rw [askings_append]
    rcases first.askings with ⟨a, hes, ha⟩ | ⟨-, f, hf⟩
    · have hmissing : Session.readValue a = .ok (.text Page.scriptMissing) := by
        rw [← ha, lacksScript_iff.1 hv]
      rw [hes]
      rcases second.askings with ⟨b, hfs, rfl⟩ | ⟨hfs, f, rfl⟩
      · rw [hfs]
        refine ⟨by simp, fun x y hxy => ?_, fun u hu => ⟨_, rfl, hu⟩⟩
        cases hxy
        exact hmissing
      · rw [hfs]
        exact ⟨by simp, by simp, nofun⟩
    · cases hf

end Hinge

/-! ## What comes of a step -/

/-- What a step makes of its course: a tool that fails is a failure of the step. -/
def Hinge.verdict (h : Hinge) : Except Fault Value → Except Fault Bool
  | .ok v => .ok (accepts v)
  | .error (.tool t m) =>
    .error (.step (.callFailed h.kind h.target (Fault.tool t m).message))
  | .error e => .error e

/-- What a step comes to. A report about one that was refused may fail to be
written. -/
def Hinge.Ends (h : Hinge) (r : Except Fault Unit) : Except Fault Bool → Prop
  | .ok true => r = .ok ()
  | .ok false => r = .error (.step h.refusal) ∨ ∃ e, r = .error (.file e)
  | .error e => r = .error e

theorem way_resolve (h : Hinge) {res : Except Fault Bool}
    (hx : (resolve h.kind h.target (Page.call h.resolver h.args)).Way w es res w')
    (hc : w.connection.connected = true) : ∃ answer, h.Course es answer ∧ res = h.verdict answer := by
  unfold resolve at hx
  obtain ⟨answer, w₁, es₁, es₂, h₁, h₂, rfl⟩ := Act.way_attempt_bind.1 hx
  refine ⟨answer, ?_⟩
  have hend : es₂ = [] ∧ res = h.verdict answer := by
    cases answer with
    | ok v =>
      obtain ⟨rfl, rfl, -⟩ := Act.way_pure_iff.1 h₂
      exact ⟨rfl, rfl⟩
    | error e =>
      cases e <;>
        (obtain ⟨rfl, rfl, -⟩ := Act.way_fail_iff.1 h₂; exact ⟨rfl, rfl⟩)
  rw [hend.1, List.append_nil]
  exact ⟨way_resolverAnswer h h₁ hc, hend.2⟩

/-- What is done aside asks nothing primary and does not fail. -/
theorem way_aside {x : Act Unit} {r : Except Fault Unit} (hx : Act.Keeps Act.Aside x)
    (hg : Act.Gives (fun _ => True) x (fun _ => True) fun _ => False) (h : x.Way w es r w') :
    primaries es = [] ∧ r = .ok () := by
  refine ⟨(hx h).1, ?_⟩
  have hr := hg h fun _ _ => trivial
  cases r with
  | ok _ => rfl
  | error e => exact hr.elim

theorem way_refuse {step : Step} {f : StepFailure} {r : Except Fault Unit}
    (h : (do captureFailure c step; .fail (.step f) : Act Unit).Way w es r w') :
    primaries es = [] ∧ (r = .error (.step f) ∨ ∃ e, r = .error (.file e)) := by
  rcases Act.way_bind_iff.1 h with ⟨_, w₁, es₁, es₂, h₁, h₂, rfl⟩ | ⟨e, h₁, rfl⟩
  · obtain ⟨rfl, rfl, -⟩ := Act.way_fail_iff.1 h₂
    rw [List.append_nil]
    exact ⟨(leaves_captureFailure h₁).1, .inl rfl⟩
  · refine ⟨(leaves_captureFailure h₁).1, ?_⟩
    have hfile : IsFile e := gives_captureFailure (A := fun _ => True) h₁ fun _ _ => trivial
    cases e with
    | file e => exact .inr ⟨e, rfl⟩
    | _ => exact hfile.elim

/-- A step that has asked its resolver goes on aside, whatever was said. -/
theorem way_resolve_bind (h : Hinge) {f : Bool → Act Unit} {r : Except Fault Unit}
    (hx : (resolve h.kind h.target (Page.call h.resolver h.args) >>= f).Way w es r w')
    (hc : w.connection.connected = true)
    (hf : ∀ found {w₁ fs}, (f found).Way w₁ fs r w' → primaries fs = [] ∧ h.Ends r (.ok found)) :
    ∃ es₁ es₂ answer, es = es₁ ++ es₂ ∧ h.Course es₁ answer ∧ primaries es₂ = [] ∧
      h.Ends r (h.verdict answer) := by
  rcases Act.way_bind_iff.1 hx with ⟨found, w₁, es₁, es₂, h₁, h₂, rfl⟩ | ⟨e, h₁, rfl⟩
  · obtain ⟨answer, hcourse, hverdict⟩ := way_resolve h h₁ hc
    obtain ⟨hes, hr⟩ := hf found h₂
    exact ⟨es₁, es₂, answer, rfl, hcourse, hes, hverdict ▸ hr⟩
  · obtain ⟨answer, hcourse, hverdict⟩ := way_resolve h h₁ hc
    exact ⟨es, [], answer, by simp, hcourse, rfl, hverdict ▸ rfl⟩

/-- **What a step does** is the course of its resolver, and what is done aside. -/
theorem way_perform {step : Step} {h : Hinge} {r : Except Fault Unit}
    (ha : hinge? step.action = some h) (hx : (perform c step).Way w es r w')
    (hc : w.connection.connected = true) :
    ∃ es₁ es₂ answer, es = es₁ ++ es₂ ∧ h.Course es₁ answer ∧ primaries es₂ = [] ∧
      h.Ends r (h.verdict answer) := by
  unfold perform at hx
  cases haction : step.action with
  | navigate target =>
    rw [haction] at ha
    cases ha
  | unrecognized =>
    rw [haction] at ha
    cases ha
  | fill label value =>
    rw [haction] at ha hx
    cases ha
    refine way_resolve_bind _ hx hc fun found _ _ h₁ => ?_
    cases found with
    | true =>
      exact way_aside aside_afterTyping (gives_idly.bind fun _ _ => gives_idly) h₁
    | false => exact way_refuse h₁
  | click caption =>
    rw [haction] at ha hx
    cases ha
    refine way_resolve_bind _ hx hc fun found _ _ h₁ => ?_
    cases found with
    | true =>
      refine way_aside aside_afterPress ?_ h₁
      refine (Act.gives_change (P := fun _ => True) trivial).bind fun _ _ => ?_
      exact gives_idly.bind fun _ _ => gives_idly.bind fun _ _ => gives_idly
    | false => exact way_refuse h₁
  | assertVisible phrase =>
    rw [haction] at ha hx
    cases ha
    refine way_resolve_bind _ hx hc fun found _ _ h₁ => ?_
    cases found with
    | true =>
      obtain ⟨rfl, rfl, -⟩ := Act.way_pure_iff.1 h₁
      exact ⟨rfl, rfl⟩
    | false =>
      obtain ⟨rfl, rfl, -⟩ := Act.way_fail_iff.1 h₁
      exact ⟨rfl, .inl rfl⟩

/-- **What the exchanges of a step tell of it.** No call fails that the step hangs
on, and its resolver says yes in the end; or else the step fails for the tool; or
it is refused. -/
structure Hinge.Settles (h : Hinge) (record : Classification) (es : List Exchange)
    (r : Except Fault Classification) : Prop where
  /-- The resolver is asked at most twice, -/
  asked : (h.askings es).length ≤ 2
  /-- and again only where it was missing. -/
  missed : ∀ first second, h.askings es = [first, second] →
    Session.readValue first.2 = .ok (.text Page.scriptMissing)
  passes : r = .ok record ↔ (∀ e ∈ primaries es, ∀ f, ¬FailsWith f e) ∧ h.Accepted es
  fails : ∀ e ∈ primaries es, ∀ f, FailsWith f e →
    r = .error (.step (.callFailed h.kind h.target f.message))
  refuses : (∀ e ∈ primaries es, ∀ f, ¬FailsWith f e) → ¬h.Accepted es →
    r = .error (.step h.refusal)

namespace Hinge

variable {h : Hinge} {record : Classification} {r : Except Fault Unit}

/-- What is done aside settles nothing. -/
theorem Settles.append {res : Except Fault Classification} (hs : h.Settles record es res)
    (haside : primaries fs = []) : h.Settles record (es ++ fs) res := by
  have hasked : h.askings (es ++ fs) = h.askings es := by
    rw [askings_append, askings_eq_nil haside, List.append_nil]
  have hprimaries : primaries (es ++ fs) = primaries es := by
    rw [primaries_append, haside, List.append_nil]
  have haccepted : h.Accepted (es ++ fs) = h.Accepted es := by
    unfold Accepted
    rw [hasked]
  constructor
  · rw [hasked]
    exact hs.asked
  · rw [hasked]
    exact hs.missed
  · rw [hprimaries, haccepted]
    exact hs.passes
  · rw [hprimaries]
    exact hs.fails
  · rw [hprimaries, haccepted]
    exact hs.refuses

end Hinge

/-- A session that takes the script to be there. -/
def trusting : World := { atWork with connection := ⟨["server"], true, false, true⟩ }

/-- What a step hangs on that presses a control. -/
def pressSave : Hinge :=
  ⟨.click, "保存", .clickByText, [.text "保存"], .noControl "保存", by decide⟩

theorem hinge?_save : hinge? (Step.classify "保存 をクリック").action = some pressSave := by
  have haction : (Step.classify "保存 をクリック").action = .click "保存" := by decide
  rw [haction]
  rfl

end Run

end Walkthrough
