import Walkthrough.Proofs.Report
import Walkthrough.Proofs.Session.Call
import Walkthrough.Proofs.Url.Page
import Walkthrough.Run.Step
/-!
# What a step can come to

Each kind of step has one call on which it hangs, or none. The faults of tools
become the failure of the step there (`gives_resolve`), and other faults of that
call end the run (`StepFaults`); everything else is done as well as can be. Under
sound answers there are no others. So a step then either goes as it should or
fails, but for two things that end the run: a file that cannot be written, and a
page whose URL is none (`gives_perform`).
-/

namespace Walkthrough

variable {α β : Type} {A : Exchange → Prop} {F : Fault → Prop}

theorem Act.gives_clerical {u : Update α} (h : u.Clerical) (hF : ∀ e, IsFile e → F e) :
    Act.Gives A (Act.ofUpdate u) (fun _ => True) F :=
  Act.gives_ofUpdate fun w => (h w).1.mono (fun _ _ => trivial) hF

namespace Run

/-! ## Opening a page -/

theorem gives_idly {x : Act α} : Act.Gives A (idly x) (fun _ => True) F := Act.gives_bestEffort

theorem gives_goTo {url : String} {timeout : Int} :
    Act.Gives A (goTo url timeout) (fun _ => True) F :=
  gives_idly.bind fun _ _ => gives_idly

theorem gives_tryAlternative {url : String}
    (h : ∀ e, Url.split url.toList = .error e → F (.url e)) :
    Act.Gives A (tryAlternative url) (fun _ => True) F := by
  unfold tryAlternative
  refine Act.Gives.bind (P := fun _ => True) (Act.gives_ofExcept ?_) fun alternative _ => ?_
  · cases ha : Url.alternative? url with
    | ok _ => trivial
    | error e => exact h e (Url.alternative?_eq_error_iff.1 ha)
  · cases alternative with
    | none => exact Act.gives_pure trivial
    | some alternative =>
      exact (Act.gives_log (P := fun _ => True) trivial).bind fun _ _ => gives_goTo

theorem gives_keepOpenedPage (hF : ∀ e, IsFile e → F e) :
    Act.Gives A keepOpenedPage (fun _ => True) F := by
  unfold keepOpenedPage
  refine Act.gives_bestEffort.bind fun markup _ => ?_
  cases markup with
  | none => exact Act.gives_pure trivial
  | some markup =>
    dsimp only
    split
    · refine Act.Gives.bind (Act.gives_clerical (Report.clerical_keepPage markup) hF) fun _ _ => ?_
      exact Act.gives_pure trivial
    · exact Act.gives_pure trivial

/-- The page that a target means cannot be split, and why. -/
def Stray (c : Conduct) (target : String) (e : Url.Error) : Prop :=
  ∃ url, Url.page c.baseUrl target = .ok url ∧ Url.split url.toList = .error e

/-- What is done at a page once it is open. -/
def attend (c : Conduct) : Act Unit := do
  awaitIdle idleTimeout
  idly Session.screenshot
  if c.keepsPages && c.reports then keepOpenedPage

/-- All that opening a page does once its URL is known. -/
def openAt (c : Conduct) (url : String) : Act Unit := do
  goTo url loadTimeout
  let hasText ← .bestEffort (.bool true) (Session.evaluate Page.hasText)
  if !Reply.meansYes hasText then tryAlternative url
  attend c

theorem openPage_eq (c : Conduct) (target : String) :
    openPage c target = (.ofExcept .url (Url.page c.baseUrl target)) >>= openAt c := rfl

theorem gives_attend {c : Conduct}
    (hk : c.keepsPages = true → c.reports = true → ∀ e, IsFile e → F e) :
    Act.Gives A (attend c) (fun _ => True) F := by
  unfold attend
  refine gives_idly.bind fun _ _ => gives_idly.bind fun _ _ => ?_
  split
  · next h =>
    obtain ⟨hkeeps, hreports⟩ := Bool.and_eq_true_iff.1 h
    exact gives_keepOpenedPage (hk hkeeps hreports)
  · exact Act.gives_pure trivial

theorem gives_openAt {c : Conduct} {url : String}
    (hs : ∀ e, Url.split url.toList = .error e → F (.url e))
    (hk : c.keepsPages = true → c.reports = true → ∀ e, IsFile e → F e) :
    Act.Gives A (openAt c url) (fun _ => True) F := by
  unfold openAt
  refine gives_goTo.bind fun _ _ => Act.gives_bestEffort.bind fun hasText _ => ?_
  dsimp only
  split
  · exact (gives_tryAlternative hs).bind fun _ _ => gives_attend hk
  · exact gives_attend hk

/-- **Opening a page** fails for its URL, or for a page that is to be kept. -/
theorem gives_openPage {c : Conduct} {target : String}
    (hp : ∀ e, Url.page c.baseUrl target = .error e → F (.url e))
    (hs : ∀ e, Stray c target e → F (.url e))
    (hk : c.keepsPages = true → c.reports = true → ∀ e, IsFile e → F e) :
    Act.Gives A (openPage c target) (fun _ => True) F := by
  rw [openPage_eq]
  refine Act.Gives.bind (P := fun url => Url.page c.baseUrl target = .ok url)
    (Act.gives_ofExcept ?_) fun url hurl => gives_openAt (fun e he => hs e ⟨url, hurl, he⟩) hk
  cases hpage : Url.page c.baseUrl target with
  | ok _ => rfl
  | error e => exact hp e hpage

/-! ## Steps that hang on a call -/

section

variable {q : Page.Resolver} {args : List Json.Value}

theorem gives_answerOf (h : Session.CallFaults A F) (hq : q ≠ .clickTier) :
    Act.Gives A (answerOf (Page.call q args)) (fun _ => True) F :=
  h.ensureScript.bind fun _ _ => h.evaluate hq

/-- **A resolver answers,** or a call has failed. -/
theorem gives_resolverAnswer (h : Session.CallFaults A F) (hq : q ≠ .clickTier) :
    Act.Gives A (resolverAnswer (Page.call q args)) (fun _ => True) F := by
  refine (gives_answerOf h hq).bind fun answer _ => ?_
  split
  · exact (Act.gives_change (P := fun _ => True) trivial).bind fun _ _ => gives_answerOf h hq
  · exact Act.gives_pure trivial

/-- The failure of a step. -/
def IsStep : Fault → Prop
  | .step _ => True
  | _ => False

/-- **A tool that fails makes the step fail.** What else a call fails for comes
of it as it is. -/
theorem gives_resolve {G : Fault → Prop} (h : Session.CallFaults A G)
    (hs : ∀ f, F (.step f)) (hG : ∀ e, G e → ¬Session.IsTool e → F e) (hq : q ≠ .clickTier)
    {kind : StepKind} {target : String} :
    Act.Gives A (resolve kind target (Page.call q args)) (fun _ => True) F := by
  refine (gives_resolverAnswer h hq).attempt.bind fun r hr => ?_
  rcases r with e | answer
  · cases e with
    | tool t m => exact Act.gives_fail (hs _)
    | _ => exact Act.gives_fail (hG _ hr fun htool => htool)
  · exact Act.gives_pure trivial

end

theorem gives_captureFailure {c : Conduct} {step : Step} :
    Act.Gives A (captureFailure c step) (fun _ => True) IsFile := by
  unfold captureFailure
  refine Act.gives_bestEffort.bind fun image _ => Act.gives_bestEffort.bind fun markup _ => ?_
  split
  · refine Act.Gives.bind (Act.gives_clerical (Report.clerical_writeSnapshot _ image markup)
      fun _ he => he) fun _ _ => ?_
    exact Act.gives_pure trivial
  · exact Act.gives_pure trivial

/-- **The faults of steps are of a kind:** those of the call on which a step hangs,
the failure of the step, and that of a file about it. -/
structure StepFaults (A : Exchange → Prop) (F : Fault → Prop) : Prop where
  resolve (kind : StepKind) (target : String) {q : Page.Resolver} (hq : q ≠ .clickTier)
    (args : List Json.Value) :
    Act.Gives A (resolve kind target (Page.call q args)) (fun _ => True) F
  step (f : StepFailure) : F (.step f)
  file (e : Fault) (h : IsFile e) : F e

theorem gives_passOver {step : Step} : Act.Gives A (passOver step) (fun _ => True) F :=
  gives_idly.bind fun _ _ => Act.gives_log trivial

/-- The fault of a URL, where a step opens a page: of one that cannot be read
against the base, or that cannot be split again. -/
def IsAddress (c : Conduct) (action : Action) (e : Fault) : Prop :=
  ∃ target u, action = .navigate target ∧ e = .url u ∧
    (Url.page c.baseUrl target = .error u ∨ Stray c target u)

namespace StepFaults

variable {c : Conduct} {step : Step} (h : StepFaults A F)
include h

theorem fillField {label value : String} :
    Act.Gives A (fillField c step label value) (fun _ => True) F := by
  refine (h.resolve _ _ (q := .typeByLabel) (by decide) _).bind fun found _ => ?_
  split
  · exact gives_idly.bind fun _ _ => gives_idly
  · refine (gives_captureFailure.mono (fun _ _ => trivial) h.file).bind fun _ _ => ?_
    exact Act.gives_fail (h.step _)

theorem clickControl {caption : String} :
    Act.Gives A (clickControl c step caption) (fun _ => True) F := by
  refine (h.resolve _ _ (q := .clickByText) (by decide) _).bind fun found _ => ?_
  split
  · refine (Act.gives_change (P := fun _ => True) trivial).bind fun _ _ => ?_
    exact gives_idly.bind fun _ _ => gives_idly.bind fun _ _ => gives_idly
  · refine (gives_captureFailure.mono (fun _ _ => trivial) h.file).bind fun _ _ => ?_
    exact Act.gives_fail (h.step _)

theorem lookFor {phrase : String} : Act.Gives A (lookFor phrase) (fun _ => True) F := by
  refine (h.resolve _ _ (q := .visibleTextExists) (by decide) _).bind fun found _ => ?_
  split
  · exact Act.gives_pure trivial
  · exact Act.gives_fail (h.step _)

/-- **What a step can come to:** besides these, to the fault of a URL. -/
theorem perform (hu : ∀ e, IsAddress c step.action e → F e) :
    Act.Gives A (perform c step) (fun _ => True) F := by
  unfold Run.perform
  cases ha : step.action with
  | navigate target =>
    refine gives_openPage (fun e he => ?_) (fun e he => ?_) fun _ _ => h.file
    · exact hu _ ⟨target, e, ha, rfl, .inl he⟩
    · exact hu _ ⟨target, e, ha, rfl, .inr he⟩
  | fill label value => exact h.fillField
  | click caption => exact h.clickControl
  | assertVisible phrase => exact h.lookFor
  | unrecognized => exact gives_passOver

end StepFaults

end Run

end Walkthrough
