import Walkthrough.Proofs.Run.Suite
import Walkthrough.Proofs.Twin
/-!
# What the outcomes of a run hang on

Each kind of step hangs on the answers to its primary calls alone
(`steady_resolve`). What else is asked on the way can change which requests
follow and what is written, but it reaches the connection in one way only: going
to a page forgets the page script, once or twice (`leaves_openAt`). So two runs
of a step stay in touch whatever else they hear, and so do two runs of a suite
(`steady_runSuite`).
-/

namespace Walkthrough

variable {α β : Type} {F : Fault → Prop}

namespace Session

/-! ## The session -/

/-- One primary call comes to the same where it is answered alike. -/
theorem steady_single {tool : String} {args : Arguments} {read : Answer → Except Fault α}
    (hq : (Request.call tool args).isPrimary = true)
    (hread : ∀ ⦃a b : Answer⦄, a.Alike b → read a = read b) :
    Act.Steady F (· = ·) (single tool args read) := by
  intro w₁ es r₁ w₁' w₂ fs r₂ w₂' hx hy hw hag
  rcases way_single hx with ⟨hc₁, a, rfl, rfl, rfl⟩ | ⟨hc₁, rfl, rfl, rfl⟩ <;>
    rcases way_single hy with ⟨hc₂, b, rfl, rfl, rfl⟩ | ⟨hc₂, rfl, rfl, rfl⟩
  · have hes : ∀ d, primaries [(.call tool args, d)] = [(.call tool args, d)] := fun d => by
      simp [primaries, hq]
    have hab : a.Alike b := hag 0 (.call tool args, a) (.call tool args, b)
      (by rw [hes]; rfl) (by rw [hes]; rfl)
    refine .inr ⟨by rw [hes, hes]; rfl, ?_, hw⟩
    rw [hread hab]
    exact matches_refl _
  -- one connected and the other not: the connections would differ
  · rw [hw, hc₂] at hc₁
    cases hc₁
  · rw [hw, hc₂] at hc₁
    cases hc₁
  · exact .inr ⟨rfl, .error _, hw⟩

/-- Any other call leaves the connection as it is. -/
theorem leaves_single {tool : String} {args : Arguments} {read : Answer → Except Fault α}
    (hq : (Request.call tool args).isPrimary = false) : Act.Leaves id (single tool args read) := by
  intro w es r w' h
  rcases way_single h with ⟨-, a, rfl, -, rfl⟩ | ⟨-, rfl, -, rfl⟩
  · exact ⟨by simp [primaries, hq], rfl⟩
  · exact ⟨rfl, rfl⟩

theorem leaves_invoke {tool : String} {args : Arguments} (h : tool ≠ evaluateTool) :
    Act.Leaves id (invoke tool args) := by
  rw [invoke_eq]
  exact leaves_single (isPrimary_of_ne h)

theorem steady_ensureScript : Act.Steady F (· = ·) ensureScript := by
  refine Act.steady_readConnection.next fun c => ?_
  split
  · exact Act.steady_pure rfl
  · unfold evaluateStatement
    rw [invoke_eq]
    refine Act.Steady.next ?_ fun _ => Act.steady_changeConnection
    refine (steady_single isPrimary_script fun a b hab => ?_).next fun _ => Act.steady_pure rfl
    rw [hab.outcome]

theorem steady_evaluate {r : Page.Resolver} (hr : r ≠ .clickTier) (args : List Json.Value) :
    Act.Steady F (· = ·) (evaluate (Page.call r args)) := by
  rw [evaluate_eq]
  refine steady_single (isPrimary_call hr args) fun a b hab => ?_
  unfold readValue
  rw [hab.outcome, hab.room]

end Session

namespace Run

/-! ## Calls on which a step hangs -/

theorem steady_answerOf {r : Page.Resolver} (hr : r ≠ .clickTier) (args : List Json.Value) :
    Act.Steady F (· = ·) (answerOf (Page.call r args)) :=
  Session.steady_ensureScript.next fun _ => Session.steady_evaluate hr args

theorem steady_resolverAnswer {r : Page.Resolver} (hr : r ≠ .clickTier)
    (args : List Json.Value) : Act.Steady F (· = ·) (resolverAnswer (Page.call r args)) := by
  refine (steady_answerOf hr args).next fun answer => ?_
  split
  · exact Act.steady_changeConnection.next fun _ => steady_answerOf hr args
  · exact Act.steady_pure rfl

/-- **The call on which a step hangs** comes to the same. -/
theorem steady_resolve {r : Page.Resolver} (hr : r ≠ .clickTier) (args : List Json.Value)
    {kind : StepKind} {target : String} :
    Act.Steady F (· = ·) (resolve kind target (Page.call r args)) := by
  refine (steady_resolverAnswer hr args).attempt.next fun r₁ => ?_
  rcases r₁ with e | answer
  · cases e <;> exact Act.steady_fail
  · exact Act.steady_pure rfl

/-! ## What is done as well as can be -/

theorem leaves_clerical {u : Update α} (h : u.Clerical) : Act.Leaves id (Act.ofUpdate u) :=
  Act.keeps_ofUpdate fun w => ⟨rfl, (h w).2⟩

theorem leaves_idly {x : Act α} {g : Connection → Connection} (h : Act.Leaves g x) :
    Act.Leaves g (idly x) := Act.Keeps.bestEffort (Act.Keeps.map h)

theorem leaves_waitFor {state : String} {timeout : Int} :
    Act.Leaves id (idly (Session.waitFor state timeout)) :=
  leaves_idly (Session.leaves_invoke (by decide))

theorem leaves_screenshot : Act.Leaves id Session.screenshot :=
  (Session.leaves_invoke (by decide)).bind fun _ => Act.leaves_ofExcept

theorem leaves_evaluate {expression : String}
    (h : (Request.call Session.evaluateTool
      [("function", .text (Page.expressionFunction expression))]).isPrimary = false) :
    Act.Leaves id (Session.evaluate expression) := by
  rw [Session.evaluate_eq]
  exact Session.leaves_single h

theorem leaves_pageMarkup : Act.Leaves id Session.pageMarkup :=
  (leaves_evaluate isPrimary_markup).bind fun _ => Act.leaves_pure

/-- Going to a page forgets the script, and does nothing else to the
connection. -/
theorem leaves_goTo {url : String} {timeout : Int} :
    Act.Leaves Act.forgotten (goTo url timeout) := by
  have hnavigate : Act.Leaves Act.forgotten (Session.navigate url) := by
    intro w es r w' h
    exact Session.leaves_invoke (by decide) (Act.way_change_bind.1 h)
  exact (leaves_idly hnavigate).bind_aside fun _ => leaves_waitFor.aside

theorem aside_tryAlternative {url : String} : Act.Keeps Act.Aside (tryAlternative url) := by
  unfold tryAlternative
  refine Act.leaves_ofExcept.aside.bind Act.composes_aside fun alternative => ?_
  cases alternative with
  | none => exact Act.leaves_pure.aside
  | some alternative =>
    refine (leaves_clerical (Update.clerical_log _)).aside.bind Act.composes_aside fun _ => ?_
    exact leaves_goTo.aside_of_forgotten

theorem leaves_keepOpenedPage : Act.Leaves id keepOpenedPage := by
  unfold keepOpenedPage
  refine leaves_pageMarkup.bestEffort.bind fun markup => ?_
  cases markup with
  | none => exact Act.leaves_pure
  | some markup =>
    dsimp only
    split
    · exact (leaves_clerical (Report.clerical_keepPage markup)).bind fun _ => Act.leaves_pure
    · exact Act.leaves_pure

theorem aside_attend {c : Conduct} : Act.Keeps Act.Aside (attend c) := by
  unfold attend
  refine leaves_waitFor.aside.bind Act.composes_aside fun _ => ?_
  refine (leaves_idly leaves_screenshot).aside.bind Act.composes_aside fun _ => ?_
  split
  · exact leaves_keepOpenedPage.aside
  · exact Act.leaves_pure.aside

/-- **A page is opened** without any primary call, and in the end the script is
forgotten, whichever of two pages is there. -/
theorem leaves_openAt {c : Conduct} {url : String} :
    Act.Leaves Act.forgotten (openAt c url) := by
  unfold openAt
  -- the script is forgotten from here on, and nothing below brings it back
  refine leaves_goTo.bind_aside fun _ => ?_
  refine (leaves_evaluate isPrimary_hasText).bestEffort.aside.bind Act.composes_aside fun h => ?_
  dsimp only
  split
  · exact aside_tryAlternative.bind Act.composes_aside fun _ => aside_attend
  · exact aside_attend

theorem leaves_captureFailure {c : Conduct} {step : Step} :
    Act.Leaves id (captureFailure c step) := by
  unfold captureFailure
  refine leaves_screenshot.bestEffort.bind fun image => ?_
  refine leaves_pageMarkup.bestEffort.bind fun markup => ?_
  split
  · exact (leaves_clerical (Report.clerical_writeSnapshot _ image markup)).bind fun _ =>
      Act.leaves_pure
  · exact Act.leaves_pure

/-! ## Steps -/

variable {c : Conduct} {s : Suite}

theorem steady_openPage {target : String} (hfile : ∀ e, IsFile e → F e)
    (hstray : ∀ e, Stray c target e → F (.url e)) :
    Act.Steady F (fun _ _ => True) (openPage c target) := by
  rw [openPage_eq]
  refine Act.steady_ofExcept.bind fun url _ ⟨h, hurl⟩ => ?_
  subst h
  exact leaves_openAt.steady
    (gives_openAt (fun e he => hstray e ⟨url, hurl, he⟩) fun _ _ => hfile)

/-- What is seen at a step whose target was not found does not matter. -/
theorem steady_captureFailure {step : Step} {e : Fault} (hfile : ∀ e, IsFile e → F e) :
    Act.Steady F (fun _ _ => True) (do captureFailure c step; .fail e : Act Unit) := by
  refine Act.Steady.bind (leaves_captureFailure.steady ?_) fun _ _ _ => Act.steady_fail
  exact gives_captureFailure.mono (fun _ _ => trivial) hfile

theorem steady_fillField {step : Step} {label value : String} (hfile : ∀ e, IsFile e → F e) :
    Act.Steady F (fun _ _ => True) (fillField c step label value) := by
  have hresolve : Act.Steady F (· = ·) (resolve .fill label (Page.typeByLabel label value)) :=
    steady_resolve (by decide) _
  refine hresolve.next fun found => ?_
  split
  · refine (leaves_waitFor.steady gives_idly).bind fun _ _ _ => ?_
    exact (leaves_idly leaves_screenshot).steady gives_idly
  · exact steady_captureFailure hfile

theorem steady_clickControl {step : Step} {caption : String} (hfile : ∀ e, IsFile e → F e) :
    Act.Steady F (fun _ _ => True) (clickControl c step caption) := by
  have hresolve : Act.Steady F (· = ·) (resolve .click caption (Page.clickByText caption)) :=
    steady_resolve (by decide) _
  refine hresolve.next fun found => ?_
  split
  · refine Act.steady_changeConnection.next fun _ => ?_
    refine (leaves_waitFor.steady gives_idly).bind fun _ _ _ => ?_
    refine (leaves_waitFor.steady gives_idly).bind fun _ _ _ => ?_
    exact (leaves_idly leaves_screenshot).steady gives_idly
  · exact steady_captureFailure hfile

theorem steady_lookFor {phrase : String} : Act.Steady F (fun _ _ => True) (lookFor phrase) := by
  have hresolve : Act.Steady F (· = ·)
      (resolve .assertVisible phrase (Page.visibleTextExists phrase)) :=
    steady_resolve (by decide) _
  refine hresolve.next fun found => ?_
  split
  · exact Act.steady_pure trivial
  · exact Act.steady_fail

theorem steady_passOver {step : Step} : Act.Steady F (fun _ _ => True) (passOver step) := by
  refine ((leaves_idly leaves_screenshot).steady gives_idly).bind fun _ _ _ => ?_
  exact (leaves_clerical (Update.clerical_log _)).steady (Act.gives_log trivial)

/-- **A step comes to the same** where its primary calls are answered alike. -/
theorem steady_perform {step : Step} (hfile : ∀ e, IsFile e → F e)
    (hstray : ∀ target e, step.action = .navigate target → Stray c target e → F (.url e)) :
    Act.Steady F (fun _ _ => True) (perform c step) := by
  unfold perform
  cases ha : step.action with
  | navigate target => exact steady_openPage hfile fun e => hstray target e ha
  | fill label value => exact steady_fillField hfile
  | click caption => exact steady_clickControl hfile
  | assertVisible phrase => exact steady_lookFor
  | unrecognized => exact steady_passOver

/-! ## Outcomes -/

theorem steady_execute {raw : String} (hfile : ∀ e, IsFile e → F e)
    (hstray : ∀ target e, (Step.classify raw).action = .navigate target →
      Stray c target e → F (.url e)) : Act.Steady F (fun _ _ => True) (execute c raw) :=
  (steady_perform hfile hstray).bind fun _ _ _ => Act.steady_pure trivial

/-- Why a step failed, if it did. -/
def reasonOf (c : Conduct) (raw : String) : Act (Option String) := do
  .ofExcept id (failureOf (← .attempt (execute c raw)))

/-- **Why a step failed** comes to the same. A fault that is excused ends the
run, for it is no failure of a step. -/
theorem steady_reasonOf {raw : String} (hF : ∀ f, ¬F (.step f))
    (h : Act.Steady F (fun _ _ => True) (execute c raw)) :
    Act.Steady F (· = ·) (reasonOf c raw) := by
  intro w₁ es r₁ w₁' w₂ fs r₂ w₂' hx hy hw hag
  obtain ⟨q₁, v₁, es₁, es₂, hx₁, hx₂, rfl⟩ := Act.way_attempt_bind.1 hx
  obtain ⟨q₂, v₂, fs₁, fs₂, hy₁, hy₂, rfl⟩ := Act.way_attempt_bind.1 hy
  obtain ⟨rfl, rfl, rfl⟩ := Act.way_ofExcept_iff.1 hx₂
  obtain ⟨rfl, rfl, rfl⟩ := Act.way_ofExcept_iff.1 hy₂
  rw [List.append_nil, List.append_nil] at *
  -- what is excused is no failure of a step, so it is passed on as it is
  have hexcused : ∀ q : Except Fault Classification, Excused F q →
      Excused F ((failureOf q).mapError id) := by
    rintro q ⟨e, rfl, he⟩
    refine ⟨e, ?_, he⟩
    cases e with
    | step f => exact (hF f he).elim
    | _ => rfl
  rcases h hx₁ hy₁ hw hag with (he | he) | ⟨hlen, hr, hw'⟩
  · exact .inl (.inl (hexcused _ he))
  · exact .inl (.inr (hexcused _ he))
  · refine .inr ⟨hlen, ?_, hw'⟩
    cases hr with
    | ok h => exact .ok rfl
    | error e => exact matches_refl _

theorem runStep_eq (c : Conduct) (title raw : String) :
    runStep c title raw = (do
      let start ← .read (·.clock)
      let reason ← reasonOf c raw
      let stop ← .read (·.clock)
      let outcome := outcomeOf raw title reason (seconds start stop)
      announce outcome
      return outcome) := by
  unfold runStep reasonOf
  simp only [bind_assoc]

end Run

namespace Outcome

/-- All that an outcome tells but how long the step took. -/
def told (o : Outcome) : String × String × StepKind × Status × Option String :=
  (o.step, o.caseTitle, o.kind, o.status, o.reason)

end Outcome

namespace Run

theorem twin_clerical {u v : Update α} (hu : u.Clerical) (hv : v.Clerical)
    (hfile : ∀ e, IsFile e → F e) :
    Act.Twin F (fun _ _ => True) (Act.ofUpdate u) (Act.ofUpdate v) :=
  Act.twin_of_leaves (leaves_clerical hu) (leaves_clerical hv) (Act.gives_clerical hu hfile)
    (Act.gives_clerical hv hfile)

theorem clerical_announce (o : Outcome) : (announce o).Clerical := by
  unfold announce
  split
  · exact Update.clerical_print _
  · exact Update.clerical_print _

/-- **A step has the same outcome,** but for how long it took. -/
theorem steady_runStep {title raw : String} (hfile : ∀ e, IsFile e → F e)
    (hF : ∀ f, ¬F (.step f))
    (hstray : ∀ target e, (Step.classify raw).action = .navigate target →
      Stray c target e → F (.url e)) :
    Act.Steady F (fun o p => o.told = p.told) (runStep c title raw) := by
  rw [runStep_eq]
  refine Act.steady_read.bind fun start₁ start₂ _ => ?_
  refine Act.Twin.bind (steady_reasonOf hF (steady_execute hfile hstray)) fun reason _ h => ?_
  subst h
  refine Act.Twin.bind Act.steady_read fun stop₁ stop₂ _ => ?_
  refine Act.Twin.bind (twin_clerical (clerical_announce _) (clerical_announce _) hfile)
    fun _ _ _ => ?_
  exact Act.twin_pure rfl

/-- A list of steady acts has results that agree one by one. -/
theorem steady_each {γ : Type} {k : β → γ} {f : α → Act β} {as : List α}
    (h : ∀ a ∈ as, Act.Steady F (fun b d => k b = k d) (f a)) :
    Act.Steady F (fun bs ds => bs.map k = ds.map k) (each f as) := by
  induction as with
  | nil => exact Act.steady_pure rfl
  | cons a rest ih =>
    refine (h a List.mem_cons_self).bind fun b d hbd => ?_
    refine Act.Twin.bind (ih fun a' ha' => h a' (List.mem_cons_of_mem _ ha')) fun bs ds hs => ?_
    exact Act.twin_pure (by rw [List.map_cons, List.map_cons, hbd, hs])

/-! ## Suites -/

theorem steady_runCase {case : Case} (hcase : case ∈ s.cases) :
    Act.Steady (EndsSuite c s) (fun r q => r.outcomes.map (·.told) = q.outcomes.map (·.told))
      (runCase c case) := by
  have hstep : ∀ raw ∈ case.steps,
      Act.Steady (EndsSuite c s) (fun o p => o.told = p.told) (runStep c case.title raw) := by
    intro raw hraw
    refine steady_runStep (fun _ => .inl) ?_ fun target e ha he => ?_
    · rintro f (h | ⟨_, _, _, _, h⟩)
      · exact h
      · cases h
    · exact .inr ⟨target, e, ⟨_, mem_flatten hcase hraw, ha⟩, he, rfl⟩
  refine Act.Steady.bind (twin_clerical (Update.clerical_print _) (Update.clerical_print _)
    fun _ => .inl) fun _ _ _ => ?_
  exact Act.Twin.bind (steady_each hstep) fun os ps h => Act.twin_pure h

theorem steady_openRoot : Act.Steady F (fun _ _ => True) (openRoot c) := by
  refine ((leaves_clerical (Update.clerical_log _)).steady
    (Act.gives_log trivial)).bind fun _ _ _ => ?_
  refine Act.steady_ofExcept.bind fun url _ ⟨h, _⟩ => ?_
  subst h
  exact leaves_goTo.steady gives_goTo

theorem perStep_told (r : SuiteResult) :
    r.perStep.map (·.told) = (r.cases.map fun q => q.outcomes.map (·.told)).flatten := by
  rw [SuiteResult.perStep, List.map_flatMap, List.flatMap_def]

theorem steady_casesOf :
    Act.Steady (EndsSuite c s)
      (fun rs qs => rs.map (fun r => r.outcomes.map (·.told)) =
        qs.map fun q => q.outcomes.map (·.told)) (casesOf c s) := by
  have hcases := steady_each fun case (hcase : case ∈ s.cases) => steady_runCase (c := c) hcase
  refine Act.Steady.bind (twin_clerical (Update.clerical_print _) (Update.clerical_print _)
    fun _ => .inl) fun _ _ _ => ?_
  split
  · exact steady_openRoot.bind fun _ _ _ => hcases
  · exact hcases

/-- **A suite comes to the same outcomes** where its primary calls are answered
alike. -/
theorem steady_runSuite :
    Act.Steady (EndsSuite c s) (fun r q => r.perStep.map (·.told) = q.perStep.map (·.told))
      (runSuite c s) := by
  rw [runSuite_eq]
  refine Act.Steady.bind (twin_clerical (Report.clerical_writePlan s) (Report.clerical_writePlan s)
    fun _ => .inl) fun _ _ _ => ?_
  refine Act.Steady.bind steady_casesOf fun rs qs h => ?_
  refine Act.Twin.bind (twin_clerical (Report.clerical_suiteFinished _)
    (Report.clerical_suiteFinished _) fun _ => .inl) fun _ _ _ => ?_
  refine Act.twin_pure ?_
  rw [perStep_told, perStep_told, h]

end Run

end Walkthrough
