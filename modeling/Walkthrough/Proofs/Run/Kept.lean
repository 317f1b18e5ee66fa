import Walkthrough.Proofs.Run.Suite
/-!
# What a whole run keeps

A property of acts that passes from parts to the whole, such as keeping a
relation between the world at the start, the exchanges on the way and the
world at the end, is one of a run if each of the few things has it that a run
is made of: a look at a page, going to a page, a call on which a step hangs, a
notice, and a report. `StepKept` names them for a single step, `CaseKept` for
what lies between the plan of a suite and its result, and `RunKept` for a run;
the text of a step, a case, a suite and a run is gone through here once, for
every such property.
-/

namespace Walkthrough.Run

variable {α β : Type} {K : {α : Type} → Act α → Prop} {c : Conduct}

/-- The calls that look at a page and leave it as it is. -/
inductive Looks : String → Arguments → Prop
  /-- A state of the page is waited for. -/
  | wait (state : String) (timeout : Int) :
    Looks Session.waitTool [("state", .text state), ("timeout", .int timeout)]
  /-- A picture is taken. -/
  | picture : Looks Session.screenshotTool [("fullPage", .bool true)]
  /-- Whether the page shows any text. -/
  | hasText : Looks Session.evaluateTool
    [("function", .text (Page.expressionFunction Page.hasText))]
  /-- The markup of the page. -/
  | markup : Looks Session.evaluateTool
    [("function", .text (Page.expressionFunction Page.markup))]

/-- A control is pressed, if the page has it; the page script is forgotten
then. -/
def press (caption : String) : Act Bool := do
  let found ← resolve .click caption (Page.clickByText caption)
  if found then Session.forgetScript
  return found

/-- What follows a control that was pressed, or was not found. -/
def afterPress (c : Conduct) (step : Step) (caption : String) (found : Bool) : Act Unit :=
  if found then do
    awaitLoad clickLoadTimeout
    awaitIdle clickIdleTimeout
    idly Session.screenshot
  else do
    captureFailure c step
    .fail (.step (.noControl caption))

theorem clickControl_eq (c : Conduct) (step : Step) (caption : String) :
    clickControl c step caption = press caption >>= afterPress c step caption := by
  unfold clickControl press
  simp only [bind_assoc]
  congr 1
  funext found
  cases found <;> rfl

theorem idly_of_closed (hK : Act.Closed K) {x : Act α} (hx : K x) : K (idly x) :=
  hK.bestEffort (hK.map hx)

/-- **What a step is made of has a property.** -/
structure StepKept (K : {α : Type} → Act α → Prop) (c : Conduct) : Prop where
  closed : Act.Closed K
  log (l : LogEntry) : K (.log l)
  look {α : Type} {tool : String} {args : Arguments} (h : Looks tool args)
    (read : Answer → Except Fault α) : K (Session.single tool args read)
  navigate (url : String) : K (Session.navigate url)
  type (label value : String) : K (resolve .fill label (Page.typeByLabel label value))
  press (caption : String) : K (press caption)
  seek (phrase : String) : K (resolve .assertVisible phrase (Page.visibleTextExists phrase))
  page (h : (c.keepsPages && c.reports) = true) (markup : String) :
    K (Act.ofUpdate (Report.keepPage markup))
  snapshot (h : c.reports = true) (k : Classification) (image : Option (List UInt8))
    (markup : Option String) : K (Act.ofUpdate (Report.writeSnapshot k image markup))

namespace StepKept

variable (h : StepKept K c)
include h

/-! ## Steps -/

theorem waitFor (state : String) (timeout : Int) : K (idly (Session.waitFor state timeout)) := by
  unfold Session.waitFor
  rw [Session.invoke_eq]
  exact idly_of_closed h.closed (h.look (.wait state timeout) _)

theorem screenshot : K Session.screenshot := by
  unfold Session.screenshot
  rw [Session.invoke_eq]
  exact h.closed.bind (h.look .picture _) fun _ => h.closed.ofExcept _

theorem pageMarkup : K Session.pageMarkup := by
  unfold Session.pageMarkup
  rw [Session.evaluate_eq]
  exact h.closed.bind (h.look .markup _) fun _ => h.closed.pure _

theorem goTo (url : String) (timeout : Int) : K (goTo url timeout) :=
  h.closed.bind (idly_of_closed h.closed (h.navigate url)) fun _ => h.waitFor _ _

theorem tryAlternative (url : String) : K (tryAlternative url) := by
  unfold Run.tryAlternative
  refine h.closed.bind (h.closed.ofExcept _) fun alternative => ?_
  cases alternative with
  | none => exact h.closed.pure _
  | some alternative => exact h.closed.bind (h.log _) fun _ => h.goTo _ _

theorem keepOpenedPage (hk : (c.keepsPages && c.reports) = true) : K keepOpenedPage := by
  unfold Run.keepOpenedPage
  refine h.closed.bind (h.closed.bestEffort h.pageMarkup) fun markup => ?_
  cases markup with
  | none => exact h.closed.pure _
  | some markup =>
    dsimp only
    split
    · exact h.closed.bind (h.page hk markup) fun _ => h.closed.pure _
    · exact h.closed.pure _

theorem attend : K (attend c) := by
  unfold Run.attend
  refine h.closed.bind (h.waitFor _ _) fun _ => ?_
  refine h.closed.bind (idly_of_closed h.closed h.screenshot) fun _ => ?_
  split
  · next hk => exact h.keepOpenedPage hk
  · exact h.closed.pure _

theorem openPage (target : String) : K (openPage c target) := by
  rw [openPage_eq]
  refine h.closed.bind (h.closed.ofExcept _) fun url => ?_
  unfold openAt
  rw [Session.evaluate_eq]
  refine h.closed.bind (h.goTo _ _) fun _ => ?_
  refine h.closed.bind (h.closed.bestEffort (h.look .hasText _)) fun hasText => ?_
  dsimp only
  split
  · exact h.closed.bind (h.tryAlternative url) fun _ => h.attend
  · exact h.attend

theorem captureFailure (step : Step) : K (captureFailure c step) := by
  unfold Run.captureFailure
  refine h.closed.bind (h.closed.bestEffort h.screenshot) fun image => ?_
  refine h.closed.bind (h.closed.bestEffort h.pageMarkup) fun markup => ?_
  split
  · next hr => exact h.closed.bind (h.snapshot hr _ _ _) fun _ => h.closed.pure _
  · exact h.closed.pure _

theorem fillField (step : Step) (label value : String) : K (fillField c step label value) := by
  unfold Run.fillField
  refine h.closed.bind (h.type label value) fun found => ?_
  split
  · exact h.closed.bind (h.waitFor _ _) fun _ => idly_of_closed h.closed h.screenshot
  · exact h.closed.bind (h.captureFailure step) fun _ => h.closed.fail _

theorem clickControl (step : Step) (caption : String) : K (clickControl c step caption) := by
  rw [clickControl_eq]
  refine h.closed.bind (h.press caption) fun found => ?_
  unfold afterPress
  split
  · refine h.closed.bind (h.waitFor _ _) fun _ => ?_
    exact h.closed.bind (h.waitFor _ _) fun _ => idly_of_closed h.closed h.screenshot
  · exact h.closed.bind (h.captureFailure step) fun _ => h.closed.fail _

theorem lookFor (phrase : String) : K (lookFor phrase) := by
  unfold Run.lookFor
  refine h.closed.bind (h.seek phrase) fun found => ?_
  split
  · exact h.closed.pure _
  · exact h.closed.fail _

/-- **A step has it.** -/
theorem perform (step : Step) : K (perform c step) := by
  unfold Run.perform
  cases step.action with
  | navigate target => exact h.openPage target
  | fill label value => exact h.fillField step label value
  | click caption => exact h.clickControl step caption
  | assertVisible phrase => exact h.lookFor phrase
  | unrecognized =>
    exact h.closed.bind (idly_of_closed h.closed h.screenshot) fun _ => h.log _

theorem execute (raw : String) : K (execute c raw) :=
  h.closed.bind (h.perform _) fun _ => h.closed.pure _

theorem openRoot : K (openRoot c) := by
  refine h.closed.bind (h.log _) fun _ => ?_
  exact h.closed.bind (h.closed.ofExcept _) fun url => h.goTo _ _

end StepKept

/-! ## Cases -/

/-- **What the cases of a suite are made of has a property:** steps, and
notices about them. -/
structure CaseKept (K : {α : Type} → Act α → Prop) (c : Conduct) : Prop
    extends StepKept K c where
  print (n : Notice) : K (.print n)

namespace CaseKept

variable (h : CaseKept K c)
include h

theorem runStep (title raw : String) : K (runStep c title raw) := by
  have hannounce (o : Outcome) : K (Act.ofUpdate (announce o)) := by
    unfold announce
    split
    · exact h.print _
    · exact h.print _
  unfold Run.runStep
  refine h.closed.bind (h.closed.read _) fun start => ?_
  refine h.closed.bind (h.closed.attempt (h.execute raw)) fun r => ?_
  refine h.closed.bind (h.closed.ofExcept _) fun reason => ?_
  refine h.closed.bind (h.closed.read _) fun stop => ?_
  exact h.closed.bind (hannounce _) fun _ => h.closed.pure _

/-- A list of acts has what each of them has. -/
theorem each {f : α → Act β} (hf : ∀ a, K (f a)) (as : List α) : K (each f as) := by
  induction as with
  | nil => exact h.closed.pure _
  | cons a rest ih =>
    refine h.closed.bind (hf a) fun b => ?_
    exact h.closed.bind ih fun bs => h.closed.pure _

theorem runCase (case : Case) : K (runCase c case) := by
  refine h.closed.bind (h.print _) fun _ => ?_
  exact h.closed.bind (h.each (h.runStep case.title) _) fun _ => h.closed.pure _

/-- **So does all that is done between the plan of a suite and its result.** -/
theorem casesOf (s : Suite) : K (casesOf c s) := by
  refine h.closed.bind (h.print _) fun _ => ?_
  split
  · exact h.closed.bind h.openRoot fun _ => h.each h.runCase _
  · exact h.each h.runCase _

end CaseKept

/-! ## Runs -/

/-- **What a run is made of has a property.** -/
structure RunKept (K : {α : Type} → Act α → Prop) (c : Conduct) : Prop
    extends CaseKept K c where
  plan (s : Suite) : K (Act.ofUpdate (Report.writePlan s))
  result (r : SuiteResult) : K (Act.ofUpdate (Report.suiteFinished r))
  probed (url : String) (image : Option (List UInt8)) (markup : Option String) :
    K (Act.ofUpdate (Report.writeProbe url image markup))

namespace RunKept

variable (h : RunKept K c)
include h

theorem runSuite (s : Suite) : K (runSuite c s) := by
  rw [runSuite_eq]
  refine h.closed.bind (h.plan s) fun _ => ?_
  refine h.closed.bind (h.casesOf s) fun cases => ?_
  exact h.closed.bind (h.result _) fun _ => h.closed.pure _

theorem runFile (path : String) : K (runFile c path) := by
  have hreads : Act.ofUpdate (Update.readFile path) =
      Act.read (fun w => w.files.read path) >>= Act.ofExcept .file := by
    funext w
    exact congrArg Dialogue.done (Update.readFile_eq path w)
  refine h.closed.bind ?_ fun bytes => h.runSuite _
  show K (Act.ofUpdate (Update.readFile path))
  rw [hreads]
  exact h.closed.bind (h.closed.read _) fun r => h.closed.ofExcept r

/-- **Documents, one after the other, have it.** -/
theorem runFiles (paths : List String) : K (runFiles c paths) :=
  h.closed.bind (h.each h.runFile paths) fun _ => h.closed.pure _

/-- So does a probe. -/
theorem probe (target : String) : K (probe c target) := by
  refine h.closed.bind (h.closed.ofExcept _) fun url => ?_
  refine h.closed.bind (h.goTo _ _) fun _ => ?_
  refine h.closed.bind (h.waitFor _ _) fun _ => ?_
  refine h.closed.bind (h.closed.bestEffort h.screenshot) fun image => ?_
  exact h.closed.bind (h.closed.bestEffort h.pageMarkup) fun markup => h.probed _ _ _

end RunKept

/-! ## Properties that every call has -/

/-- **Every call has a property,** and so has what a session remembers of the
page script. -/
structure CallKept (K : {α : Type} → Act α → Prop) : Prop where
  closed : Act.Closed K
  call {α : Type} {tool : String} {args : Arguments}
    (read : Answer → Except Fault α) : K (Session.single tool args read)
  script (ready : Bool) : K (Session.changeConnection ({ · with scriptReady := ready }))

namespace CallKept

variable (h : CallKept K)
include h

theorem navigate (url : String) : K (Session.navigate url) := by
  unfold Session.navigate
  rw [Session.invoke_eq]
  exact h.closed.bind (h.script false) fun _ => h.call _

theorem ensureScript : K Session.ensureScript := by
  unfold Session.ensureScript Session.evaluateStatement
  rw [Session.invoke_eq]
  refine h.closed.bind (h.closed.read _) fun conn => ?_
  split
  · exact h.closed.pure _
  · refine h.closed.bind ?_ fun _ => h.script true
    exact h.closed.bind (h.call _) fun _ => h.closed.pure _

theorem answerOf (expression : String) : K (answerOf expression) := by
  unfold Run.answerOf
  rw [Session.evaluate_eq]
  exact h.closed.bind h.ensureScript fun _ => h.call _

theorem resolve (kind : StepKind) (target expression : String) :
    K (resolve kind target expression) := by
  unfold Run.resolve Run.resolverAnswer
  refine h.closed.bind (h.closed.attempt ?_) fun r => ?_
  · refine h.closed.bind (h.answerOf expression) fun answer => ?_
    split
    · exact h.closed.bind (h.script false) fun _ => h.answerOf expression
    · exact h.closed.pure _
  · split
    · exact h.closed.pure _
    · exact h.closed.fail _
    · exact h.closed.fail _

theorem press (caption : String) : K (press caption) := by
  unfold Run.press
  refine h.closed.bind (h.resolve _ _ _) fun found => ?_
  dsimp only
  split
  · exact h.closed.bind (h.script false) fun _ => h.closed.pure _
  · exact h.closed.pure _

/-- **A run has it** if clerical work does, too. -/
theorem runKept (hclerical : ∀ {α : Type} {u : Update α}, u.Clerical → K (Act.ofUpdate u))
    (c : Conduct) : RunKept K c where
  closed := h.closed
  log l := hclerical (Update.clerical_log l)
  print n := hclerical (Update.clerical_print n)
  look _ := h.call
  navigate := h.navigate
  type _ _ := h.resolve _ _ _
  press := h.press
  seek _ := h.resolve _ _ _
  page _ markup := hclerical (Report.clerical_keepPage markup)
  snapshot _ k image markup := hclerical (Report.clerical_writeSnapshot k image markup)
  plan s := hclerical (Report.clerical_writePlan s)
  result r := hclerical (Report.clerical_suiteFinished r)
  probed url image markup := hclerical (Report.clerical_writeProbe url image markup)

end CallKept

/-! ## Errands -/

/-- What a connected session can be sent on. -/
inductive Errand where
  | step (raw : String)
  /-- A step, for its outcome. -/
  | outcome (caseTitle raw : String)
  | suite (s : Suite)
  | document (path : String)
  | documents (paths : List String)
  | probe (target : String)

/-- An errand under a conduct. Nobody waits for what it brings. -/
def Errand.act (c : Conduct) : Errand → Act Unit
  | .step raw => (fun _ => ()) <$> execute c raw
  | .outcome caseTitle raw => (fun _ => ()) <$> Run.runStep c caseTitle raw
  | .suite s => (fun _ => ()) <$> Run.runSuite c s
  | .document path => (fun _ => ()) <$> Run.runFile c path
  | .documents paths => (fun _ => ()) <$> Run.runFiles c paths
  | .probe target => (fun _ => ()) <$> Run.probe c target

/-- **Errands, one after the other,** each under a conduct of its own and
whatever came of the ones before. -/
def errands : List (Conduct × Errand) → Act Unit
  | [] => return ()
  | (c, e) :: rest => do
    let _ ← .attempt (e.act c)
    errands rest

/-- **Errands have** what every run has. -/
theorem kept_errands (h : ∀ c, RunKept K c) (ts : List (Conduct × Errand)) : K (errands ts) := by
  have hclosed := (h default).closed
  have herrand (c : Conduct) (e : Errand) : K (e.act c) := by
    cases e with
    | step raw => exact hclosed.map ((h c).execute raw)
    | outcome title raw => exact hclosed.map ((h c).runStep title raw)
    | suite s => exact hclosed.map ((h c).runSuite s)
    | document path => exact hclosed.map ((h c).runFile path)
    | documents paths => exact hclosed.map ((h c).runFiles paths)
    | probe target => exact hclosed.map ((h c).probe target)
  induction ts with
  | nil => exact hclosed.pure _
  | cons t rest ih => exact hclosed.bind (hclosed.attempt (herrand t.1 t.2)) fun _ => ih

end Walkthrough.Run
