import Mathlib.Data.List.Forall2
import Walkthrough.Proofs.Run.Step
import Walkthrough.Run.Suite
/-!
# What a suite can come to

A step that fails is an outcome, so the steps after it are carried out all the
same, and the result of a suite accounts for every step in its place
(`SuiteResult.Covers`). What ends a run before its last step is a file that
cannot be written, or a page that cannot be split as a URL: the first splitting
of a page comes before it is opened, the second only when it shows nothing. An
answer on which a step hangs and that is nested too deep ends it as well.
-/

namespace Walkthrough

/-! ## Accounts of steps -/

/-- The step of an outcome, under the title of its case. -/
def Outcome.flat (o : Outcome) : FlatStep := ⟨o.caseTitle, o.step⟩

/-- An outcome that says what its step is, and gives a reason exactly where
the step failed. -/
structure Outcome.Sound (o : Outcome) : Prop where
  kind : o.kind = (Step.classify o.step).action.kind
  reason : o.reason.isSome = true ↔ o.status = .failed

/-- A result that accounts for every step of a case in its place. -/
structure CaseResult.Covers (r : CaseResult) (case : Case) : Prop where
  title : r.title = case.title
  steps : r.outcomes.map (·.flat) = case.steps.map (⟨case.title, ·⟩)
  sound : ∀ o ∈ r.outcomes, o.Sound

/-- **A result that accounts for every step of a suite** in its place. -/
structure SuiteResult.Covers (r : SuiteResult) (s : Suite) : Prop where
  titles : r.cases.map (·.title) = s.cases.map (·.title)
  steps : r.perStep.map (·.flat) = s.flatten
  sound : ∀ o ∈ r.perStep, o.Sound

/-- A step of the suite goes to a target. -/
def Suite.Targets (s : Suite) (target : String) : Prop :=
  ∃ f ∈ s.flatten, (Step.classify f.step).action = .navigate target

namespace Run

variable {c : Conduct} {s : Suite}

theorem flat_outcomeOf (raw title : String) (reason : Option String) (d : Double) :
    (outcomeOf raw title reason d).flat = ⟨title, raw⟩ := rfl

theorem sound_outcomeOf (raw title : String) (reason : Option String) (d : Double) :
    (outcomeOf raw title reason d).Sound := by
  refine ⟨rfl, ?_⟩
  unfold outcomeOf
  cases reason with
  | none => simp
  | some _ => simp

/-! ## Steps and lists of steps -/

section

variable {A : Exchange → Prop} {F G : Fault → Prop} {title raw : String}

/-- A step that is carried out gives its record. -/
theorem gives_execute {P : Unit → Prop} (h : Act.Gives A (perform c (Step.classify raw)) P F) :
    Act.Gives A (execute c raw) (fun k => P () ∧ k = (Step.classify raw).classification) F :=
  h.bind fun _ hp => Act.gives_pure ⟨hp, rfl⟩

/-- **What a step can come to decides what its outcome can be.** Its duration
is that between two readings of the clock. -/
theorem gives_timed {P : Classification → Prop} {Q : Option String → Prop}
    (hx : Act.Gives A (execute c raw) P F)
    (hr : ∀ r, Ends P F r → Ends Q G (failureOf r)) :
    Act.Gives A (runStep c title raw)
      (fun o => ∃ reason start stop, Q reason ∧
        o = outcomeOf raw title reason (seconds start stop)) G := by
  unfold runStep
  refine (Act.gives_read (P := fun _ => True) fun _ => trivial).bind fun start _ => ?_
  refine hx.attempt.bind fun r h => ?_
  refine Act.Gives.bind (P := Q) (Act.gives_ofExcept ?_) fun reason hreason => ?_
  · have := hr r h
    cases hf : failureOf r with
    | ok _ => rwa [hf] at this
    | error _ => rwa [hf] at this
  refine (Act.gives_read (P := fun _ => True) fun _ => trivial).bind fun stop _ => ?_
  have hann : (announce (outcomeOf raw title reason (seconds start stop))).Gives
      (fun _ => True) G := by
    unfold announce
    split
    · exact Update.gives_print trivial
    · exact Update.gives_print trivial
  refine (Act.gives_ofUpdate hann).bind fun _ _ => ?_
  exact Act.gives_pure ⟨reason, start, stop, hreason, rfl⟩

/-- The same, however long the step took. -/
theorem gives_runStep {P : Classification → Prop} {Q : Option String → Prop}
    (hx : Act.Gives A (execute c raw) P F)
    (hr : ∀ r, Ends P F r → Ends Q G (failureOf r)) :
    Act.Gives A (runStep c title raw)
      (fun o => ∃ reason d, Q reason ∧ o = outcomeOf raw title reason d) G := by
  refine (gives_timed hx hr).mono ?_ fun _ he => he
  rintro o ⟨reason, start, stop, hreason, rfl⟩
  exact ⟨reason, _, hreason, rfl⟩

end

/-- An outcome is one of its step. -/
theorem gives_outcome {A : Exchange → Prop} {F G : Fault → Prop} {title raw : String}
    (hx : Act.Gives A (perform c (Step.classify raw)) (fun _ => True) F)
    (hr : ∀ r, Ends (fun _ => True) F r → Ends (fun _ => True) G (failureOf r)) :
    Act.Gives A (runStep c title raw) (fun o => o.flat = ⟨title, raw⟩ ∧ o.Sound) G := by
  refine Act.Gives.mono (gives_runStep ((gives_execute hx).mono (fun _ _ => trivial)
    fun _ he => he) hr) ?_ fun _ he => he
  rintro o ⟨reason, d, -, rfl⟩
  exact ⟨flat_outcomeOf .., sound_outcomeOf ..⟩

/-- A list of acts has one result for each, if none of them faults. -/
theorem gives_each {α β : Type} {A : Exchange → Prop} {F : Fault → Prop} {P : α → β → Prop}
    {f : α → Act β} {as : List α} (h : ∀ a ∈ as, Act.Gives A (f a) (P a) F) :
    Act.Gives A (each f as) (List.Forall₂ P as) F := by
  induction as with
  | nil => exact Act.gives_pure .nil
  | cons a rest ih =>
    refine (h a List.mem_cons_self).bind fun b hb => ?_
    refine (ih fun d hd => h d (List.mem_cons_of_mem _ hd)).bind fun bs hbs => ?_
    exact Act.gives_pure (.cons hb hbs)

/-- **No page of the suite is stray.** -/
def NoStray (c : Conduct) (s : Suite) : Prop := ∀ target e, s.Targets target → ¬Stray c target e

/-- What ends a suite early: a file that cannot be written, or a page among
the targets that cannot be split. -/
def EndsSuite (c : Conduct) (s : Suite) (e : Fault) : Prop :=
  IsFile e ∨ ∃ target u, s.Targets target ∧ Stray c target u ∧ e = .url u

section Lists

variable {α β γ : Type} {as : List α} {bs : List β}

/-- Lists that agree member by member have the same images. -/
theorem map_eq_of_forall₂ {f : α → γ} {g : β → γ}
    (h : List.Forall₂ (fun a b => g b = f a) as bs) : bs.map g = as.map f := by
  induction h with
  | nil => rfl
  | cons hab _ ih => rw [List.map_cons, List.map_cons, hab, ih]

theorem flatMap_eq_of_forall₂ {f : α → List γ} {g : β → List γ}
    (h : List.Forall₂ (fun a b => g b = f a) as bs) : bs.flatMap g = as.flatMap f := by
  induction h with
  | nil => rfl
  | cons hab _ ih => rw [List.flatMap_cons, List.flatMap_cons, hab, ih]

theorem forall_mem_of_forall₂ {P : β → Prop} (h : List.Forall₂ (fun _ b => P b) as bs) :
    ∀ b ∈ bs, P b := by
  induction h with
  | nil => exact fun _ hb => nomatch hb
  | cons hb _ ih =>
    intro d hd
    rcases List.mem_cons.1 hd with rfl | hd
    · exact hb
    · exact ih d hd

end Lists

/-- The outcomes of the steps of a case are an account of it. -/
theorem covers_of_steps {case : Case} {os : List Outcome}
    (h : List.Forall₂ (fun raw o => o.flat = ⟨case.title, raw⟩ ∧ o.Sound) case.steps os) :
    (⟨case.title, os⟩ : CaseResult).Covers case where
  title := rfl
  steps := map_eq_of_forall₂ (h.imp fun _ _ ho => ho.1)
  sound := forall_mem_of_forall₂ (h.imp fun _ _ ho => ho.2)

/-- The results of the cases of a suite are an account of it. -/
theorem covers_of_cases {rs : List CaseResult}
    (h : List.Forall₂ (fun case r => r.Covers case) s.cases rs) :
    (⟨s.name, s.source, rs⟩ : SuiteResult).Covers s where
  titles := map_eq_of_forall₂ (h.imp fun _ _ hr => hr.title)
  steps := by
    unfold SuiteResult.perStep
    rw [List.map_flatMap]
    exact flatMap_eq_of_forall₂ (h.imp fun _ _ hr => hr.steps)
  sound := by
    intro o ho
    obtain ⟨r, hr, hor⟩ := List.mem_flatMap.1 ho
    exact forall_mem_of_forall₂ (h.imp fun _ _ hr => hr.sound) r hr o hor

theorem mem_flatten {case : Case} (hcase : case ∈ s.cases) {raw : String}
    (hraw : raw ∈ case.steps) : (⟨case.title, raw⟩ : FlatStep) ∈ s.flatten :=
  List.mem_flatMap.2 ⟨case, hcase, List.mem_map.2 ⟨raw, hraw, rfl⟩⟩

theorem gives_openRoot {A : Exchange → Prop} {F : Fault → Prop}
    (h : ∀ e, Url.page c.baseUrl "/" = .error e → F (.url e)) :
    Act.Gives A (openRoot c) (fun _ => True) F := by
  unfold openRoot
  refine (Act.gives_log (P := fun _ => True) trivial).bind fun _ _ => ?_
  refine Act.Gives.bind (P := fun _ => True) (Act.gives_ofExcept ?_) fun url _ => gives_goTo
  cases hpage : Url.page c.baseUrl "/" with
  | ok _ => trivial
  | error e => exact h e hpage

/-- What a suite does between its plan and its result. -/
def casesOf (c : Conduct) (s : Suite) : Act (List CaseResult) := do
  Report.suiteStarted s
  if !opensPage s then openRoot c
  each (runCase c) s.cases

theorem runSuite_eq (c : Conduct) (s : Suite) :
    runSuite c s = (do
      let _ ← Report.writePlan s
      let cases ← casesOf c s
      Report.suiteFinished ⟨s.name, s.source, cases⟩
      return ⟨s.name, s.source, cases⟩) := by
  unfold runSuite casesOf
  simp only [bind_assoc]
  split
  · simp only [bind_assoc]
  · rfl

/-- **The faults of a suite are of a kind:** those of its steps, that of the page at
the root, and that of a file of its report. -/
structure SuiteFaults (c : Conduct) (s : Suite) (A : Exchange → Prop) (F : Fault → Prop) :
    Prop where
  step (case : Case) (hcase : case ∈ s.cases) (raw : String) (hraw : raw ∈ case.steps) :
    Act.Gives A (runStep c case.title raw) (fun o => o.flat = ⟨case.title, raw⟩ ∧ o.Sound) F
  root (e : Url.Error) (h : Url.page c.baseUrl "/" = .error e) : F (.url e)
  file (e : Fault) (h : IsFile e) : F e

namespace SuiteFaults

variable {A : Exchange → Prop} {F : Fault → Prop} (h : SuiteFaults c s A F)
include h

theorem runCase {case : Case} (hcase : case ∈ s.cases) :
    Act.Gives A (runCase c case) (fun r => r.Covers case) F := by
  refine (Act.gives_clerical (Update.clerical_print _) h.file).bind fun _ _ => ?_
  exact (gives_each (h.step case hcase)).bind fun os hos => Act.gives_pure (covers_of_steps hos)

theorem casesOf :
    Act.Gives A (casesOf c s) (List.Forall₂ (fun case r => r.Covers case) s.cases) F := by
  have hcases := gives_each fun case hcase => h.runCase hcase
  refine (Act.gives_clerical (Update.clerical_print _) h.file).bind fun _ _ => ?_
  split
  · exact (gives_openRoot h.root).bind fun _ _ => hcases
  · exact hcases

/-- **A suite comes to an account of itself,** unless something ends it. -/
theorem runSuite : Act.Gives A (runSuite c s) (fun r => r.Covers s) F := by
  rw [runSuite_eq]
  refine (Act.gives_clerical (Report.clerical_writePlan s) h.file).bind fun _ _ => ?_
  refine h.casesOf.bind fun rs hrs => ?_
  refine (Act.gives_clerical (Report.clerical_suiteFinished _) h.file).bind fun _ _ => ?_
  exact Act.gives_pure (covers_of_cases hrs)

end SuiteFaults

end Run

end Walkthrough
