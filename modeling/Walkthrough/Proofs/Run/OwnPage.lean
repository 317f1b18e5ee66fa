import Walkthrough.Proofs.Run.Ready
import Walkthrough.Proofs.Run.Script
import Walkthrough.Proofs.Run.Transport
import Walkthrough.Proofs.Suite.Lead
/-!
# On whose page a suite starts

Suites that are carried out one after the other share a session, and so a
page. Before a suite first calls a resolver it goes to a page of its own,
unless it asks early: the page at the root of the site is left out because
some step opens a page, and a step before that one asks whatever page has been
left open (`own_page_iff`).

An act leads with something (`Act.Leads`) if what is exchanged first about the
page is of that kind. This is known for each step and passes to sequences
(`Act.Leads.bind`), so it is known for the cases of a suite, by the lead of the
suite.
-/

namespace Walkthrough

open Walkthrough.Json

variable {α β : Type} {es fs : List Exchange} {e : Exchange}

/-- **A page is opened first:** a resolver is called only after a page was to
be opened. -/
def Opened (es : List Exchange) : Prop :=
  ∀ front e back, es = front ++ e :: back → Resolves e → ∃ n ∈ front, Navigates n

theorem opened_of_not_resolves (h : ∀ e ∈ es, ¬Resolves e) : Opened es := by
  rintro front e back rfl he
  exact absurd he (h e (by simp))

theorem opened_of_precedes (h : Precedes Navigates Resolves es) : Opened es := by
  induction es with
  | nil => exact absurd h not_precedes_nil
  | cons d rest ih =>
    rintro (_ | ⟨_, front⟩) e back heq he
    · -- a resolver comes first, and that is neither a page nor something before one
      cases heq
      rcases precedes_cons_iff.1 h with hn | ⟨hr, -⟩
      · exact absurd hn he.not_navigates
      · exact absurd he hr
    · cases heq
      rcases precedes_cons_iff.1 h with hn | ⟨-, hrest⟩
      · exact ⟨d, List.mem_cons_self, hn⟩
      · obtain ⟨n, hn, hnav⟩ := ih hrest front e back rfl he
        exact ⟨n, List.mem_cons_of_mem _ hn, hnav⟩

theorem not_opened_of_precedes (h : Precedes Resolves Navigates es) : ¬Opened es := by
  obtain ⟨front, e, back, heq, he, hfront⟩ := h
  intro ho
  obtain ⟨n, hn, hnav⟩ := ho front e back heq he
  exact hfront n hn hnav

/-! ## What an act leads with -/

/-- If the page script was to be installed, it was. -/
def Accepted (e : Exchange) : Prop := e.1 = installation → Installs e

/-- **What is exchanged where an act leads with something,** by what it comes
to. An act that leads with nothing comes to a value, and one that leads with a
page opens it unless it faults before. A question is asked unless the page
script was refused. -/
def Lead.Shows : Lead → List Exchange → Except Fault α → Prop
  | .nothing, es, r => (∀ e ∈ es, ¬Resolves e ∧ ¬Navigates e) ∧ r.isOk = true
  | .page, es, r => Precedes Navigates Resolves es ∨ ((∀ e ∈ es, ¬Resolves e) ∧ r.isOk = false)
  | .question, es, _ => (∀ e ∈ es, Accepted e) → Precedes Resolves Navigates es

/-- What leads with no question opens a page first. -/
theorem Lead.Shows.opened {l : Lead} {r : Except Fault α} (h : l.Shows es r)
    (hl : l ≠ .question) : Opened es := by
  cases l with
  | nothing => exact opened_of_not_resolves fun e he => (h.1 e he).1
  | page =>
    rcases h with h | ⟨h, -⟩
    · exact opened_of_precedes h
    · exact opened_of_not_resolves h
  | question => exact absurd rfl hl

/-- Exchanges of no concern may come before. -/
theorem Lead.Shows.after {l : Lead} {r : Except Fault α} (h : l.Shows fs r)
    (hes : ∀ e ∈ es, ¬Resolves e ∧ ¬Navigates e) : l.Shows (es ++ fs) r := by
  cases l with
  | nothing =>
    refine ⟨fun e he => ?_, h.2⟩
    rcases List.mem_append.1 he with he | he
    · exact hes e he
    · exact h.1 e he
  | page =>
    rcases h with h | ⟨h, hr⟩
    · exact .inl (h.after fun e he => (hes e he).1)
    · refine .inr ⟨fun e he => ?_, hr⟩
      rcases List.mem_append.1 he with he | he
      · exact (hes e he).1
      · exact h e he
  | question =>
    intro ha
    exact (h fun e he => ha e (List.mem_append_right _ he)).after fun e he => (hes e he).2

namespace Act

/-- **An act on a connected session leads with something,** and leaves the
session connected. -/
def Leads (l : Lead) (x : Act α) : Prop :=
  ∀ ⦃w es r w'⦄, x.Way w es r w' → w.connection.connected = true →
    w'.connection.connected = true ∧ l.Shows es r

theorem leads_ofUpdate {u : Update α} (h : ∀ w, (u w).1.isOk = true)
    (hc : ∀ w, (u w).2.connection = w.connection) : Leads .nothing (ofUpdate u) := by
  intro w es r w' hx hw
  obtain ⟨rfl, hr⟩ := way_ofUpdate_iff.1 hx
  have hok := h w
  have hconn := hc w
  rw [← hr] at hok hconn
  refine ⟨?_, by simp, hok⟩
  rw [hconn]
  exact hw

theorem leads_pure {a : α} : Leads .nothing (Pure.pure a : Act α) :=
  leads_ofUpdate (u := Pure.pure a) (fun _ => rfl) fun _ => rfl

theorem leads_print (n : Notice) : Leads .nothing (Act.print n) :=
  leads_ofUpdate (fun _ => rfl) fun _ => rfl

theorem leads_log (l : LogEntry) : Leads .nothing (Act.log l) :=
  leads_ofUpdate (fun _ => rfl) fun _ => rfl

/-- **A sequence leads as its first part does,** or as its second where the
first leads with nothing. -/
theorem Leads.bind {l k : Lead} {x : Act α} {f : α → Act β} (hx : Leads l x)
    (hf : ∀ a, Leads k (f a)) : Leads (l.andThen k) (x >>= f) := by
  intro w es r w' h hw
  rcases way_bind_iff.1 h with ⟨a, w₁, es₁, es₂, h₁, h₂, rfl⟩ | ⟨e, h₁, rfl⟩
  · obtain ⟨hw₁, hl⟩ := hx h₁ hw
    obtain ⟨hw', hk⟩ := hf a h₂ hw₁
    refine ⟨hw', ?_⟩
    cases l with
    | nothing => exact hk.after hl.1
    | page =>
      rcases hl with hl | ⟨-, hr⟩
      · exact .inl hl.append
      · cases hr
    | question => exact fun ha => (hl fun e he => ha e (List.mem_append_left _ he)).append
  · -- the first part has faulted, so it did not lead with nothing
    obtain ⟨hw', hl⟩ := hx h₁ hw
    refine ⟨hw', ?_⟩
    cases l with
    | nothing => cases hl.2
    | page => exact hl
    | question => exact hl

/-- A list of acts leads as the first of them that leads with anything. -/
theorem leads_each {k : α → Lead} {f : α → Act β} (h : ∀ a, Leads (k a) (f a)) (as : List α) :
    Leads (Lead.first k as) (Run.each f as) := by
  induction as with
  | nil => exact leads_pure
  | cons a rest ih =>
    have hrest (b : β) : Leads (Lead.first k rest) (do return b :: (← Run.each f rest)) := by
      have hbind := ih.bind fun bs => leads_pure (a := b :: bs)
      rwa [Lead.andThen_nothing] at hbind
    exact (h a).bind hrest

/-- What is exchanged in a sequence begins with what is exchanged in its first
part. -/
theorem exists_front_of_bind {x : Act α} {f : α → Act β} {w w' : World} {r : Except Fault β}
    (h : (x >>= f).Way w es r w') :
    ∃ r₁ w₁ es₁ es₂, x.Way w es₁ r₁ w₁ ∧ es = es₁ ++ es₂ := by
  rcases way_bind_iff.1 h with ⟨a, w₁, es₁, es₂, h₁, -, rfl⟩ | ⟨e, h₁, -⟩
  · exact ⟨_, w₁, es₁, es₂, h₁, rfl⟩
  · exact ⟨_, w', es, [], h₁, by simp⟩

end Act

namespace Run

variable {c : Conduct} {s : Suite} {w w' : World}

/-! ## Pages -/

/-- The page that is gone to is the first that is asked for. -/
theorem precedes_goTo {url : String} {timeout : Int} {r : Except Fault Unit}
    (h : (goTo url timeout).Way w es r w') (hw : w.connection.connected = true) :
    Precedes Navigates Resolves es := by
  unfold goTo idly at h
  obtain ⟨r₁, w₁, es₁, es₂, h₁, rfl⟩ := Act.exists_front_of_bind h
  obtain ⟨r₂, h₂, -⟩ := Act.way_bestEffort_iff.1 h₁
  have h₂ : (Session.navigate url >>= fun _ => pure ()).Way w es₁ r₂ w₁ := h₂
  obtain ⟨r₃, w₃, es₃, es₄, h₃, rfl⟩ := Act.exists_front_of_bind h₂
  have h₃ := Act.way_change_bind.1 h₃
  rw [Session.invoke_eq] at h₃
  obtain ⟨a, rfl, -⟩ := Session.way_single_of_connected h₃ hw
  exact precedes_cons_iff.2 (.inl ⟨_, rfl⟩)

/-- What begins with going to a page opens it, unless its URL cannot be told. -/
theorem precedes_ofExcept {x : Except Url.Error String} {f : String → Act α}
    {r : Except Fault α}
    (hf : ∀ ⦃url w es r w'⦄, (f url).Way w es r w' → w.connection.connected = true →
      Precedes Navigates Resolves es)
    (h : (Act.ofExcept .url x >>= f).Way w es r w') (hw : w.connection.connected = true) :
    Precedes Navigates Resolves es ∨ (es = [] ∧ ∃ e, r = .error (.url e)) := by
  rcases Act.way_ofExcept_bind.1 h with ⟨url, -, h⟩ | ⟨e, -, rfl, rfl, -⟩
  · exact .inl (hf h hw)
  · exact .inr ⟨rfl, e, rfl⟩

theorem precedes_openPage {target : String} {r : Except Fault Unit}
    (h : (openPage c target).Way w es r w') (hw : w.connection.connected = true) :
    Precedes Navigates Resolves es ∨ (es = [] ∧ ∃ e, r = .error (.url e)) := by
  rw [openPage_eq] at h
  refine precedes_ofExcept (fun url w es r w' hx hc => ?_) h hw
  unfold openAt at hx
  obtain ⟨r₁, w₁, es₁, es₂, h₁, rfl⟩ := Act.exists_front_of_bind hx
  exact (precedes_goTo h₁ hc).append

/-- **The page at the root of the site** is opened first. -/
theorem leads_openRoot : Act.Leads .page (openRoot c) := by
  refine (Act.leads_log _).bind (k := .page) fun _ => ?_
  intro w es r w' h hw
  refine ⟨?_, ?_⟩
  · have hkept : Act.Keeps Talks (Act.ofExcept .url (Url.page c.baseUrl "/") >>= fun url =>
        goTo url initialLoadTimeout) :=
      callKept_talks.closed.bind (callKept_talks.closed.ofExcept _) fun url =>
        (runKept_talks c).goTo _ _
    rw [(hkept h).2.1]
    exact hw
  · rcases precedes_ofExcept (fun _ _ _ _ _ => precedes_goTo) h hw with h | ⟨rfl, e, rfl⟩
    · exact .inl h
    · exact .inr ⟨by simp, rfl⟩

/-! ## Questions -/

/-- To see to the script opens no page, -/
theorem Ensured.not_navigates {r : Except Fault Unit} (h : Ensured w w' es r) :
    ∀ e ∈ es, ¬Navigates e := by
  cases h with
  | known _ _ => nofun
  | installed _ _ _ => simpa using not_navigates_of_installation rfl
  | failed _ _ _ => simpa using not_navigates_of_installation rfl

/-- and fails only where the script was refused. -/
theorem Ensured.eq_ok {r : Except Fault Unit} (h : Ensured w w' es r) (ha : ∀ e ∈ es, Accepted e) :
    r = .ok () := by
  cases h with
  | known _ _ => rfl
  | installed _ _ _ => rfl
  | failed _ hitems _ =>
    obtain ⟨-, items, hread⟩ := ha _ List.mem_cons_self rfl
    cases hitems.symm.trans hread

/-- **A resolver is called** before any page is opened, if the page script is
not refused. -/
theorem precedes_resolve {kind : StepKind} {target : String} {q : Page.Resolver}
    {args : List Value} (hq : q ≠ .clickTier) {r : Except Fault Bool}
    (h : (resolve kind target (Page.call q args)).Way w es r w')
    (hw : w.connection.connected = true) (ha : ∀ e ∈ es, Accepted e) :
    Precedes Resolves Navigates es := by
  unfold resolve at h
  obtain ⟨r₁, w₁, es₁, es₂, h₁, -, rfl⟩ := Act.way_attempt_bind.1 h
  unfold resolverAnswer at h₁
  obtain ⟨r₂, w₂, es₃, es₄, h₂, rfl⟩ := Act.exists_front_of_bind h₁
  unfold answerOf at h₂
  refine Precedes.append (Precedes.append ?_)
  have ha : ∀ e ∈ es₃, Accepted e := fun e he => ha e (by simp [he])
  rcases Act.way_bind_iff.1 h₂ with ⟨_, w₃, es₅, es₆, h₃, h₄, rfl⟩ | ⟨e, h₃, rfl⟩
  · have hseen := way_ensureScript h₃ hw
    rw [Session.evaluate_eq] at h₄
    obtain ⟨a, rfl, -⟩ := Session.way_single_of_connected h₄ (hseen.connected.trans hw)
    exact (precedes_cons_iff.2 (.inl ⟨q, args, hq, rfl⟩)).after hseen.not_navigates
  · cases (way_ensureScript h₃ hw).eq_ok ha

/-- So it is in all that begins with this. -/
theorem precedes_resolve_bind {kind : StepKind} {target : String} {q : Page.Resolver}
    {args : List Value} {f : Bool → Act α} (hq : q ≠ .clickTier) {r : Except Fault α}
    (h : (resolve kind target (Page.call q args) >>= f).Way w es r w')
    (hw : w.connection.connected = true) (ha : ∀ e ∈ es, Accepted e) :
    Precedes Resolves Navigates es := by
  obtain ⟨r₁, w₁, es₁, es₂, h₁, rfl⟩ := Act.exists_front_of_bind h
  exact (precedes_resolve hq h₁ hw fun e he => ha e (List.mem_append_left _ he)).append

/-! ## Steps -/

/-- A look at a page is of no concern. -/
def Aloof (_ : World) (es : List Exchange) (_ : World) : Prop :=
  ∀ e ∈ es, ¬Resolves e ∧ ¬Navigates e

theorem aloof_composes : Act.Composes Aloof where
  refl _ := by simp [Aloof]
  trans h₁ h₂ e he := by
    rcases List.mem_append.1 he with he | he
    · exact h₁ e he
    · exact h₂ e he

theorem aloof_passOver (step : Step) : Act.Keeps Aloof (passOver step) := by
  have hlook : Act.Keeps Aloof Session.screenshot := by
    unfold Session.screenshot
    rw [Session.invoke_eq]
    refine Act.Keeps.bind aloof_composes ?_ fun _ => Act.keeps_ofExcept aloof_composes
    intro w es r w' h
    rcases Session.way_single h with ⟨-, a, rfl, -⟩ | ⟨-, rfl, -⟩
    · have hnot := not_of_looks (e := (.call _ _, a)) .picture rfl
      simpa [Aloof] using hnot.2
    · simp [Aloof]
  exact (idly_of_closed (Act.closed_keeps aloof_composes) hlook).bind aloof_composes fun _ =>
    Act.keeps_ofUpdate fun w => aloof_composes.refl w

/-- What is exchanged about a step is exchanged while it is carried out, and
the step has an outcome where carrying it out comes to a value or a failure. -/
theorem way_runStep {title raw : String} {r : Except Fault Outcome}
    (h : (runStep c title raw).Way w es r w') :
    ∃ r₁ w₁, (perform c (Step.classify raw)).Way w es r₁ w₁ ∧
      r.isOk = (failureOf (r₁.map fun _ => (Step.classify raw).classification)).isOk := by
  unfold runStep at h
  obtain ⟨r₁, w₁, es₁, es₂, h₁, h₂, rfl⟩ := Act.way_attempt_bind.1 (Act.way_read_bind.1 h)
  obtain ⟨r₂, hp, rfl⟩ := Act.way_map_iff.1 h₁
  rcases Act.way_ofExcept_bind.1 h₂ with ⟨reason, hreason, h₃⟩ | ⟨e, he, rfl, rfl, -⟩
  · have h₃ := Act.way_read_bind.1 h₃
    rcases Act.way_bind_iff.1 h₃ with ⟨_, w₃, fs₁, fs₂, h₄, h₅, rfl⟩ | ⟨e, h₄, -⟩
    · obtain ⟨rfl, -⟩ := Act.way_ofUpdate_iff.1 h₄
      obtain ⟨rfl, rfl, -⟩ := Act.way_pure_iff.1 h₅
      exact ⟨r₂, w₁, by simpa using hp, by rw [hreason]; rfl⟩
    · -- announcing an outcome is no work that can fail
      obtain ⟨-, h₄⟩ := Act.way_ofUpdate_iff.1 h₄
      unfold announce at h₄
      split at h₄
      · cases h₄
      · cases h₄
  · exact ⟨r₂, w₁, by simpa using hp, by rw [he]; rfl⟩

/-- **A step leads with what its action says.** -/
theorem leads_runStep (title raw : String) :
    Act.Leads (Step.classify raw).action.lead (runStep c title raw) := by
  intro w es r w' h hw
  have hkept := ((runKept_talks c).runStep title raw h).2.1
  refine ⟨hkept.trans hw, ?_⟩
  obtain ⟨r₁, w₁, hp, hr⟩ := way_runStep h
  unfold perform at hp
  cases ha : (Step.classify raw).action with
  | navigate target =>
    rw [ha] at hp
    rcases precedes_openPage hp hw with h | ⟨rfl, e, rfl⟩
    · exact .inl h
    · exact .inr ⟨by simp, hr⟩
  | fill label value =>
    rw [ha] at hp
    exact precedes_resolve_bind (q := .typeByLabel) (by decide) hp hw
  | click caption =>
    rw [ha] at hp
    exact precedes_resolve_bind (q := .clickByText) (by decide) hp hw
  | assertVisible phrase =>
    rw [ha] at hp
    exact precedes_resolve_bind (q := .visibleTextExists) (by decide) hp hw
  | unrecognized =>
    rw [ha] at hp
    -- passing over never faults, so the suite goes on to the next step
    have hok : Ends (fun _ => True) (fun _ => False) r₁ :=
      (gives_passOver (A := fun _ => True)) hp fun _ _ => trivial
    refine ⟨aloof_passOver _ hp, ?_⟩
    cases r₁ with
    | ok _ => exact hr
    | error e => exact hok.elim

/-! ## Cases and suites -/

/-- The lead of a case is that of its steps, -/
theorem leads_runCase (case : Case) :
    Act.Leads (.first (fun raw => (Step.classify raw).action.lead) case.steps)
      (runCase c case) := by
  have hsteps := (Act.leads_each (leads_runStep (c := c) case.title) case.steps).bind
    fun os => Act.leads_pure (a := (⟨case.title, os⟩ : CaseResult))
  rw [Lead.andThen_nothing] at hsteps
  exact (Act.leads_print _).bind fun _ => hsteps

/-- **and that of a suite** is that of its cases, or the page at the root. -/
theorem leads_casesOf : Act.Leads s.lead (casesOf c s) := by
  have hcases := Act.leads_each (leads_runCase (c := c)) s.cases
  rw [← s.first_flatten] at hcases
  refine (Act.leads_print _).bind (k := s.lead) fun _ => ?_
  unfold Suite.lead
  cases hopens : opensPage s with
  | true => exact (Act.leads_pure (a := ())).bind fun _ => hcases
  | false => exact leads_openRoot.bind fun _ => hcases

/-- What is exchanged for a suite is exchanged for its cases, once its plan is
written. -/
theorem way_runSuite {r : Except Fault SuiteResult} (h : (runSuite c s).Way w es r w') :
    (es = [] ∧ (Report.writePlan s w).1.isOk = false) ∨
      ∃ w₁ r₁ w₂, w₁.connection = w.connection ∧ (casesOf c s).Way w₁ es r₁ w₂ := by
  rw [runSuite_eq] at h
  have hconn := (Report.clerical_writePlan s w).2
  rcases hplan : Report.writePlan s w with ⟨e | path, w₁⟩
  · exact .inl ⟨((Act.way_ofUpdate_bind_of_error hplan).1 h).1, rfl⟩
  · rw [hplan] at hconn
    refine .inr ⟨w₁, ?_⟩
    rcases Act.way_bind_iff.1 ((Act.way_ofUpdate_bind hplan).1 h) with
      ⟨rs, w₂, es₁, es₂, hcases, hend, rfl⟩ | ⟨e, hcases, -⟩
    · -- what follows the cases asks nothing
      obtain ⟨_, hfinish, -⟩ := Act.way_map_iff.1 hend
      obtain ⟨rfl, -⟩ := Act.way_ofUpdate_iff.1 hfinish
      exact ⟨.ok rs, w₂, hconn, by simpa using hcases⟩
    · exact ⟨_, _, hconn, hcases⟩

/-- A suite that does not ask early opens a page first. -/
theorem opened_of_not_asksEarly {r : Except Fault SuiteResult} (hs : ¬s.AsksEarly)
    (h : (runSuite c s).Way w es r w') (hw : w.connection.connected = true) : Opened es := by
  rcases way_runSuite h with ⟨rfl, -⟩ | ⟨w₁, r₁, w₂, hconn, h⟩
  · exact opened_of_not_resolves (by simp)
  · rw [← hconn] at hw
    exact (leads_casesOf h hw).2.opened fun hl => hs (Suite.lead_eq_question_iff.1 hl)

/-- **A suite that asks early** calls a resolver before it opens a page, where
its plan can be written and the page script is not refused. -/
theorem precedes_of_asksEarly {r : Except Fault SuiteResult} (hs : s.AsksEarly)
    (h : (runSuite c s).Way w es r w') (hw : w.connection.connected = true)
    (hplan : (Report.writePlan s w).1.isOk = true) (ha : ∀ e ∈ es, Accepted e) :
    Precedes Resolves Navigates es := by
  rcases way_runSuite h with ⟨-, hfails⟩ | ⟨w₁, r₁, w₂, hconn, h⟩
  · rw [hplan] at hfails
    cases hfails
  · rw [← hconn] at hw
    have hshows := (leads_casesOf h hw).2
    rw [Suite.lead_eq_question_iff.2 hs] at hshows
    exact hshows ha

/-! ## Suites, one after the other -/

/-- A suite that is carried out under a conduct, and what is exchanged for it. -/
structure Outing where
  conduct : Conduct
  suite : Suite
  exchanges : List Exchange

/-- **Suites, one after the other,** over one session, whatever comes of each. -/
inductive Outings : World → List Outing → World → Prop
  | nil (w : World) : Outings w [] w
  | cons {o : Outing} {os : List Outing} {w w₁ w' : World} {r : Except Fault SuiteResult}
    (h : (runSuite o.conduct o.suite).Way w o.exchanges r w₁) (hrest : Outings w₁ os w') :
    Outings w (o :: os) w'

theorem Outings.of_way {os : List Outing} {w₁ : World} {r : Except Fault SuiteResult}
    (h : (runSuite c s).Way w es r w₁) (hrest : Outings w₁ os w') :
    Outings w (⟨c, s, es⟩ :: os) w' := .cons h hrest

/-- They are the ways of errands of which each is a suite. -/
theorem way_errands_iff {ts : List (Conduct × Suite)} {r : Except Fault Unit} :
    (errands (ts.map fun t => (t.1, .suite t.2))).Way w es r w' ↔
      ∃ os, Outings w os w' ∧ os.map (fun o => (o.conduct, o.suite)) = ts ∧
        es = os.flatMap (·.exchanges) ∧ r = .ok () := by
  induction ts generalizing w es with
  | nil =>
    refine Act.way_pure_iff.trans ⟨?_, ?_⟩
    · rintro ⟨rfl, rfl, rfl⟩
      exact ⟨[], .nil _, rfl, rfl, rfl⟩
    · rintro ⟨os, hos, hnil, rfl, rfl⟩
      obtain rfl := List.map_eq_nil_iff.1 hnil
      cases hos
      exact ⟨rfl, rfl, rfl⟩
  | cons t rest ih =>
    refine Act.way_attempt_bind.trans ⟨?_, ?_⟩
    · rintro ⟨r₁, w₁, es₁, es₂, h₁, h₂, rfl⟩
      obtain ⟨os, hos, rfl, rfl, rfl⟩ := ih.1 h₂
      obtain ⟨r₂, hsuite, -⟩ := Act.way_map_iff.1 h₁
      exact ⟨⟨t.1, t.2, es₁⟩ :: os, .cons hsuite hos, rfl, rfl, rfl⟩
    · rintro ⟨os, hos, hts, rfl, rfl⟩
      cases hos with
      | nil => cases hts
      | @cons o os _ w₁ _ r₁ h₁ hrest =>
        cases hts
        exact ⟨_, w₁, o.exchanges, _, Act.way_map_iff.2 ⟨r₁, h₁, rfl⟩,
          ih.2 ⟨os, hrest, rfl, rfl, rfl⟩, rfl⟩

/-- Each of them is carried out over the connected session. -/
theorem Outings.exists_way {os : List Outing} {o : Outing} (h : Outings w os w')
    (hw : w.connection.connected = true) (ho : o ∈ os) :
    ∃ w₁ r w₂, w₁.connection.connected = true ∧
      (runSuite o.conduct o.suite).Way w₁ o.exchanges r w₂ := by
  induction h with
  | nil w => cases ho
  | @cons d os w w₁ w' r h hrest ih =>
    rcases List.mem_cons.1 ho with rfl | ho
    · exact ⟨w, r, w₁, hw, h⟩
    · -- no suite ends the session for those after it
      exact ih (((runKept_talks d.conduct).runSuite d.suite h).2.1.trans hw) ho

/-- An agreeing server does not refuse the page script. -/
theorem accepted_agreeing {d : Dialogue α} (h : e ∈ d.exchanges agreeing ()) : Accepted e := by
  obtain ⟨_, hanswer⟩ := Dialogue.answer_of_mem_exchanges h
  refine fun hcall => ⟨hcall, [], ?_⟩
  rw [hanswer]
  rfl

/-- **A suite opens a page of its own before it first calls a resolver,**
whatever else the session is used for before and after it, however the server
behaves, and whatever comes of the suites, just if it does not ask early. -/
theorem own_page_iff (c : Conduct) (s : Suite) :
    (∀ w os w', w.connection.connected = true → Outings w os w' →
      ∀ o ∈ os, o.conduct = c → o.suite = s → Opened o.exchanges) ↔ ¬s.AsksEarly := by
  constructor
  · intro h hs
    -- alone, in a world where its plan can be written, and with a server that agrees
    obtain ⟨name, hname, hd⟩ := Report.exists_home s.source
    obtain ⟨path, w₁, hplan, -⟩ := Report.writePlan_ready hname hd
    have hway := Act.way_run agreeing (runSuite c s) (Report.ready name) ()
    have hearly := precedes_of_asksEarly hs hway rfl (by rw [hplan]; rfl)
      fun e he => accepted_agreeing he
    generalize (runSuite c s (Report.ready name)).exchanges agreeing () = es at hway hearly
    have halone := Outings.of_way hway (.nil _)
    exact not_opened_of_precedes hearly (h _ _ _ rfl halone _ List.mem_cons_self rfl rfl)
  · intro hs w os w' hw hos o ho hc hsuite
    obtain ⟨w₁, r, w₂, hw₁, hway⟩ := hos.exists_way hw ho
    rw [← hsuite] at hs
    exact opened_of_not_asksEarly hs hway hw₁

/-- A document that opens a page. -/
def visit : Suite where
  name := "Visit"
  cases := [⟨"default", ["/a に移動"]⟩]

/-- A document that looks for something before it opens a page. -/
def latecomer : Suite where
  name := "Latecomer"
  cases := [⟨"default", ["保存 が見える", "/b に移動"]⟩]

/-- The world that a visit leaves behind. -/
def afterVisit : World := ((runSuite site visit).run agreeing atWork ()).1.2

/-- **What a visit has left open is what the latecomer looks at.** -/
theorem latecomer_unopened :
    atWork.connection.connected = true ∧
      Outings atWork
        [⟨site, visit, (runSuite site visit atWork).exchanges agreeing ()⟩,
          ⟨site, latecomer, (runSuite site latecomer afterVisit).exchanges agreeing ()⟩]
        ((runSuite site latecomer).run agreeing afterVisit ()).1.2 ∧
      ¬Opened ((runSuite site latecomer afterVisit).exchanges agreeing ()) := by
  have hvisit := Act.way_run agreeing (runSuite site visit) atWork ()
  have hlatecomer := Act.way_run agreeing (runSuite site latecomer) afterVisit ()
  have hconnected : afterVisit.connection.connected = true := by
    unfold afterVisit
    exact ((runKept_talks site).runSuite visit hvisit).2.1
  refine ⟨rfl, .of_way hvisit (.of_way hlatecomer (.nil _)), not_opened_of_precedes ?_⟩
  have hearly : latecomer.AsksEarly := Suite.lead_eq_question_iff.1 (by decide +kernel)
  have hplan : (Report.writePlan latecomer afterVisit).1.isOk = true := by decide +kernel
  exact precedes_of_asksEarly hearly hlatecomer hconnected hplan fun e he => accepted_agreeing he

end Run

end Walkthrough
