import Walkthrough.Proofs.FileTree
import Walkthrough.Proofs.Run.Suite
import Walkthrough.Proofs.Session.Primary
import Walkthrough.Proofs.Slug
/-!
# A server of few words

A server that fails at whatever it is asked but one thing, whether a page shows
text, brings out how far a run gets: every step that hangs on a call fails, no
page is kept, nothing is seen worth writing down. So between the plan of a suite
and its result the run writes nothing, and steps to a page end as the one answer
decides (`Idle`). Where the answer is no, a stray page ends the run; where it is
yes, nothing does (`idle_casesOf`).
-/

namespace Walkthrough

open Walkthrough.Json

variable {α β : Type} {b : Bool}

/-! ## The server -/

/-- What the server says of a page: that it shows text, or that it does not. -/
def Terse.reply (b : Bool) : Value :=
  .record [("content", .list []), ("structuredContent", .bool b)]

/-- Why anything else fails. -/
def Terse.silence : ServerFault := .other "ConnectionError" "no answer"

/-- What comes of a request. -/
def Terse.outcome (b : Bool) : Request → Except ServerFault Value
  | .call tool [(_, .text code)] =>
    if tool = Session.evaluateTool ∧ code = Page.expressionFunction Page.hasText then
      .ok (reply b)
    else .error silence
  | _ => .error silence

/-- How it answers. -/
def Terse.answer (b : Bool) (q : Request) : Answer := { outcome := Terse.outcome b q }

/-- **The server of few words.** -/
def Terse.server (b : Bool) : Server Unit := ⟨fun _ q => (Terse.answer b q, ())⟩

/-- The request was answered as by this server. -/
def Told (b : Bool) (e : Exchange) : Prop := e.2 = Terse.answer b e.1

theorem told_exchanges {d : Dialogue α} :
    ∀ e ∈ d.exchanges (Terse.server b) (), Told b e := by
  intro e he
  obtain ⟨_, h⟩ := Dialogue.answer_of_mem_exchanges he
  unfold Told
  rw [h]
  rfl

/-- Whatever is primary fails. -/
theorem outcome_of_isPrimary {q : Request} (h : q.isPrimary = true) :
    Terse.outcome b q = .error Terse.silence := by
  unfold Terse.outcome
  split
  · next tool name code =>
    rw [if_neg]
    rintro ⟨rfl, rfl⟩
    have hname : name = "function" := by
      simp only [Request.isPrimary, Bool.and_eq_true, decide_eq_true_eq] at h
      exact h.1.2
    subst hname
    rw [isPrimary_hasText] at h
    cases h
  · rfl

namespace Act

variable {P : α → Prop} {Q : β → Prop} {F G : Fault → Prop} {x : Act α}

/-- **What an act comes to** on a connected session with the server of few
words, if it neither disconnects it nor writes anything. -/
def Idle (b : Bool) (x : Act α) (P : α → Prop) (F : Fault → Prop) : Prop :=
  ∀ ⦃w es r w'⦄, x.Way w es r w' → w.connection.connected = true → (∀ e ∈ es, Told b e) →
    Ends P F r ∧ w'.connection.connected = true ∧ w'.files = w.files ∧ w'.desk = w.desk

theorem Idle.mono {Q : α → Prop} (h : Idle b x P F) (hP : ∀ a, P a → Q a) (hF : ∀ e, F e → G e) :
    Idle b x Q G := by
  intro w es r w' hx hc ht
  obtain ⟨hr, hw⟩ := h hx hc ht
  exact ⟨hr.mono hP hF, hw⟩

theorem idle_ofUpdate {u : Update α} (h : u.Gives P F)
    (hw : ∀ w : World, (u w).2.connection.connected = w.connection.connected ∧
      (u w).2.files = w.files ∧ (u w).2.desk = w.desk) : Idle b (ofUpdate u) P F := by
  intro w es r w' hx hc _
  obtain ⟨-, hr⟩ := way_ofUpdate_iff.1 hx
  have hends := h w
  obtain ⟨hconn, hfiles, hdesk⟩ := hw w
  rw [← hr] at hends hconn hfiles hdesk
  exact ⟨hends, hconn.trans hc, hfiles, hdesk⟩

theorem idle_pure {a : α} (h : P a) : Idle b (Pure.pure a) P F :=
  idle_ofUpdate (u := Pure.pure a) (Update.gives_pure h) fun _ => ⟨rfl, rfl, rfl⟩

theorem idle_fail {e : Fault} (h : F e) : Idle b (fail e : Act α) P F :=
  idle_ofUpdate (u := .fail e) (fun _ => h) fun _ => ⟨rfl, rfl, rfl⟩

theorem idle_read {f : World → α} (h : ∀ w, P (f w)) : Idle b (read f) P F :=
  idle_ofUpdate (Update.gives_read h) fun _ => ⟨rfl, rfl, rfl⟩

theorem idle_log {P : Unit → Prop} {l : LogEntry} (h : P ()) : Idle b (log l) P F :=
  idle_ofUpdate (Update.gives_log h) fun _ => ⟨rfl, rfl, rfl⟩

theorem idle_print {P : Unit → Prop} {n : Notice} (h : P ()) : Idle b (print n) P F :=
  idle_ofUpdate (Update.gives_print h) fun _ => ⟨rfl, rfl, rfl⟩

theorem idle_ofExcept {ε : Type} {toFault : ε → Fault} {r : Except ε α}
    (h : Ends P F (r.mapError toFault)) : Idle b (ofExcept toFault r) P F := by
  cases r with
  | ok a => exact idle_pure h
  | error e => exact idle_fail h

theorem Idle.bind {f : α → Act β} (hx : Idle b x P F) (hf : ∀ a, P a → Idle b (f a) Q F) :
    Idle b (x >>= f) Q F := by
  intro w es r w' h hc ht
  rcases way_bind_iff.1 h with ⟨a, w₁, es₁, es₂, h₁, h₂, rfl⟩ | ⟨e, h₁, rfl⟩
  · obtain ⟨ha, hc₁, hfiles, hdesk⟩ := hx h₁ hc fun e he => ht e (List.mem_append_left _ he)
    obtain ⟨hr, hc₂, hfiles₂, hdesk₂⟩ :=
      hf a ha h₂ hc₁ fun e he => ht e (List.mem_append_right _ he)
    exact ⟨hr, hc₂, hfiles₂.trans hfiles, hdesk₂.trans hdesk⟩
  · exact hx h₁ hc ht

theorem Idle.attempt (h : Idle b x P F) : Idle b (attempt x) (Ends P F) G := by
  intro w es r w' hx hc ht
  obtain ⟨r₁, h₁, rfl⟩ := way_attempt_iff.1 hx
  exact h h₁ hc ht

/-- Where an act may fault, its stand-in is a value to expect. -/
theorem Idle.bestEffort {Q : α → Prop} {default : α} (h : Idle b x P F) (hP : ∀ a, P a → Q a)
    (hF : ∀ e, F e → Q default) : Idle b (bestEffort default x) Q G := by
  intro w es r w' hx hc ht
  obtain ⟨r₁, h₁, rfl⟩ := way_bestEffort_iff.1 hx
  obtain ⟨hr, hw⟩ := h h₁ hc ht
  refine ⟨?_, hw⟩
  cases r₁ with
  | ok a => exact hP a hr
  | error e => exact hF e hr

end Act

namespace Session

variable {F : Fault → Prop} {tool : String} {args : Arguments}

/-- A call comes to what the answer is read as. -/
theorem idle_single {P : α → Prop} {read : Answer → Except Fault α}
    (h : Ends P F (read (Terse.answer b (.call tool args)))) :
    Act.Idle b (single tool args read) P F := by
  intro w es r w' hx hc ht
  obtain ⟨a, rfl, rfl, rfl⟩ := way_single_of_connected hx hc
  have ha : a = Terse.answer b (.call tool args) := ht _ List.mem_cons_self
  rw [ha]
  exact ⟨h, hc, rfl, rfl⟩

/-- A call that is not answered fails for its tool. -/
theorem idle_invoke (h : Terse.outcome b (.call tool args) = .error Terse.silence) :
    Act.Idle b (invoke tool args) (fun _ => False) IsTool := by
  rw [invoke_eq]
  refine idle_single ?_
  show Ends _ _ (readItems tool (Terse.outcome b _))
  rw [h]
  show IsTool (asToolFault tool (.ofServer Terse.silence))
  exact isTool_asToolFault ..

theorem idle_evaluate {expression : String}
    (h : Terse.outcome b (.call evaluateTool
      [("function", .text (Page.expressionFunction expression))]) = .error Terse.silence) :
    Act.Idle b (evaluate expression) (fun _ => False) IsTool := by
  rw [evaluate_eq]
  refine idle_single ?_
  unfold readValue Terse.answer
  rw [h]
  show IsTool (asToolFault evaluateTool (.ofServer Terse.silence))
  exact isTool_asToolFault ..

/-- The one question that is answered. -/
theorem idle_evaluate_hasText :
    Act.Idle b (evaluate Page.hasText) (· = .bool b) F := by
  rw [evaluate_eq]
  refine idle_single ?_
  unfold Terse.answer
  simp only [Terse.outcome, and_self, if_true]
  rfl

theorem outcome_of_ne (h : tool ≠ evaluateTool) :
    Terse.outcome b (.call tool args) = .error Terse.silence := by
  unfold Terse.outcome
  split
  · next heq =>
    cases heq
    rw [if_neg fun hc => h hc.1]
  · rfl

theorem idle_changeConnection {f : Connection → Connection} {P : Unit → Prop} (hP : P ())
    (h : ∀ c, (f c).connected = c.connected) : Act.Idle b (changeConnection f) P F :=
  Act.idle_ofUpdate (Update.gives_change hP) fun w => ⟨h w.connection, rfl, rfl⟩

theorem idle_ensureScript : Act.Idle b ensureScript (fun _ => True) IsTool := by
  refine (Act.idle_read (P := fun _ => True) fun _ => trivial).bind fun c _ => ?_
  split
  · exact Act.idle_pure trivial
  · have hinvoke := idle_invoke (outcome_of_isPrimary (b := b) isPrimary_script)
    exact (hinvoke.bind (Q := fun _ => True) fun _ h => h.elim).bind fun _ _ =>
      idle_changeConnection trivial fun _ => rfl

end Session

namespace Run

variable {c : Conduct} {s : Suite} {F : Fault → Prop}

/-! ## Opening a page -/

theorem idle_idly {P : α → Prop} {G : Fault → Prop} {x : Act α} (h : Act.Idle b x P G) :
    Act.Idle b (idly x) (fun _ => True) F := by
  have hmap : Act.Idle b (Functor.map (fun _ => ()) x) (fun _ => True) G :=
    h.bind fun _ _ => Act.idle_pure trivial
  exact hmap.bestEffort (fun _ _ => trivial) fun _ _ => trivial

theorem idle_invoke {tool : String} {args : Arguments} (h : tool ≠ Session.evaluateTool) :
    Act.Idle b (idly (Session.invoke tool args)) (fun _ => True) F :=
  idle_idly (Session.idle_invoke (Session.outcome_of_ne h))

theorem idle_goTo {url : String} {timeout : Int} :
    Act.Idle b (goTo url timeout) (fun _ => True) F := by
  have hnavigate : Act.Idle b (Session.navigate url) (fun _ => False) Session.IsTool := by
    unfold Session.navigate Session.forgetScript
    refine Act.Idle.bind (P := fun _ => True) (Session.idle_changeConnection trivial ?_) ?_
    · exact fun _ => rfl
    · exact fun _ _ => Session.idle_invoke (Session.outcome_of_ne (by decide))
  exact (idle_idly hnavigate).bind fun _ _ => idle_invoke (by decide)

theorem idle_screenshot : Act.Idle b (idly Session.screenshot) (fun _ => True) F := by
  have h : Act.Idle b Session.screenshot (fun _ => False) Session.IsTool :=
    (Session.idle_invoke (Session.outcome_of_ne (by decide))).bind fun _ h => h.elim
  exact idle_idly h

/-- No page is kept, for its markup is not told. -/
theorem idle_keepOpenedPage : Act.Idle b keepOpenedPage (fun _ => True) F := by
  have houtcome : Terse.outcome b (.call Session.evaluateTool
      [("function", .text (Page.expressionFunction Page.markup))]) = .error Terse.silence := by
    rw [Terse.outcome, if_neg (by decide +kernel)]
  have hmarkup : Act.Idle b Session.pageMarkup (fun _ => False) Session.IsTool :=
    (Session.idle_evaluate houtcome).bind fun _ h => h.elim
  unfold keepOpenedPage
  refine (hmarkup.bestEffort (Q := (· = none)) (fun _ h => h.elim) fun _ _ => rfl).bind ?_
  rintro _ rfl
  exact Act.idle_pure trivial

theorem idle_attend {P : Unit → Prop} (hP : P ()) : Act.Idle b (attend c) P F := by
  refine (idle_invoke (by decide)).bind fun _ _ => idle_screenshot.bind fun _ _ => ?_
  split
  · exact idle_keepOpenedPage.mono (fun _ _ => hP) fun _ he => he
  · exact Act.idle_pure hP

/-- **A page is opened** for good where it shows text, or can be split. -/
theorem idle_openAt {url : String} :
    Act.Idle b (openAt c url) (fun _ => b = true ∨ Url.Splits url)
      (fun e => b = false ∧ ∃ u, Url.split url.toList = .error u ∧ e = .url u) := by
  unfold openAt
  refine idle_goTo.bind fun _ _ => ?_
  refine ((Session.idle_evaluate_hasText (F := fun _ => False)).bestEffort (fun _ h => h)
    fun _ h => h.elim).bind ?_
  rintro _ rfl
  cases b with
  | true => exact idle_attend (.inl rfl)
  | false =>
    -- only now is the page split again
    have htry : Act.Idle false (tryAlternative url) (fun _ => Url.Splits url)
        (fun e => ∃ u, Url.split url.toList = .error u ∧ e = .url u) := by
      refine Act.Idle.bind (P := fun _ => Url.Splits url) (Act.idle_ofExcept ?_) ?_
      · cases ha : Url.alternative? url with
        | error u => exact ⟨u, Url.alternative?_eq_error_iff.1 ha, rfl⟩
        | ok _ =>
          cases hs : Url.split url.toList with
          | ok p => exact ⟨p, hs⟩
          | error u =>
            rw [Url.alternative?_eq_error_iff.2 hs] at ha
            cases ha
      · intro alternative hsplits
        cases alternative with
        | none => exact Act.idle_pure hsplits
        | some alternative =>
          refine (Act.idle_log (P := fun _ => True) trivial).bind fun _ _ => ?_
          exact idle_goTo.mono (fun _ _ => hsplits) fun _ he => he
    refine (htry.mono (fun _ h => h) fun e he => ⟨rfl, he⟩).bind fun _ hu => idle_attend (.inr hu)

/-! ## Steps -/

/-- A step that hangs on a call fails. -/
theorem idle_resolve {r : Page.Resolver} (hr : r ≠ .clickTier) {kind : StepKind}
    {target : String} {args : List Value} :
    Act.Idle b (resolve kind target (Page.call r args)) (fun _ => False) IsStep := by
  have hanswer : Act.Idle b (answerOf (Page.call r args)) (fun _ => False) Session.IsTool :=
    Session.idle_ensureScript.bind fun _ _ =>
      Session.idle_evaluate (outcome_of_isPrimary (isPrimary_call hr args))
  have hresolver : Act.Idle b (resolverAnswer (Page.call r args)) (fun _ => False) Session.IsTool :=
    hanswer.bind fun _ h => h.elim
  refine hresolver.attempt.bind fun r₁ h => ?_
  rcases r₁ with e | answer
  · cases e with
    | tool t m => exact Act.idle_fail trivial
    | _ => exact h.elim
  · exact h.elim

/-- The step is no step to a stray page, or the page shows text. -/
def Passes (b : Bool) (c : Conduct) (action : Action) : Prop :=
  ∀ target, action = .navigate target → b = true ∨ ∀ e, ¬Stray c target e

/-- The step is one to a stray page that shows nothing, and this is its fault. -/
def Blocks (b : Bool) (c : Conduct) (action : Action) (e : Fault) : Prop :=
  b = false ∧ ∃ target u, action = .navigate target ∧ Stray c target u ∧ e = .url u

theorem idle_openPage {target : String} (hb : Url.Splits c.baseUrl) (ht : Url.Splits target) :
    Act.Idle b (openPage c target) (fun _ => b = true ∨ ∀ e, ¬Stray c target e)
      (fun e => b = false ∧ ∃ u, Stray c target u ∧ e = .url u) := by
  obtain ⟨url, hurl⟩ := Url.exists_page hb ht
  rw [openPage_eq, hurl]
  refine Act.Idle.bind (P := (· = url)) (Act.idle_ofExcept rfl) ?_
  rintro _ rfl
  refine idle_openAt.mono (fun _ h => ?_) fun e he => ?_
  · rcases h with h | ⟨p, hp⟩
    · exact .inl h
    · refine .inr fun u hu => ?_
      obtain ⟨url', hurl', hu⟩ := hu
      rw [hurl] at hurl'
      cases hurl'
      rw [hp] at hu
      cases hu
  · obtain ⟨hb', u, hu, rfl⟩ := he
    exact ⟨hb', u, ⟨_, hurl, hu⟩, rfl⟩

/-- **A step fails,** or it is one to a page. -/
theorem idle_perform {step : Step} (hb : Url.Splits c.baseUrl)
    (ht : ∀ target, step.action = .navigate target → Url.Splits target) :
    Act.Idle b (perform c step) (fun _ => Passes b c step.action)
      (fun e => (IsStep e ∧ Passes b c step.action) ∨ Blocks b c step.action e) := by
  have hpasses : ∀ {action : Action}, (∀ target, action ≠ .navigate target) →
      Passes b c action := fun h target ha => absurd ha (h target)
  unfold perform
  cases ha : step.action with
  | navigate target =>
    refine (idle_openPage hb (ht target ha)).mono (fun _ h => ?_) fun e he => .inr ?_
    · rintro _ ⟨⟩
      exact h
    · obtain ⟨hb', u, hu, rfl⟩ := he
      exact ⟨hb', target, u, rfl, hu, rfl⟩
  | fill label value =>
    have h : Act.Idle b (fillField c step label value) (fun _ => False) IsStep :=
      (idle_resolve (r := .typeByLabel) (by decide)).bind fun _ h => h.elim
    exact h.mono (fun _ h => h.elim) fun e he => .inl ⟨he, hpasses (by simp)⟩
  | click caption =>
    have h : Act.Idle b (clickControl c step caption) (fun _ => False) IsStep :=
      (idle_resolve (r := .clickByText) (by decide)).bind fun _ h => h.elim
    exact h.mono (fun _ h => h.elim) fun e he => .inl ⟨he, hpasses (by simp)⟩
  | assertVisible phrase =>
    have h : Act.Idle b (lookFor phrase) (fun _ => False) IsStep :=
      (idle_resolve (r := .visibleTextExists) (by decide)).bind fun _ h => h.elim
    exact h.mono (fun _ h => h.elim) fun e he => .inl ⟨he, hpasses (by simp)⟩
  | unrecognized =>
    exact (idle_screenshot.bind fun _ _ => Act.idle_log trivial).mono
      (fun _ (_ : True) => hpasses (by simp)) fun _ he => he

/-- **A step has an outcome,** unless it blocks the run. -/
theorem idle_runStep {title raw : String} (hb : Url.Splits c.baseUrl)
    (ht : ∀ target, (Step.classify raw).action = .navigate target → Url.Splits target) :
    Act.Idle b (runStep c title raw) (fun _ => Passes b c (Step.classify raw).action)
      (Blocks b c (Step.classify raw).action) := by
  have hexecute : Act.Idle b (execute c raw) (fun _ => Passes b c (Step.classify raw).action) _ :=
    (idle_perform hb ht).bind fun _ h => Act.idle_pure h
  unfold runStep
  refine (Act.idle_read (P := fun _ => True) fun _ => trivial).bind fun start _ => ?_
  refine hexecute.attempt.bind fun r hr => ?_
  refine Act.Idle.bind (P := fun _ => Passes b c (Step.classify raw).action)
    (Act.idle_ofExcept ?_) fun reason hpass => ?_
  · -- the failure of a step becomes its reason, the fault of a page does not
    rcases r with e | k
    · cases e with
      | step f =>
        rcases hr with ⟨-, h⟩ | ⟨_, _, _, _, _, h⟩
        · exact h
        · cases h
      | _ =>
        rcases hr with ⟨h, -⟩ | h
        · exact h.elim
        · exact h
    · exact hr
  · refine (Act.idle_read (P := fun _ => True) fun _ => trivial).bind fun stop _ => ?_
    refine Act.Idle.bind (P := fun _ => True) ?_ fun _ _ => Act.idle_pure hpass
    unfold announce
    split
    · exact Act.idle_print trivial
    · exact Act.idle_print trivial

/-! ## Suites -/

theorem idle_each {f : α → Act β} {as : List α} {Q : α → Prop}
    (h : ∀ a ∈ as, Act.Idle b (f a) (fun _ => Q a) F) :
    Act.Idle b (each f as) (fun _ => ∀ a ∈ as, Q a) F := by
  induction as with
  | nil => exact Act.idle_pure fun _ ha => nomatch ha
  | cons a rest ih =>
    refine (h a List.mem_cons_self).bind fun _ ha => ?_
    refine (ih fun d hd => h d (List.mem_cons_of_mem _ hd)).bind fun _ hrest => ?_
    refine Act.idle_pure fun d hd => ?_
    rcases List.mem_cons.1 hd with rfl | hd
    · exact ha
    · exact hrest d hd

theorem idle_openRoot (hb : Url.Splits c.baseUrl) :
    Act.Idle b (openRoot c) (fun _ => True) F := by
  have hroot : Url.Splits "/" := ⟨_, rfl⟩
  obtain ⟨url, hurl⟩ := Url.exists_page hb hroot
  refine (Act.idle_log (P := fun _ => True) trivial).bind fun _ _ => ?_
  refine Act.Idle.bind (P := fun _ => True) (Act.idle_ofExcept ?_) fun _ _ => idle_goTo
  rw [hurl]
  trivial

/-- A stray page of the suite shows nothing, and this is its fault. -/
def BlocksSuite (b : Bool) (c : Conduct) (s : Suite) (e : Fault) : Prop :=
  b = false ∧ ∃ target u, s.Targets target ∧ Stray c target u ∧ e = .url u

theorem idle_runCase (hb : Url.Splits c.baseUrl)
    (ht : ∀ target, s.Targets target → Url.Splits target) {case : Case} (hcase : case ∈ s.cases) :
    Act.Idle b (runCase c case)
      (fun _ => ∀ raw ∈ case.steps, Passes b c (Step.classify raw).action)
      (BlocksSuite b c s) := by
  refine (Act.idle_print (P := fun _ => True) trivial).bind fun _ _ => ?_
  refine (idle_each fun raw hraw => ?_).bind fun _ h => Act.idle_pure h
  have htargets : ∀ target, (Step.classify raw).action = .navigate target →
      s.Targets target := fun target ha => ⟨_, mem_flatten hcase hraw, ha⟩
  refine (idle_runStep hb fun target ha => ht target (htargets target ha)).mono (fun _ h => h) ?_
  rintro e ⟨hb', target, u, ha, hu, rfl⟩
  exact ⟨hb', target, u, htargets target ha, hu, rfl⟩

/-- **The cases of a suite** are carried out to the end, unless a stray page that
shows nothing blocks them. -/
theorem idle_casesOf (hb : Url.Splits c.baseUrl)
    (ht : ∀ target, s.Targets target → Url.Splits target) :
    Act.Idle b (casesOf c s)
      (fun _ => b = true ∨ NoStray c s)
      (BlocksSuite b c s) := by
  have hcases : Act.Idle b (each (runCase c) s.cases)
      (fun _ => b = true ∨ NoStray c s)
      (BlocksSuite b c s) := by
    refine (idle_each fun case hcase => idle_runCase hb ht hcase).mono (fun _ h => ?_)
      fun _ he => he
    cases b with
    | true => exact .inl rfl
    | false =>
      refine .inr fun target e ⟨f, hf, ha⟩ hstray => ?_
      obtain ⟨case, hcase, hf⟩ := List.mem_flatMap.1 hf
      obtain ⟨raw, hraw, rfl⟩ := List.mem_map.1 hf
      rcases h case hcase raw hraw target ha with h | h
      · cases h
      · exact h e hstray
  refine (Act.idle_print (P := fun _ => True) trivial).bind fun _ _ => ?_
  split
  · exact (idle_openRoot hb).bind fun _ _ => hcases
  · exact hcases

end Run

end Walkthrough
