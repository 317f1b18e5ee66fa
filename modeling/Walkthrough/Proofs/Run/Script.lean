import Walkthrough.Proofs.Run.Kept
import Walkthrough.Proofs.Run.Navigate
import Walkthrough.Proofs.Session.Primary
/-!
# When the page script is installed

A session remembers whether the page has the script, and only what was asked
and answered can tell whether it is right. `Guarded` says of exchanges that it
is: a resolver is called only where the script stands, installed with success
and with no page opened since, and the script is installed again only after
something that may have taken it away. The invariant behind it, `Watched`,
ties the memory to the exchanges so far, one lemma for each kind of exchange;
`StepKept` carries it through a step, and so through whatever is done with a
session (`script_guarded`).
-/

namespace Walkthrough

open Walkthrough.Json

variable {es hs : List Exchange} {e : Exchange} {ready : Bool}

/-! ## Exchanges about the page script -/

/-- The page script was installed with success. -/
def Installs (e : Exchange) : Prop :=
  e.1 = installation ∧ ∃ items, Session.readItems Session.evaluateTool e.2.outcome = .ok items

/-- A page was to be opened. -/
def Navigates (e : Exchange) : Prop := ∃ args, e.1 = .call Session.navigateTool args

/-- A control was pressed: the answer of the resolver was accepted. -/
def Presses (e : Exchange) : Prop :=
  ∃ args v, e.1 = resolverCall .clickByText args ∧ Session.readValue e.2 = .ok v ∧
    Run.accepts v = true

/-- A resolver answered that the page lacks the script. -/
def Misses (e : Exchange) : Prop :=
  Resolves e ∧ ∃ v, Session.readValue e.2 = .ok v ∧ Run.lacksScript v = true

/-- What may have taken the script away: a page was opened, a control was
pressed, or a resolver missed it. -/
def Renews (e : Exchange) : Prop := Navigates e ∨ Presses e ∨ Misses e

/-- The script stands: it was installed, and no page has been opened since. -/
def Standing (es : List Exchange) : Prop :=
  ∃ front i back, es = front ++ i :: back ∧ Installs i ∧ ∀ e ∈ back, ¬Navigates e

/-- Every installation has lapsed: something has come after it that may have
taken the script away. -/
def Lapsed (es : List Exchange) : Prop :=
  ∀ front i back, es = front ++ i :: back → Installs i → ∃ e ∈ back, Renews e

/-- **The script is installed where it is needed, and only there.** Whenever a
resolver is called the script stands, and whenever the script is installed all
installations before have lapsed. -/
structure Guarded (es : List Exchange) : Prop where
  standing : ∀ front e back, es = front ++ e :: back → Resolves e → Standing front
  lapsed : ∀ front j back, es = front ++ j :: back → Installs j → Lapsed front

/-! ## The kinds differ -/

/-- A function of an expression is none of statements. -/
theorem statementCall_ne_resolverCall (code : String) (r : Page.Resolver) (args : List Value) :
    statementCall code ≠ resolverCall r args := by
  intro h
  have htext : Page.statementFunction code = Page.expressionFunction (Page.call r args) := by
    unfold statementCall resolverCall at h
    simpa using h
  have hchars := congrArg (fun s => s.toList.take 7) htext
  simp [Page.statementFunction, Page.expressionFunction] at hchars

theorem not_resolves_of_installation (h : e.1 = installation) : ¬Resolves e := by
  rintro ⟨r, args, -, hr⟩
  exact statementCall_ne_resolverCall Page.script r args (h.symm.trans hr)

theorem Resolves.not_installs (h : Resolves e) : ¬Installs e :=
  fun hi => not_resolves_of_installation hi.1 h

theorem not_navigates_of_evaluate {args : Arguments}
    (h : e.1 = .call Session.evaluateTool args) : ¬Navigates e := by
  rintro ⟨_, hn⟩
  have htool : Session.evaluateTool = Session.navigateTool := by
    rw [h] at hn
    exact (Request.call.inj hn).1
  revert htool
  decide

theorem Resolves.not_navigates (h : Resolves e) : ¬Navigates e := by
  obtain ⟨r, args, -, hr⟩ := h
  exact not_navigates_of_evaluate hr

theorem not_navigates_of_installation (h : e.1 = installation) : ¬Navigates e := by
  rw [installation, statementCall] at h
  exact not_navigates_of_evaluate h

theorem Installs.not_navigates (h : Installs e) : ¬Navigates e :=
  not_navigates_of_installation h.1

/-- A look at a page is nothing of the kind. -/
theorem not_of_looks {tool : String} {args : Arguments} (h : Run.Looks tool args)
    (he : e.1 = .call tool args) : ¬Installs e ∧ ¬Resolves e ∧ ¬Navigates e := by
  have hprimary : e.1.isPrimary = false := by
    rw [he]
    cases h with
    | wait state timeout => exact isPrimary_of_ne (by decide)
    | picture => exact isPrimary_of_ne (by decide)
    | hasText => exact isPrimary_hasText
    | markup => exact isPrimary_markup
  have hinstalls : ¬Installs e := by
    rintro ⟨hi, -⟩
    rw [hi, installation, statementCall, isPrimary_script] at hprimary
    cases hprimary
  have hresolves : ¬Resolves e := by
    intro hr
    rw [hr.isPrimary] at hprimary
    cases hprimary
  refine ⟨hinstalls, hresolves, ?_⟩
  rintro ⟨_, hn⟩
  have htool : tool = Session.navigateTool := by
    rw [he] at hn
    exact (Request.call.inj hn).1
  revert htool
  cases h <;> decide

/-! ## One exchange more -/

theorem Standing.snoc (h : Standing es) (hn : ¬Navigates e) : Standing (es ++ [e]) := by
  obtain ⟨front, i, back, rfl, hi, hback⟩ := h
  refine ⟨front, i, back ++ [e], by simp, hi, fun d hd => ?_⟩
  rcases List.mem_append.1 hd with hd | hd
  · exact hback d hd
  · rw [List.mem_singleton.1 hd]
    exact hn

theorem standing_of_installs (h : Installs e) : Standing (es ++ [e]) :=
  ⟨es, e, [], rfl, h, fun _ hd => nomatch hd⟩

theorem Lapsed.snoc (h : Lapsed es) (hi : ¬Installs e) : Lapsed (es ++ [e]) := by
  intro front i back heq hinst
  rcases eq_or_of_snoc heq with ⟨-, rfl, -⟩ | ⟨mid, rfl, rfl⟩
  · exact absurd hinst hi
  · obtain ⟨d, hd, hrenews⟩ := h front i mid rfl hinst
    exact ⟨d, List.mem_append_left _ hd, hrenews⟩

theorem lapsed_of_renews (h : Renews e) (hi : ¬Installs e) : Lapsed (es ++ [e]) := by
  intro front i back heq hinst
  rcases eq_or_of_snoc heq with ⟨-, rfl, -⟩ | ⟨mid, rfl, -⟩
  · exact absurd hinst hi
  · exact ⟨e, by simp, h⟩

theorem guarded_nil : Guarded [] := ⟨by simp, by simp⟩

theorem Guarded.snoc (h : Guarded es) (hr : Resolves e → Standing es)
    (hi : Installs e → Lapsed es) : Guarded (es ++ [e]) where
  standing front d back heq hd := by
    rcases eq_or_of_snoc heq with ⟨rfl, rfl, -⟩ | ⟨mid, -, hmid⟩
    · exact hr hd
    · exact h.standing front d mid hmid hd
  lapsed front j back heq hj := by
    rcases eq_or_of_snoc heq with ⟨rfl, rfl, -⟩ | ⟨mid, -, hmid⟩
    · exact hi hj
    · exact h.lapsed front j mid hmid hj

/-! ## The memory of the session -/

/-- **What a session remembers is right:** if it takes the script to be there
the script stands, and if not every installation has lapsed. -/
structure Watched (es : List Exchange) (ready : Bool) : Prop where
  guarded : Guarded es
  standing : ready = true → Standing es
  lapsed : ready = false → Lapsed es

namespace Watched

/-- Nothing is remembered, and nothing was installed. -/
theorem start : Watched [] false := by
  refine ⟨guarded_nil, nofun, fun _ front i back heq => ?_⟩
  simp at heq

theorem quiet (h : Watched es ready) (hi : ¬Installs e) (hr : ¬Resolves e) (hn : ¬Navigates e) :
    Watched (es ++ [e]) ready where
  guarded := h.guarded.snoc (fun he => absurd he hr) fun he => absurd he hi
  standing hready := (h.standing hready).snoc hn
  lapsed hready := (h.lapsed hready).snoc hi

theorem navigated (h : Watched es ready) (hn : Navigates e) : Watched (es ++ [e]) false where
  guarded := h.guarded.snoc (fun he => absurd hn he.not_navigates)
    fun he => absurd hn he.not_navigates
  standing hready := nomatch hready
  lapsed _ := lapsed_of_renews (.inl hn) fun he => he.not_navigates hn

theorem installed (h : Watched es false) (hi : Installs e) : Watched (es ++ [e]) true where
  guarded := h.guarded.snoc (fun he => absurd hi he.not_installs) fun _ => h.lapsed rfl
  standing _ := standing_of_installs hi
  lapsed hready := nomatch hready

theorem resolved (h : Watched es true) (hr : Resolves e) : Watched (es ++ [e]) true where
  guarded := h.guarded.snoc (fun _ => h.standing rfl) fun he => absurd he hr.not_installs
  standing _ := (h.standing rfl).snoc hr.not_navigates
  lapsed hready := nomatch hready

/-- What may have taken the script away lets the session forget it. -/
theorem forgotten (h : Watched (es ++ [e]) ready) (hr : Renews e) (hi : ¬Installs e) :
    Watched (es ++ [e]) false where
  guarded := h.guarded
  standing hready := nomatch hready
  lapsed _ := lapsed_of_renews hr hi

end Watched

/-- An act on a connected session whose memory is right leaves it so. -/
def Watching (w : World) (es : List Exchange) (w' : World) : Prop :=
  ∀ hs, w.connection.connected = true → Watched hs w.connection.scriptReady →
    w'.connection.connected = true ∧ Watched (hs ++ es) w'.connection.scriptReady

theorem watching_composes : Act.Composes Watching where
  refl w hs hc hw := by
    rw [List.append_nil]
    exact ⟨hc, hw⟩
  trans {w w₁ w₂ es fs} h₁ h₂ hs hc hw := by
    obtain ⟨hc₁, hw₁⟩ := h₁ hs hc hw
    rw [← List.append_assoc]
    exact h₂ _ hc₁ hw₁

theorem watching_of_eq {w w' : World} (h : w'.connection = w.connection) : Watching w [] w' := by
  intro hs hc hw
  rw [h, List.append_nil]
  exact ⟨hc, hw⟩

theorem watching_clerical {α : Type} {u : Update α} (h : u.Clerical) :
    Act.Keeps Watching (Act.ofUpdate u) :=
  Act.keeps_ofUpdate fun w => watching_of_eq (h w).2

namespace Run

variable {w w' : World} {r : Page.Resolver} {args : List Value}

/-! ## Looks and pages -/

theorem watching_look {α : Type} {tool : String} {args : Arguments} (h : Looks tool args)
    (read : Answer → Except Fault α) :
    Act.Keeps Watching (Session.single tool args read) := by
  intro w es res w' hx hs hc hw
  obtain ⟨a, rfl, -, rfl⟩ := Session.way_single_of_connected hx hc
  obtain ⟨hi, hr, hn⟩ := not_of_looks (e := (.call tool args, a)) h rfl
  exact ⟨hc, hw.quiet hi hr hn⟩

/-- Going to a page forgets the script, and the page is called for right after. -/
theorem watching_navigate (url : String) : Act.Keeps Watching (Session.navigate url) := by
  intro w es res w' hx hs hc hw
  have hx := Act.way_change_bind.1 hx
  rw [Session.invoke_eq] at hx
  obtain ⟨a, rfl, -, rfl⟩ := Session.way_single_of_connected hx hc
  exact ⟨hc, hw.navigated ⟨_, rfl⟩⟩

/-! ## Resolvers -/

/-- All that statements in a page can come to: one call, and what its answer is
read as. -/
theorem way_evaluateStatement {code : String} {res : Except Fault Unit}
    (hx : (Session.evaluateStatement code).Way w es res w')
    (hc : w.connection.connected = true) :
    ∃ a, es = [(statementCall code, a)] ∧ w'.connection = w.connection ∧
      res = (Session.readItems Session.evaluateTool a.outcome).map fun _ => () := by
  unfold Session.evaluateStatement at hx
  rw [Session.invoke_eq] at hx
  obtain ⟨r₁, h₁, rfl⟩ := Act.way_map_iff.1 hx
  obtain ⟨a, rfl, rfl, rfl⟩ := Session.way_single_of_connected h₁ hc
  exact ⟨a, rfl, rfl, rfl⟩

/-- **All that seeing to the script can come to.** It is known to be there, or is
installed and remembered, or the installation fails. -/
inductive Ensured (w w' : World) : List Exchange → Except Fault Unit → Prop
  | known (hready : w.connection.scriptReady = true) (hw : w' = w) : Ensured w w' [] (.ok ())
  | installed {a : Answer} {items : List Value} (hready : w.connection.scriptReady = false)
      (hitems : Session.readItems Session.evaluateTool a.outcome = .ok items)
      (hconn : w'.connection = { w.connection with scriptReady := true }) :
      Ensured w w' [(installation, a)] (.ok ())
  | failed {a : Answer} {f : Fault} (hready : w.connection.scriptReady = false)
      (hitems : Session.readItems Session.evaluateTool a.outcome = .error f)
      (hconn : w'.connection = w.connection) : Ensured w w' [(installation, a)] (.error f)

theorem way_ensureScript {res : Except Fault Unit} (hx : Session.ensureScript.Way w es res w')
    (hc : w.connection.connected = true) : Ensured w w' es res := by
  unfold Session.ensureScript at hx
  rw [Act.way_read_bind] at hx
  split at hx
  case isTrue hready =>
    obtain ⟨rfl, rfl, rfl⟩ := Act.way_pure_iff.1 hx
    exact .known hready rfl
  case isFalse hready =>
    have hready : w.connection.scriptReady = false := by simpa using hready
    rcases Act.way_bind_iff.1 hx with ⟨_, w₁, es₁, es₂, h₁, h₂, rfl⟩ | ⟨f, h₁, rfl⟩
    · obtain ⟨a, rfl, hconn, hres⟩ := way_evaluateStatement h₁ hc
      obtain ⟨rfl, h₂⟩ := Act.way_ofUpdate_iff.1 h₂
      cases h₂
      cases hitems : Session.readItems Session.evaluateTool a.outcome with
      | ok items => exact .installed hready hitems (by rw [← hconn])
      | error f =>
        rw [hitems] at hres
        cases hres
    · obtain ⟨a, rfl, hconn, hres⟩ := way_evaluateStatement h₁ hc
      cases hitems : Session.readItems Session.evaluateTool a.outcome with
      | ok items =>
        rw [hitems] at hres
        cases hres
      | error g =>
        rw [hitems] at hres
        cases hres
        exact .failed hready hitems hconn

theorem Ensured.connected {res : Except Fault Unit} (h : Ensured w w' es res) :
    w'.connection.connected = w.connection.connected := by
  cases h with
  | known _ hw => rw [hw]
  | installed _ _ hconn => rw [hconn]
  | failed _ _ hconn => rw [hconn]

/-- **After the script has been seen to,** the session remembers it, or the
installation has failed. -/
theorem watched_ensureScript {res : Except Fault Unit}
    (hx : Session.ensureScript.Way w es res w') (hc : w.connection.connected = true)
    (hw : Watched hs w.connection.scriptReady) :
    w'.connection.connected = true ∧ Watched (hs ++ es) w'.connection.scriptReady ∧
      (res = .ok () → w'.connection.scriptReady = true) := by
  have hseen := way_ensureScript hx hc
  refine ⟨hseen.connected.trans hc, ?_⟩
  cases hseen with
  | known hready hw' =>
    rw [hw', List.append_nil]
    exact ⟨hw, fun _ => hready⟩
  | installed hready hitems hconn =>
    -- the answer was read: the session remembers
    rw [hready] at hw
    rw [hconn]
    exact ⟨hw.installed ⟨rfl, _, hitems⟩, fun _ => rfl⟩
  | @failed a f hready hitems hconn =>
    have hinstalls : ¬Installs (installation, a) := by
      rintro ⟨-, items, hread⟩
      cases hitems.symm.trans hread
    have hcall : (installation, a).1 = installation := rfl
    rw [hconn]
    exact ⟨hw.quiet hinstalls (not_resolves_of_installation hcall)
      (not_navigates_of_installation hcall), nofun⟩

/-- What is known once a resolver has been asked: the memory is right, and an
answer is that of the last exchange, in a page that has the script. -/
structure Answered (r : Page.Resolver) (args : List Value) (hs es : List Exchange)
    (res : Except Fault Value) (w' : World) : Prop where
  connected : w'.connection.connected = true
  watched : Watched (hs ++ es) w'.connection.scriptReady
  last : ∀ v, res = .ok v → w'.connection.scriptReady = true ∧ ∃ front a,
    es = front ++ [(resolverCall r args, a)] ∧ Session.readValue a = .ok v

theorem answered_answerOf {res : Except Fault Value} (hr : r ≠ .clickTier)
    (hx : (answerOf (Page.call r args)).Way w es res w') (hc : w.connection.connected = true)
    (hw : Watched hs w.connection.scriptReady) : Answered r args hs es res w' := by
  unfold answerOf at hx
  rcases Act.way_bind_iff.1 hx with ⟨_, w₁, es₁, es₂, h₁, h₂, rfl⟩ | ⟨e, h₁, rfl⟩
  · obtain ⟨hc₁, hw₁, hready⟩ := watched_ensureScript h₁ hc hw
    have hready := hready rfl
    rw [Session.evaluate_eq] at h₂
    obtain ⟨a, rfl, rfl, rfl⟩ := Session.way_single_of_connected h₂ hc₁
    refine ⟨hc₁, ?_, fun v hv => ⟨hready, es₁, a, rfl, hv⟩⟩
    show Watched _ w₁.connection.scriptReady
    rw [hready] at hw₁ ⊢
    rw [← List.append_assoc]
    exact hw₁.resolved ⟨r, args, hr, rfl⟩
  · obtain ⟨hc₁, hw₁, -⟩ := watched_ensureScript h₁ hc hw
    exact ⟨hc₁, hw₁, fun v hv => nomatch hv⟩

/-- **A page that lacks the script** is what lets the session forget it. -/
theorem answered_resolverAnswer {res : Except Fault Value} (hr : r ≠ .clickTier)
    (hx : (resolverAnswer (Page.call r args)).Way w es res w')
    (hc : w.connection.connected = true) (hw : Watched hs w.connection.scriptReady) :
    Answered r args hs es res w' := by
  unfold resolverAnswer at hx
  rcases Act.way_bind_iff.1 hx with ⟨answer, w₁, es₁, es₂, h₁, h₂, rfl⟩ | ⟨e, h₁, rfl⟩
  · have first := answered_answerOf hr h₁ hc hw
    split at h₂
    · next hlacks =>
      obtain ⟨-, front, a, rfl, ha⟩ := first.last answer rfl
      have hresolves : Resolves (resolverCall r args, a) := ⟨r, args, hr, rfl⟩
      have hforgotten : Watched (hs ++ (front ++ [(resolverCall r args, a)])) false := by
        have hwatched := first.watched
        rw [← List.append_assoc] at hwatched ⊢
        exact hwatched.forgotten (.inr (.inr ⟨hresolves, answer, ha, hlacks⟩))
          hresolves.not_installs
      have second := answered_answerOf hr (Act.way_change_bind.1 h₂) first.connected hforgotten
      refine ⟨second.connected, ?_, fun v hv => ?_⟩
      · rw [← List.append_assoc]
        exact second.watched
      · obtain ⟨hready, front₂, a₂, rfl, ha₂⟩ := second.last v hv
        exact ⟨hready, front ++ [(resolverCall r args, a)] ++ front₂, a₂, by simp, ha₂⟩
    · obtain ⟨rfl, rfl, rfl⟩ := Act.way_pure_iff.1 h₂
      rw [List.append_nil]
      exact first
  · exact answered_answerOf hr h₁ hc hw

/-- What a step makes of the answer adds nothing to the exchanges, and it goes
on with an answer that was accepted. -/
theorem answered_resolve {res : Except Fault Bool} {kind : StepKind} {target : String}
    (hr : r ≠ .clickTier) (hx : (resolve kind target (Page.call r args)).Way w es res w')
    (hc : w.connection.connected = true) (hw : Watched hs w.connection.scriptReady) :
    ∃ answer, Answered r args hs es answer w' ∧
      (res = .ok true → ∃ v, answer = .ok v ∧ accepts v = true) := by
  unfold resolve at hx
  obtain ⟨answer, w₁, es₁, es₂, h₁, h₂, rfl⟩ := Act.way_attempt_bind.1 hx
  have hanswered := answered_resolverAnswer hr h₁ hc hw
  cases answer with
  | ok v =>
    obtain ⟨rfl, rfl, rfl⟩ := Act.way_pure_iff.1 h₂
    rw [List.append_nil]
    exact ⟨.ok v, hanswered, fun h => ⟨v, rfl, Except.ok.inj h⟩⟩
  | error e =>
    have hend : es₂ = [] ∧ (∃ f, res = .error f) ∧ w' = w₁ := by
      cases e <;>
        (obtain ⟨rfl, rfl, rfl⟩ := Act.way_fail_iff.1 h₂; exact ⟨rfl, ⟨_, rfl⟩, rfl⟩)
    obtain ⟨rfl, ⟨f, rfl⟩, rfl⟩ := hend
    rw [List.append_nil]
    exact ⟨.error e, hanswered, fun h => nomatch h⟩

theorem watching_resolve {kind : StepKind} {target : String} (hr : r ≠ .clickTier) :
    Act.Keeps Watching (resolve kind target (Page.call r args)) := by
  intro w es res w' hx hs hc hw
  obtain ⟨_, h, -⟩ := answered_resolve hr hx hc hw
  exact ⟨h.connected, h.watched⟩

/-- **A control that was pressed** is what lets the session forget the script. -/
theorem watching_press (caption : String) : Act.Keeps Watching (press caption) := by
  intro w es res w' hx hs hc hw
  unfold press at hx
  rcases Act.way_bind_iff.1 hx with ⟨found, w₁, es₁, es₂, h₁, h₂, rfl⟩ | ⟨e, h₁, rfl⟩
  · obtain ⟨answer, h, haccepted⟩ := answered_resolve (r := .clickByText) (by decide) h₁ hc hw
    cases found with
    | false =>
      obtain ⟨rfl, -, rfl⟩ := Act.way_pure_iff.1 h₂
      rw [List.append_nil]
      exact ⟨h.connected, h.watched⟩
    | true =>
      obtain ⟨v, rfl, hv⟩ := haccepted rfl
      obtain ⟨-, front, a, rfl, ha⟩ := h.last v rfl
      have h₂ : (pure true : Act Bool).Way
          { w₁ with connection := { w₁.connection with scriptReady := false } } es₂ res w' := h₂
      obtain ⟨rfl, -, rfl⟩ := Act.way_pure_iff.1 h₂
      refine ⟨h.connected, ?_⟩
      have hwatched := h.watched
      rw [List.append_nil]
      rw [← List.append_assoc] at hwatched ⊢
      refine hwatched.forgotten (.inr (.inl ⟨_, v, rfl, ha, hv⟩)) ?_
      exact Resolves.not_installs ⟨.clickByText, _, by decide, rfl⟩
  · obtain ⟨_, h, -⟩ := answered_resolve (r := .clickByText) (by decide) h₁ hc hw
    exact ⟨h.connected, h.watched⟩

/-- **All that a run is made of leaves the memory right.** -/
theorem runKept_watching (c : Conduct) : RunKept (Act.Keeps Watching) c where
  closed := Act.closed_keeps watching_composes
  log l := watching_clerical (Update.clerical_log l)
  print n := watching_clerical (Update.clerical_print n)
  look := watching_look
  navigate := watching_navigate
  type _ _ := watching_resolve (by decide)
  press := watching_press
  seek _ := watching_resolve (by decide)
  page _ markup := watching_clerical (Report.clerical_keepPage markup)
  snapshot _ k image markup := watching_clerical (Report.clerical_writeSnapshot k image markup)
  plan s := watching_clerical (Report.clerical_writePlan s)
  result r := watching_clerical (Report.clerical_suiteFinished r)
  probed url image markup := watching_clerical (Report.clerical_writeProbe url image markup)

/-! ## Errands of a session -/

/-- A session that has just been connected. -/
structure Fresh (w : World) : Prop where
  connected : w.connection.connected = true
  scriptReady : w.connection.scriptReady = false

/-- **Whatever a fresh session is sent on, the script is installed where it is
needed and only there:** in any order, under any conduct, and however the
server answers. -/
theorem script_guarded {ts : List (Conduct × Errand)} {res : Except Fault Unit} (hw : Fresh w)
    (h : (errands ts).Way w es res w') : Guarded es := by
  have hwatched : Watched [] w.connection.scriptReady := by
    rw [hw.scriptReady]
    exact .start
  exact (kept_errands runKept_watching ts h [] hw.connected hwatched).2.guarded

/-- A server that says yes to all that it is asked. -/
def agreeing : Server Unit :=
  ⟨fun _ _ => ({ outcome := .ok (.record [("structuredContent", .bool true)]), elapsed := 1 }, ())⟩

/-- Two controls are pressed: the script is installed twice. -/
theorem script_guarded_presses :
    Fresh atWork ∧
      Guarded ((errands [(site, .step "保存 をクリック"), (site, .step "次へ をクリック")]
        atWork).exchanges agreeing ()) ∧
      ((errands [(site, .step "保存 をクリック"), (site, .step "次へ をクリック")]
        atWork).exchanges agreeing ()).length = 10 :=
  ⟨⟨rfl, rfl⟩, script_guarded ⟨rfl, rfl⟩ (Act.way_run agreeing _ atWork ()), by decide +kernel⟩

end Run

end Walkthrough
