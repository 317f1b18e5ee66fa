import Walkthrough.Proofs.Run.Script
import Walkthrough.Proofs.Run.Terse
/-!
# The calls of a step to a page

A step to a page asks the tool server for a fixed sequence of things, and one
answer decides about it: where the page shows nothing and there is another one
to try, that one is opened as well. Each call is done as well as can be, so none
is left out or made twice because of what came of another. `Asks` says this of
a part of the step, that it sends some requests and no others whatever they are
answered, and passes from the parts to the whole; the answer that decides is
kept apart (`visit_of_way`). The sequence is broken off where the page cannot be
split as a URL, and nowhere else (`visits_iff`).
-/

namespace Walkthrough

/-- The request opens a page. -/
def Request.opensPage : Request → Bool
  | .call tool _ => tool = Session.navigateTool
  | _ => false

namespace Run

open Walkthrough.Json

variable {α β : Type} {c : Conduct} {w w' : World} {es : List Exchange} {q : Request}
  {qs qs' : List Request} {url target : String}

/-! ## The requests -/

/-- A page is opened. -/
def pageCall (url : String) : Request := .call Session.navigateTool [("url", .text url)]

/-- A state of the page is waited for, eight seconds. -/
def waitCall (state : String) : Request :=
  .call Session.waitTool [("state", .text state), ("timeout", .int 8000)]

/-- An expression is evaluated in the page. -/
def lookCall (expression : String) : Request :=
  .call Session.evaluateTool [("function", .text (Page.expressionFunction expression))]

/-- A picture of the page is taken. -/
def pictureCall : Request := .call Session.screenshotTool [("fullPage", .bool true)]

/-- A page is opened and left to load. -/
def openingCalls (url : String) : List Request := [pageCall url, waitCall "load"]

/-- What is asked at a page once it is open. -/
def attendingCalls (c : Conduct) : List Request :=
  [waitCall "networkidle", pictureCall] ++
    if c.keepsPages && c.reports then [lookCall Page.markup] else []

/-- **The calls of a step to a page,** with another page that is tried or without. -/
def visitCalls (c : Conduct) (url : String) (other : Option String) : List Request :=
  openingCalls url ++ [lookCall Page.hasText] ++ other.toList.flatMap openingCalls ++
    attendingCalls c

/-- The answer says that the page shows nothing: there is a value to it, and it
means no. -/
def ShowsNothing (answer : Answer) : Prop :=
  ∃ v, Session.readValue answer = .ok v ∧ Reply.meansYes v = false

/-- The other page that is tried after an answer, if one is: the one that there
may be for a page that shows nothing. -/
inductive Tries (url : String) (answer : Answer) : Option String → Prop
  | shown (h : ¬ShowsNothing answer) : Tries url answer none
  | blank {other : Option String} (h : ShowsNothing answer)
    (hother : Url.alternative? url = .ok other) : Tries url answer other

/-- **A visit to a page:** what was asked is what is to be asked, given what the
page was said to show; no more than two pages were opened; and the page script
is not taken to be there afterwards. -/
structure Visit (c : Conduct) (url : String) (es : List Exchange) (w' : World) : Prop where
  calls : ∃ answer other, es[2]? = some (lookCall Page.hasText, answer) ∧ Tries url answer other ∧
    es.map (·.1) = visitCalls c url other
  opened : es.countP (·.1.opensPage) ≤ 2
  forgotten : w'.connection.scriptReady = false

/-! ## Parts that ask the same whatever is answered -/

/-- **An act asks for some things and no others,** whatever is answered, in a
session without the page script, and leaves it so. -/
def Asks (qs : List Request) (x : Act α) : Prop :=
  ∀ ⦃w es r w'⦄, x.Way w es r w' → Fresh w → es.map (·.1) = qs ∧ Fresh w'

theorem asks_single {tool : String} {args : Arguments}
    {read : Answer → Except Fault α} :
    Asks [.call tool args] (Session.single tool args read) := by
  intro w es r w' h hw
  obtain ⟨a, rfl, -, rfl⟩ := Session.way_single_of_connected h hw.connected
  exact ⟨rfl, hw.connected, hw.scriptReady⟩

theorem asks_invoke {tool : String} {args : Arguments} :
    Asks [.call tool args] (Session.invoke tool args) := by
  rw [Session.invoke_eq]
  exact asks_single

theorem asks_evaluate {expression : String} :
    Asks [lookCall expression] (Session.evaluate expression) := by
  rw [Session.evaluate_eq]
  exact asks_single

/-- A change of the world that leaves the connection alone asks for nothing. -/
theorem asks_ofUpdate {u : Update α} (h : ∀ w, (u w).2.connection = w.connection) :
    Asks [] (Act.ofUpdate u) := by
  intro w es r w' hx hw
  obtain ⟨rfl, hr⟩ := Act.way_ofUpdate_iff.1 hx
  have hw' : w'.connection = w.connection := by
    rw [← h w, ← hr]
  exact ⟨rfl, by rw [hw']; exact hw.connected, by rw [hw']; exact hw.scriptReady⟩

theorem asks_pure {a : α} : Asks [] (Pure.pure a : Act α) :=
  asks_ofUpdate (u := Update.pure a) fun _ => rfl

theorem Asks.bestEffort {x : Act α} {default : α} (hx : Asks qs x) :
    Asks qs (Act.bestEffort default x) := by
  intro w es r w' h hw
  obtain ⟨_, h, -⟩ := Act.way_bestEffort_iff.1 h
  exact hx h hw

theorem Asks.idly {x : Act α} (hx : Asks qs x) : Asks qs (idly x) := by
  refine Asks.bestEffort fun w es r w' h hw => ?_
  obtain ⟨_, h, -⟩ := Act.way_map_iff.1 h
  exact hx h hw

/-- What follows an act that asks for something may itself ask for nothing, -/
theorem Asks.quietly {x : Act α} {f : α → Act β} (hx : Asks qs x) (hf : ∀ a, Asks [] (f a)) :
    Asks qs (x >>= f) := by
  intro w es r w' h hw
  rcases Act.way_bind_iff.1 h with ⟨a, w₁, es₁, es₂, h₁, h₂, rfl⟩ | ⟨e, h₁, -⟩
  · obtain ⟨hqs, hw₁⟩ := hx h₁ hw
    obtain ⟨hnil, hw'⟩ := hf a h₂ hw₁
    rw [List.map_append, hqs, hnil, List.append_nil]
    exact ⟨rfl, hw'⟩
  · exact hx h₁ hw

/-- and where the act never fails, it may ask for more. -/
theorem Asks.bind {x : Act α} {f : α → Act β} (hx : Asks qs x)
    (hok : Act.Gives (fun _ => True) x (fun _ => True) fun _ => False)
    (hf : ∀ a, Asks qs' (f a)) : Asks (qs ++ qs') (x >>= f) := by
  intro w es r w' h hw
  rcases Act.way_bind_iff.1 h with ⟨a, w₁, es₁, es₂, h₁, h₂, rfl⟩ | ⟨e, h₁, -⟩
  · obtain ⟨rfl, hw₁⟩ := hx h₁ hw
    obtain ⟨rfl, hw'⟩ := hf a h₂ hw₁
    exact ⟨List.map_append, hw'⟩
  · exact (hok h₁ fun _ _ => trivial).elim

theorem asks_screenshot : Asks [pictureCall] Session.screenshot :=
  asks_invoke.quietly fun items => asks_ofUpdate fun w => by
    cases Reply.image? items <;> rfl

theorem asks_keepOpenedPage : Asks [lookCall Page.markup] keepOpenedPage := by
  unfold keepOpenedPage Session.pageMarkup
  refine Asks.quietly (asks_evaluate.quietly fun _ => asks_pure).bestEffort fun markup => ?_
  cases markup with
  | none => exact asks_pure
  | some markup =>
    dsimp only
    split
    · refine Asks.quietly ?_ fun _ => asks_pure
      exact asks_ofUpdate fun w => (Report.clerical_keepPage markup w).2
    · exact asks_pure

theorem asks_attend : Asks (attendingCalls c) (attend c) := by
  unfold attend attendingCalls
  show Asks ([waitCall "networkidle"] ++ ([pictureCall] ++ _)) _
  refine Asks.bind asks_invoke.idly gives_idly fun _ => ?_
  refine Asks.bind asks_screenshot.idly gives_idly fun _ => ?_
  split
  · exact asks_keepOpenedPage
  · exact asks_pure

/-! ## Opening pages -/

/-- **A page is opened and left to load,** whatever comes of it, and the page
script is forgotten. -/
theorem way_goTo {r : Except Fault Unit} (h : (goTo url loadTimeout).Way w es r w')
    (hc : w.connection.connected = true) : es.map (·.1) = openingCalls url ∧ Fresh w' := by
  -- the script is forgotten before the call is made
  have hopened {w w' : World} {es : List Exchange} {r : Except Fault Unit}
      (h : (idly (Session.navigate url)).Way w es r w') (hc : w.connection.connected = true) :
      es.map (·.1) = [pageCall url] ∧ Fresh w' := by
    obtain ⟨_, h, -⟩ := Act.way_bestEffort_iff.1 h
    obtain ⟨_, h, -⟩ := Act.way_map_iff.1 h
    have hinvoke := Act.way_change_bind.1 h
    exact asks_invoke hinvoke ⟨hc, rfl⟩
  rcases Act.way_bind_iff.1 h with ⟨_, w₁, es₁, es₂, h₁, h₂, rfl⟩ | ⟨e, h₁, -⟩
  · obtain ⟨hpage, hw₁⟩ := hopened h₁ hc
    obtain ⟨hwait, hw'⟩ := asks_invoke.idly h₂ hw₁
    rw [List.map_append, hpage, hwait]
    exact ⟨rfl, hw'⟩
  · obtain ⟨_, -, hr⟩ := Act.way_bestEffort_iff.1 h₁
    cases hr

theorem asks_goTo : Asks (openingCalls url) (goTo url loadTimeout) :=
  fun _ _ _ _ h hw => way_goTo h hw.connected

/-- The other page is opened, if there is one. -/
theorem asks_tryAlternative {other : Option String} (h : Url.alternative? url = .ok other) :
    Asks (other.toList.flatMap openingCalls) (tryAlternative url) := by
  unfold tryAlternative
  rw [h]
  cases other with
  | none => exact asks_pure
  | some alternative =>
    have hcalls : (some alternative).toList.flatMap openingCalls = [] ++ openingCalls alternative :=
      List.append_nil _
    rw [hcalls]
    show Asks _ (Act.log (.emptyPage url alternative) >>= fun _ => goTo alternative loadTimeout)
    exact Asks.bind (asks_ofUpdate fun _ => rfl) (Act.gives_log trivial) fun _ => asks_goTo

/-- What is done once it is known whether the page shows anything. -/
def goOn (c : Conduct) (url : String) (hasText : Value) : Act Unit :=
  if !Reply.meansYes hasText then tryAlternative url >>= fun _ => attend c else attend c

theorem openAt_eq (c : Conduct) (url : String) :
    openAt c url = goTo url loadTimeout >>= fun _ =>
      .bestEffort (.bool true) (Session.evaluate Page.hasText) >>= goOn c url := rfl

/-- **One answer decides what follows.** A call that did not go well says as much
as one that was answered with yes. -/
theorem asks_goOn {answer : Answer} {other : Option String} (h : Tries url answer other) :
    Asks (other.toList.flatMap openingCalls ++ attendingCalls c)
      (goOn c url ((Session.readValue answer).toOption.getD (.bool true))) := by
  unfold goOn
  cases h with
  | shown h =>
    have hyes : Reply.meansYes
        ((Session.readValue answer).toOption.getD (.bool true)) = true := by
      cases hv : Session.readValue answer with
      | error e => rfl
      | ok v =>
        show Reply.meansYes v = true
        by_contra hno
        exact h ⟨v, hv, by simpa using hno⟩
    rw [hyes]
    exact asks_attend
  | blank h hother =>
    obtain ⟨v, hv, hno⟩ := h
    have hvalue : (Session.readValue answer).toOption.getD (.bool true) = v := by
      rw [hv]
      rfl
    rw [hvalue, hno]
    refine Asks.bind (asks_tryAlternative hother) ?_ fun _ => asks_attend
    refine gives_tryAlternative fun e he => ?_
    rw [Url.alternative?_eq_error_iff.2 he] at hother
    cases hother

/-- There is always something that is tried, if only no other page. -/
theorem exists_tries (h : Url.Splits url) (answer : Answer) : ∃ other, Tries url answer other := by
  by_cases hshows : ShowsNothing answer
  · obtain ⟨p, hp⟩ := h
    cases hother : Url.alternative? url with
    | ok other => exact ⟨other, .blank hshows hother⟩
    | error e =>
      rw [Url.alternative?_eq_error_iff, hp] at hother
      cases hother
  · exact ⟨none, .shown hshows⟩

/-- At most two of the calls open a page. -/
theorem countP_opensPage_visitCalls (c : Conduct) (url : String) (other : Option String) :
    (visitCalls c url other).countP Request.opensPage ≤ 2 := by
  have hopening (url : String) : (openingCalls url).countP Request.opensPage = 1 := rfl
  have hattending : (attendingCalls c).countP Request.opensPage = 0 := by
    unfold attendingCalls
    split <;> rfl
  have hlook : [lookCall Page.hasText].countP Request.opensPage = 0 := rfl
  unfold visitCalls
  rw [List.countP_append, List.countP_append, List.countP_append, hopening, hlook, hattending]
  cases other with
  | none => simp
  | some alternative => simp [hopening]

/-- **Every way from an open session visits the page,** if it can be split. -/
theorem visit_of_way {r : Except Fault Unit} (hs : Url.Splits url)
    (h : (openAt c url).Way w es r w') (hc : w.connection.connected = true) :
    Visit c url es w' := by
  rw [openAt_eq] at h
  rcases Act.way_bind_iff.1 h with ⟨_, w₁, es₁, es₂, h₁, h₂, rfl⟩ | ⟨e, h₁, -⟩
  · obtain ⟨hopening, hw₁⟩ := way_goTo h₁ hc
    rcases Act.way_bind_iff.1 h₂ with ⟨v, w₂, fs₁, fs₂, hlook, hgo, rfl⟩ | ⟨e, hlook, -⟩
    · obtain ⟨r₁, hlook, hv⟩ := Act.way_bestEffort_iff.1 hlook
      rw [Session.evaluate_eq] at hlook
      obtain ⟨answer, rfl, rfl, rfl⟩ := Session.way_single_of_connected hlook hw₁.connected
      cases hv
      obtain ⟨other, hother⟩ := exists_tries hs answer
      obtain ⟨hrest, hw'⟩ := asks_goOn (c := c) hother hgo ⟨hw₁.connected, hw₁.scriptReady⟩
      have hcalls : (es₁ ++ ([(lookCall Page.hasText, answer)] ++ fs₂)).map (·.1) =
          visitCalls c url other := by
        rw [List.map_append, List.map_append, hopening, hrest]
        simp [visitCalls]
      have hlength : es₁.length = 2 := by
        rw [← List.length_map, hopening]
        rfl
      refine ⟨⟨answer, other, ?_, hother, hcalls⟩, ?_, hw'.scriptReady⟩
      · rw [List.getElem?_append_right hlength.le, hlength]
        rfl
      · have hcount := countP_opensPage_visitCalls c url other
        rw [← hcalls, List.countP_map] at hcount
        exact hcount
    · obtain ⟨_, -, hr⟩ := Act.way_bestEffort_iff.1 hlook
      cases hr
  · exact (gives_goTo (A := fun _ => True) (F := fun _ => False) h₁ fun _ _ => trivial).elim

/-! ## Visits and the page -/

/-- **A step to a page is a visit** with every server, from every open session. -/
def Visits (c : Conduct) (step : Step) (url : String) : Prop :=
  ∀ (σ : Type) (server : Server σ) (w : World) (s : σ), w.connection.connected = true →
    Visit c url ((perform c step w).exchanges server s) ((perform c step).run server w s).1.2

theorem perform_eq_openAt {step : Step} (ha : step.action = .navigate target)
    (hu : Url.page c.baseUrl target = .ok url) : perform c step = openAt c url := by
  have hperform : perform c step = openPage c target := by
    unfold perform
    rw [ha]
  rw [hperform, openPage_eq, hu]
  rfl

/-- A server that says of every page that it shows nothing has the other page
looked for. -/
theorem splits_of_visits {step : Step} (h : Visits c step url) : Url.Splits url := by
  obtain ⟨answer, other, hlook, htries, -⟩ := (h Unit (Terse.server false) atWork () rfl).calls
  have htold := told_exchanges _ (List.mem_of_getElem? hlook)
  have hnothing : ShowsNothing answer := by
    refine ⟨.bool false, ?_, rfl⟩
    have houtcome : answer = { outcome := .ok (Terse.reply false) } := htold
    rw [houtcome]
    rfl
  cases htries with
  | shown hshown => exact absurd hnothing hshown
  | blank _ hother =>
    cases hs : Url.split url.toList with
    | ok p => exact ⟨p, hs⟩
    | error e =>
      rw [Url.alternative?_eq_error_iff.2 hs] at hother
      cases hother

/-- **A step to a page is a visit** just where the page can be split as a URL:
then it makes the calls of a visit whatever the server does, and it may break
off where the page cannot. -/
theorem visits_iff {step : Step} (ha : step.action = .navigate target)
    (hu : Url.page c.baseUrl target = .ok url) : Visits c step url ↔ Url.Splits url := by
  constructor
  · exact splits_of_visits
  · intro hs σ server w s hc
    have hway := Act.way_run server (perform c step) w s
    rw [perform_eq_openAt ha hu] at hway ⊢
    exact visit_of_way hs hway hc

/-- A step to a page of a site is a visit. -/
theorem visits_aisle : (Step.classify "/aisle?n=4 に移動").action = .navigate "/aisle?n=4" ∧
    Url.page site.baseUrl "/aisle?n=4" = .ok "https://example.org:8443/aisle?n=4" ∧
    Visits site (Step.classify "/aisle?n=4 に移動") "https://example.org:8443/aisle?n=4" := by
  have ha : (Step.classify "/aisle?n=4 に移動").action = .navigate "/aisle?n=4" := by decide
  have hu : Url.page site.baseUrl "/aisle?n=4" = .ok "https://example.org:8443/aisle?n=4" := by
    decide +kernel
  exact ⟨ha, hu, (visits_iff ha hu).2 ⟨_, rfl⟩⟩

/-- **Not every step to a page is a visit,** although its target means a page. -/
theorem unvisited : ¬∀ (c : Conduct) (step : Step) (target url : String),
    step.action = .navigate target → Url.page c.baseUrl target = .ok url →
    Visits c step url := by
  intro h
  have ha : (Step.classify "/.//[ に移動").action = .navigate "/.//[" := by decide
  have hu : Url.page "http://" "/.//[" = .ok "http://[" := by decide +kernel
  obtain ⟨p, hp⟩ := splits_of_visits (h ⟨"http://", false, true⟩ _ _ _ ha hu)
  have hsplit : (Url.split "http://[".toList).isOk = false := by decide +kernel
  rw [hp] at hsplit
  cases hsplit

end Run

end Walkthrough
