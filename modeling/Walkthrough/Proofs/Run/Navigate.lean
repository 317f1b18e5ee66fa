import Walkthrough.Proofs.Run.Suite
import Walkthrough.Proofs.Step.Grammar
/-!
# Opening a page

All that a step to a page asks of the tool server is done as well as can be,
so nothing the server does makes the step fail. What can go wrong lies in
front of the first call: the target may be no URL. Against the URL of a site
that is all (`navigate_outcome`), for what comes out of a target that can be
split can be split again.
-/

namespace Walkthrough.Run

variable {σ : Type} {c : Conduct} {raw target : String}

/-- Against the URL of a site no page is stray. -/
theorem not_stray (hb : Url.IsSite c.baseUrl) (ht : Url.Splits target) (e : Url.Error) :
    ¬Stray c target e := by
  rintro ⟨url, hurl, he⟩
  obtain ⟨url', hurl', p, hp⟩ := Url.page_splits hb ht
  rw [hurl] at hurl'
  cases hurl'
  rw [he] at hp
  cases hp

/-- A step to a page is no web address of its own. -/
theorem isWebAddress_target (ha : (Step.classify raw).action = .navigate target) :
    Url.isWebAddress target.toList = false :=
  Url.isWebAddress_of_slash (Step.head?_target ha)

/-- What a step to a page comes to: its own value, unless its target cannot be
split. -/
def navigated {α : Type} (target : String) (value : α) : Except Fault α :=
  ((Url.split target.toList).mapError .url).map fun _ => value

/-- A step to a page of a site does not fail if its target can be split. -/
theorem gives_openPage_of_splits {A : Exchange → Prop} (hb : Url.IsSite c.baseUrl)
    (hk : c.keepsPages = false ∨ c.reports = false) (ht : Url.Splits target) :
    Act.Gives A (openPage c target) (fun _ => True) (fun _ => False) := by
  refine gives_openPage (fun e he => ?_) (not_stray hb ht) fun hkeeps hreports => ?_
  · obtain ⟨url, hurl, -⟩ := Url.page_splits hb ht
    rw [hurl] at he
    cases he
  · rcases hk with h | h
    · rw [hkeeps] at h
      cases h
    · rw [hreports] at h
      cases h

/-- A target that means no page ends the step at once. -/
theorem gives_openPage_of_error {A : Exchange → Prop} {e : Url.Error}
    (h : Url.page c.baseUrl target = .error e) :
    Act.Gives A (openPage c target) (fun _ => False) (· = .url e) := by
  unfold openPage
  rw [h]
  exact Act.Gives.bind (P := fun _ => False) (Act.gives_ofExcept rfl) fun _ hu => hu.elim

/-- **What a step to a page comes to,** whatever the tool server does. -/
theorem gives_perform_navigate {A : Exchange → Prop} {step : Step} (hb : Url.IsSite c.baseUrl)
    (hk : c.keepsPages = false ∨ c.reports = false) (ha : step.action = .navigate target)
    (hw : Url.isWebAddress target.toList = false) :
    Act.Gives A (perform c step) (fun _ => Url.Splits target)
      (fun e => ∃ u, e = .url u ∧ Url.split target.toList = .error u) := by
  have hperform : perform c step = openPage c target := by
    unfold perform
    rw [ha]
  rw [hperform]
  cases hs : Url.split target.toList with
  | ok p =>
    have ht : Url.Splits target := ⟨p, hs⟩
    exact (gives_openPage_of_splits hb hk ht).mono (fun _ _ => ht) fun _ he => he.elim
  | error u =>
    refine (gives_openPage_of_error (Url.page_eq_error hb hw hs)).mono (fun _ hu => hu.elim) ?_
    rintro _ rfl
    exact ⟨u, rfl, rfl⟩

theorem eq_navigated {α : Type} {r : Except Fault α} {a : α}
    (h : Ends (fun b => Url.Splits target ∧ b = a)
      (fun e => ∃ u, e = .url u ∧ Url.split target.toList = .error u) r) :
    r = navigated target a := by
  unfold navigated
  cases r with
  | ok b =>
    obtain ⟨⟨p, hp⟩, rfl⟩ := h
    rw [hp]
    rfl
  | error e =>
    obtain ⟨u, rfl, hu⟩ := h
    rw [hu]
    rfl

/-- **A step to a page of a site** comes to its record, and its outcome is that
of a step that went as it should, if its target can be split as a URL. If it
cannot, the step ends with what is wrong with it, and the run with it. So it
is whatever the tool server does. -/
theorem navigate_outcome (hb : Url.IsSite c.baseUrl)
    (hk : c.keepsPages = false ∨ c.reports = false)
    (ha : (Step.classify raw).action = .navigate target) (title : String) (server : Server σ)
    (w : World) (s : σ) :
    ((execute c raw).run server w s).1.1 = navigated target (Step.classify raw).classification ∧
      ∃ d, ((runStep c title raw).run server w s).1.1 =
        navigated target (outcomeOf raw title none d) := by
  have hperform := gives_perform_navigate (A := fun _ => True) hb hk ha (isWebAddress_target ha)
  have hexecute := gives_execute hperform
  refine ⟨eq_navigated (hexecute (Act.way_run server _ w s) fun _ _ => trivial), ?_⟩
  -- What is wrong with a URL is no failure of a step, so it ends the run as well.
  have hfail : ∀ r, Ends (fun k => Url.Splits target ∧ k = (Step.classify raw).classification)
      (fun e => ∃ u, e = .url u ∧ Url.split target.toList = .error u) r →
      Ends (fun reason => Url.Splits target ∧ reason = none)
        (fun e => ∃ u, e = .url u ∧ Url.split target.toList = .error u) (failureOf r) := by
    intro r hr
    rcases r with e | k
    · obtain ⟨u, rfl, hu⟩ := hr
      exact ⟨u, rfl, hu⟩
    · exact ⟨hr.1, rfl⟩
  have hstep : Act.Gives _ (runStep c title raw) _ _ := gives_runStep hexecute hfail
  have hr := hstep (Act.way_run server _ w s) fun _ _ => trivial
  cases hrun : ((runStep c title raw).run server w s).1.1 with
  | ok o =>
    rw [hrun] at hr
    obtain ⟨_, d, ⟨ht, rfl⟩, rfl⟩ := hr
    exact ⟨d, eq_navigated (r := .ok _) ⟨ht, rfl⟩⟩
  | error e =>
    rw [hrun] at hr
    exact ⟨.zero false, eq_navigated (r := .error e) hr⟩

/-- A server that fails at whatever it is asked. -/
def unwilling : Server Unit where
  answer _ _ := ({ outcome := .error (.other "TimeoutError" "timed out"), elapsed := 5 }, ())

/-- A world with an open session. -/
def atWork : World := { World.start {} {} with connection := ⟨["server"], true, false, false⟩ }

/-- A site whose base URL leads to one of its pages. -/
def site : Conduct where
  baseUrl := "https://example.org:8443/app/index.html"

theorem navigate_outcome_unwilling :
    Url.IsSite site.baseUrl ∧
      (Step.classify "/a/../b;c?d に移動").action = .navigate "/a/../b;c?d" ∧
      ((execute site "/a/../b;c?d に移動").run unwilling atWork ()).1.1 =
        .ok (Step.classify "/a/../b;c?d に移動").classification ∧
      ∃ d, ((runStep site "default" "/a/../b;c?d に移動").run unwilling atWork ()).1.1 =
        .ok (outcomeOf "/a/../b;c?d に移動" "default" none d) := by
  have hb : Url.IsSite site.baseUrl := ⟨_, rfl, by decide, by decide⟩
  have ha : (Step.classify "/a/../b;c?d に移動").action = .navigate "/a/../b;c?d" := by decide
  exact ⟨hb, ha, navigate_outcome hb (.inl rfl) ha "default" unwilling atWork ()⟩

/-- **A step to a page may fail,** although it has the shape of one: its target
may open a bracket where a host would stand. -/
theorem unsplittable_target_fails :
    ¬∀ (c : Conduct) (raw target : String) (w : World), Url.IsSite c.baseUrl →
      c.keepsPages = false ∨ c.reports = false →
      (Step.classify raw).action = .navigate target →
      ((execute c raw).run unwilling w ()).1.1 = .ok (Step.classify raw).classification := by
  intro h
  have hb : Url.IsSite "http://127.0.0.1:8080" := ⟨_, rfl, by decide, by decide⟩
  have key := h ⟨"http://127.0.0.1:8080", false, true⟩ "//[ に移動" "//[" atWork hb (.inl rfl)
    (by decide)
  have hrun : ((execute ⟨"http://127.0.0.1:8080", false, true⟩ "//[ に移動").run unwilling atWork
    ()).1.1 = .error (.url .unpairedBracket) := by rfl
  rw [hrun] at key
  cases key

end Walkthrough.Run
