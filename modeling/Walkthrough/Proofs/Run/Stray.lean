import Walkthrough.Proofs.Run.Balk
import Walkthrough.Proofs.Run.Ready
/-!
# What a stray page does to a run

A base and targets that can be split as URLs do not make sure that the pages
they mean can be split as well. Two properties of a suite stand and fall with
that: that a run accounts for every step unless an answer cannot be read
(`accountable_iff`), and that only the primary calls decide what the outcomes are
(`decided_iff`). Where no page is stray, they hold with every server, by
`gives_runSuite` and `steady_runSuite`.
Where one is, the server of few words brings it out, for whether a page is split
again hangs on what the server says of it.
-/

namespace Walkthrough.Run

variable {c : Conduct} {s : Suite}

/-- A stray page is no file. -/
theorem not_blocksSuite_file {b : Bool} {e : FileError} : ¬BlocksSuite b c s (.file e) := by
  rintro ⟨-, _, _, -, -, h⟩
  cases h

/-- Against the URL of a site no page of a suite is stray. -/
theorem noStray_of_isSite (hb : Url.IsSite c.baseUrl)
    (ht : ∀ target, s.Targets target → Url.Splits target) : NoStray c s :=
  fun _ _ htarget => not_stray hb (ht _ htarget) _

/-! ## A document for a site, and one that goes astray -/

/-- A document with a step to a page and one that hangs on a call. -/
def shop : Suite where
  name := "Shop"
  cases := [⟨"save", ["/a/../b;c?d に移動", "保存 をクリック"]⟩]

theorem splits_shop : Url.Splits site.baseUrl ∧
    ∀ target, shop.Targets target → Url.Splits target := by
  refine ⟨⟨_, rfl⟩, ?_⟩
  rintro target ⟨f, hf, ha⟩
  have hf : f = ⟨"save", "/a/../b;c?d に移動"⟩ ∨ f = ⟨"save", "保存 をクリック"⟩ := by
    simpa [shop, Suite.flatten] using hf
  rcases hf with rfl | rfl
  · have hgo : (Step.classify "/a/../b;c?d に移動").action = .navigate "/a/../b;c?d" := by decide
    cases hgo.symm.trans ha
    exact ⟨_, rfl⟩
  · have hclick : (Step.classify "保存 をクリック").action = .click "保存" := by decide
    cases hclick.symm.trans ha

theorem noStray_shop : NoStray site shop :=
  noStray_of_isSite ⟨_, rfl, by decide, by decide⟩ splits_shop.2

/-- A base that names no host. -/
def bare : Conduct where
  baseUrl := "http://"

/-- A document with one step, to a page that such a base sends astray. -/
def astray : Suite where
  name := "Astray"
  cases := [⟨"default", ["/.//[ に移動"]⟩]

theorem targets_astray {target : String} (h : astray.Targets target) : target = "/.//[" := by
  obtain ⟨f, hf, ha⟩ := h
  have hf : f = ⟨"default", "/.//[ に移動"⟩ := by
    simpa [astray, Suite.flatten] using hf
  subst hf
  have hgo : (Step.classify "/.//[ に移動").action = .navigate "/.//[" := by decide
  cases hgo.symm.trans ha
  rfl

theorem splits_astray : Url.Splits bare.baseUrl ∧
    ∀ target, astray.Targets target → Url.Splits target :=
  ⟨⟨_, rfl⟩, fun _ h => targets_astray h ▸ ⟨_, rfl⟩⟩

/-- Once the dot of its path has gone, what follows reads as a host, and opens a
bracket. -/
theorem not_noStray_astray : ¬NoStray bare astray := by
  intro h
  refine h "/.//[" .unpairedBracket ⟨⟨"default", "/.//[ に移動"⟩, by decide, by decide⟩ ?_
  exact ⟨"http://[", rfl, rfl⟩

/-! ## Accounts of all steps -/

/-- **The primary calls decide the outcomes** of the suite: runs from equal
connections whose primary calls are answered alike come to outcomes that tell
the same, or to the same fault, whatever else they are told, as long as what is
to be written can be written. -/
def Decided (c : Conduct) (s : Suite) : Prop :=
  ∀ (σ τ : Type) (server₁ : Server σ) (server₂ : Server τ) (w₁ w₂ : World) (st₁ : σ) (st₂ : τ),
    w₁.connection = w₂.connection →
    Agree ((runSuite c s w₁).exchanges server₁ st₁) ((runSuite c s w₂).exchanges server₂ st₂) →
    (∀ e, ((runSuite c s).run server₁ w₁ st₁).1.1 ≠ .error (.file e)) →
    (∀ e, ((runSuite c s).run server₂ w₂ st₂).1.1 ≠ .error (.file e)) →
    Matches (fun r q => r.perStep.map (·.told) = q.perStep.map (·.told))
      ((runSuite c s).run server₁ w₁ st₁).1.1 ((runSuite c s).run server₂ w₂ st₂).1.1

/-- Where no page is stray, only a file is an excuse. -/
theorem not_excused {r : Except Fault SuiteResult} (hn : NoStray c s)
    (hfile : ∀ e, r ≠ .error (.file e)) : ¬Excused (EndsSuite c s) r := by
  rintro ⟨e, rfl, he | ⟨target, u, htarget, hu, -⟩⟩
  · cases e with
    | file f => exact hfile f rfl
    | _ => exact he
  · exact hn target u htarget hu

theorem decided_of_noStray (hn : NoStray c s) : Decided c s := by
  intro σ τ server₁ server₂ w₁ w₂ st₁ st₂ hw hag hfile₁ hfile₂
  rcases steady_runSuite (Act.way_run server₁ _ w₁ st₁) (Act.way_run server₂ _ w₂ st₂) hw hag with
    (he | he) | ⟨-, hr, -⟩
  · exact (not_excused hn hfile₁ he).elim
  · exact (not_excused hn hfile₂ he).elim
  · exact hr

/-- With the server of few words every primary call fails, whatever it says of
pages. -/
theorem agree_terse {b d : Bool} {es fs : List Exchange} (hes : ∀ e ∈ es, Told b e)
    (hfs : ∀ e ∈ fs, Told d e) : Agree es fs := by
  intro k x y hx hy
  obtain ⟨hxes, hxp⟩ := List.mem_filter.1 (List.mem_of_getElem? hx)
  obtain ⟨hyfs, hyp⟩ := List.mem_filter.1 (List.mem_of_getElem? hy)
  refine ⟨?_, ?_⟩
  · rw [hes x hxes, hfs y hyfs]
    exact (outcome_of_isPrimary hxp).trans (outcome_of_isPrimary hyp).symm
  · rw [hes x hxes, hfs y hyfs]
    rfl

/-- Where a page is stray, what the server says of pages decides too. -/
theorem noStray_of_decided (hb : Url.Splits c.baseUrl)
    (ht : ∀ target, s.Targets target → Url.Splits target) (h : Decided c s) : NoStray c s := by
  obtain ⟨w, hterse⟩ := exists_terse_run hb ht
  have key := h Unit Unit (Terse.server true) (Terse.server false) w w () () rfl
    (agree_terse told_exchanges told_exchanges)
  cases hrun₁ : ((runSuite c s).run (Terse.server true) w ()).1.1 with
  | error e =>
    -- a page that shows something is not split again
    cases (hterse true _ hrun₁).1
  | ok r =>
    cases hrun₂ : ((runSuite c s).run (Terse.server false) w ()).1.1 with
    | ok q =>
      rcases hterse false _ hrun₂ with h | h
      · cases h
      · exact h
    | error e =>
      obtain ⟨-, _, u, -, -, rfl⟩ := hterse false _ hrun₂
      rw [hrun₁, hrun₂] at key
      cases key (fun _ he => by cases he) fun _ he => by cases he

/-- **Only the primary calls decide the outcomes** of a suite, exactly where
none of the pages it goes to is stray. -/
theorem decided_iff (hb : Url.Splits c.baseUrl)
    (ht : ∀ target, s.Targets target → Url.Splits target) : Decided c s ↔ NoStray c s :=
  ⟨noStray_of_decided hb ht, decided_of_noStray⟩

theorem decided_shop :
    Url.Splits site.baseUrl ∧ (∀ target, shop.Targets target → Url.Splits target) ∧
      ∃ w, Matches (fun r q => r.perStep.map (·.told) = q.perStep.map (·.told))
        ((runSuite site shop).run (Terse.server true) w ()).1.1
        ((runSuite site shop).run (Terse.server false) w ()).1.1 := by
  obtain ⟨hb, ht⟩ := splits_shop
  obtain ⟨w, hterse⟩ := exists_terse_run hb ht
  have h := (decided_iff hb ht).2 noStray_shop Unit Unit (Terse.server true)
    (Terse.server false) w w () () rfl (agree_terse told_exchanges told_exchanges)
    (fun e he => not_blocksSuite_file (hterse true _ he))
    fun e he => not_blocksSuite_file (hterse false _ he)
  exact ⟨hb, ht, w, h⟩

/-- **Not only the primary calls decide,** although base and targets can be
split. -/
theorem undecided_suite :
    ¬∀ (c : Conduct) (s : Suite), Url.Splits c.baseUrl →
      (∀ target, s.Targets target → Url.Splits target) → Decided c s := fun h =>
  have ⟨hb, ht⟩ := splits_astray
  not_noStray_astray (noStray_of_decided hb ht (h bare astray hb ht))

end Walkthrough.Run
