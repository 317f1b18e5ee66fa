import Walkthrough.Proofs.Chronicle
import Walkthrough.Proofs.Run.Suite
import Walkthrough.Proofs.Run.Turn
/-!
# What a turn enters in the chronicle

The chronicle only grows, and what one part of a run adds to it can be told: the
notices that are printed, and that no file is written but views (`Adds`). A step
adds the mark of its outcome and no other notice (`adds_runStep`). So between
the notice that starts a suite and the one that finishes it stand the marks of
its outcomes in order, case by case (`Turn.Taken.notices`), and the files of a
turn are its plan, views and its result (`Turn.Taken.written`).
-/

namespace Walkthrough

/-- What is printed about an outcome: a check mark, or else a cross and the
reason. -/
def Outcome.mark (o : Outcome) : Notice :=
  if o.passed then .stepPassed o.step else .stepFailed o.step o.reason

/-- What is printed about a case: its title, then the marks of its outcomes. -/
def CaseResult.notices (r : CaseResult) : List Notice :=
  .caseStarted r.title :: r.outcomes.map (·.mark)

namespace Run

open Report

variable {c : Conduct} {w w' w'' : World} {es : List Exchange} {ns ms : List Notice}

/-- **What is added to the chronicle:** the given notices, and no file but
views. -/
def Adds (ns : List Notice) (w w' : World) : Prop :=
  ∃ more, w'.chronicle = w.chronicle ++ more ∧ Chronicle.notices more = ns ∧
    ∀ f ∈ Chronicle.written more, IsViewPath f.1

theorem Adds.refl (w : World) : Adds [] w w :=
  ⟨[], (List.append_nil _).symm, rfl, by simp [Chronicle.written]⟩

theorem Adds.trans (h₁ : Adds ns w w') (h₂ : Adds ms w' w'') : Adds (ns ++ ms) w w'' := by
  obtain ⟨more₁, hw', rfl, hwritten₁⟩ := h₁
  obtain ⟨more₂, hw'', rfl, hwritten₂⟩ := h₂
  refine ⟨more₁ ++ more₂, by rw [hw'', hw', List.append_assoc], Chronicle.notices_append, ?_⟩
  intro f hf
  rw [Chronicle.written_append] at hf
  rcases List.mem_append.1 hf with hf | hf
  · exact hwritten₁ f hf
  · exact hwritten₂ f hf

/-- Where the chronicle has not changed, nothing is added. -/
theorem adds_of_eq (h : w'.chronicle = w.chronicle) : Adds [] w w' :=
  ⟨[], by rw [h, List.append_nil], rfl, by simp [Chronicle.written]⟩

/-- One entry that is neither a notice nor a file adds nothing. -/
theorem adds_record {e : Happening} (hn : Chronicle.notices [e] = [])
    (hf : Chronicle.written [e] = []) : Adds [] w (w.record e) :=
  ⟨[e], rfl, hn, by simp [hf]⟩

theorem adds_print (n : Notice) : Adds [n] w (w.record (.printed n)) :=
  ⟨[.printed n], rfl, rfl, by simp [Chronicle.written]⟩

theorem viewKept_adds : ViewKept (Adds []) where
  refl := Adds.refl
  trans h₁ h₂ := h₁.trans h₂
  pages _ _ := adds_of_eq rfl
  directory path := by
    intro w
    rw [Update.makeDirectory_snd]
    exact adds_of_eq rfl
  view {path} bytes hpath := by
    intro w
    unfold Update.writeFile
    split
    · exact ⟨_, rfl, rfl, by simpa [Chronicle.written] using hpath⟩
    · exact Adds.refl w
  log _ _ := adds_record rfl rfl

/-- **A step prints nothing while it is carried out,** and writes views only. -/
theorem stepKept_adds (c : Conduct) : StepKept (Act.Throughout (Adds [])) c :=
  stepKept_of_viewKept viewKept_adds (fun _ _ => adds_of_eq rfl)
    (fun _ _ _ _ => ⟨_, rfl, rfl, by simp [Chronicle.written]⟩) c

/-! ## Marks -/

/-- **What an act prints where it comes to a value,** and that the value is of a
kind. No file is written but views. -/
def Tells {α : Type} (x : Act α) (P : α → Prop) (notices : α → List Notice) : Prop :=
  ∀ ⦃w : World⦄ ⦃es : List Exchange⦄ ⦃a : α⦄ ⦃w' : World⦄, x.Way w es (.ok a) w' →
    P a ∧ Adds (notices a) w w'

theorem announce_eq (o : Outcome) : announce o = .print o.mark := by
  unfold announce Outcome.mark
  split
  · rfl
  · rfl

/-- **A step prints the mark of its outcome.** -/
theorem tells_runStep (c : Conduct) (title raw : String) :
    Tells (runStep c title raw) (fun o => o.flat = ⟨title, raw⟩ ∧ o.Sound) fun o => [o.mark] := by
  intro w es o w' h
  unfold runStep at h
  rw [Act.way_read_bind] at h
  obtain ⟨r, w₁, es₁, es₂, hx, h, -⟩ := Act.way_attempt_bind.1 h
  rcases Act.way_ofExcept_bind.1 h with ⟨reason, -, h⟩ | ⟨e, -, -, hr, -⟩
  · rw [Act.way_read_bind] at h
    obtain ⟨_, w₂, _, _, hprint, hpure, -⟩ := Act.way_bind_ok h
    obtain ⟨-, ho, rfl⟩ := Act.way_pure_iff.1 hpure
    cases ho
    refine ⟨⟨flat_outcomeOf .., sound_outcomeOf ..⟩, ?_⟩
    have hexecute : Adds [] w w₁ := ((stepKept_adds c).execute raw).1 hx
    refine hexecute.trans ?_
    rw [announce_eq] at hprint
    have hw' : w' = w₁.record (.printed _) := congrArg Prod.snd (Act.way_ofUpdate_iff.1 hprint).2
    rw [hw']
    exact adds_print _
  · cases hr

/-- Acts in order print what each of them does, in order. -/
theorem tells_each {α β : Type} {f : α → Act β} {P : α → β → Prop} {notices : β → List Notice}
    (hf : ∀ a, Tells (f a) (P a) notices) (as : List α) :
    Tells (each f as) (List.Forall₂ P as) (·.flatMap notices) := by
  induction as with
  | nil =>
    intro w es bs w' h
    obtain ⟨-, hbs, rfl⟩ := Act.way_pure_iff.1 h
    cases hbs
    exact ⟨.nil, Adds.refl w'⟩
  | cons a rest ih =>
    intro w es bs w' h
    obtain ⟨b, bs', w₁, es₁, es₂, h₁, h₂, rfl, -⟩ := way_each_cons h
    obtain ⟨hb, hadds⟩ := hf a h₁
    obtain ⟨hbs, hrest⟩ := ih h₂
    exact ⟨.cons hb hbs, hadds.trans hrest⟩

/-- **A case prints its title, then the marks of its outcomes.** -/
theorem tells_runCase (c : Conduct) (case : Case) :
    Tells (runCase c case) (·.Covers case) (·.notices) := by
  intro w es r w' h
  unfold runCase at h
  obtain ⟨_, w₁, _, _, hprint, h, -⟩ := Act.way_bind_ok h
  obtain ⟨os, w₂, _, _, heach, hpure, -⟩ := Act.way_bind_ok h
  obtain ⟨-, hr, rfl⟩ := Act.way_pure_iff.1 hpure
  cases hr
  have hw₁ : w₁ = w.record (.printed (.caseStarted case.title)) :=
    congrArg Prod.snd (Act.way_ofUpdate_iff.1 hprint).2
  obtain ⟨hos, hadds⟩ := tells_each (tells_runStep c case.title) case.steps heach
  dsimp only at hadds
  rw [← List.map_eq_flatMap, hw₁] at hadds
  exact ⟨covers_of_steps hos, (adds_print _).trans hadds⟩

/-- **Between plan and result a suite prints** that it starts, then its cases. -/
theorem tells_casesOf (c : Conduct) (s : Suite) :
    Tells (casesOf c s) (List.Forall₂ (fun case r => r.Covers case) s.cases) fun rs =>
      .suiteStarted s.name s.source s.stepCount :: rs.flatMap (·.notices) := by
  intro w es rs w' h
  unfold casesOf at h
  obtain ⟨_, w₁, _, _, hprint, h, -⟩ := Act.way_bind_ok h
  have hw₁ : w₁ = w.record (.printed (.suiteStarted s.name s.source s.stepCount)) :=
    congrArg Prod.snd (Act.way_ofUpdate_iff.1 hprint).2
  have hcases : ∀ {w es}, (each (runCase c) s.cases).Way w es (.ok rs) w' → _ :=
    fun h => tells_each (tells_runCase c) s.cases h
  have hstarts := adds_print (w := w) (.suiteStarted s.name s.source s.stepCount)
  rw [← hw₁] at hstarts
  split at h
  · obtain ⟨_, w₂, _, _, hopen, heach, -⟩ := Act.way_bind_ok h
    obtain ⟨hrs, hadds⟩ := hcases heach
    have hopened : Adds [] w₁ w₂ := (stepKept_adds c).openRoot.1 hopen
    exact ⟨hrs, hstarts.trans (hopened.trans hadds)⟩
  · obtain ⟨hrs, hadds⟩ := hcases h
    exact ⟨hrs, hstarts.trans hadds⟩

/-! ## Turns -/

namespace Turn

/-- What a turn enters in the chronicle. -/
def entries (t : Turn) : Chronicle := t.finished.chronicle.drop t.before.chronicle.length

namespace Taken

variable {t : Turn} (h : t.Taken c)
include h

/-- **The result of a turn accounts for its suite,** step by step. -/
theorem covers : t.result.Covers t.suite := by
  rw [h.result_eq]
  exact covers_of_cases (tells_casesOf c t.suite h.steps).1

/-- **The entries of a turn:** the file of the plan, what is entered about the
cases, and the file of the result with the notice that announces it. -/
theorem exists_entries : ∃ more,
    t.finished.chronicle = t.before.chronicle ++ t.entries ∧
    t.entries = .wrote t.planPath (Text.toBytes t.suite.plan.toIndented) :: (more ++
      [.wrote t.resultPath (resultBytes t.result),
        .printed (.suiteFinished (some t.path) t.result.passed t.result.failed)]) ∧
    Chronicle.notices more = .suiteStarted t.suite.name (some t.path) t.suite.stepCount ::
      t.result.cases.flatMap (·.notices) ∧
    ∀ f ∈ Chronicle.written more, IsViewPath f.1 := by
  obtain ⟨-, more, hsteps, hnotices, hwritten⟩ := tells_casesOf c t.suite h.steps
  have hplanned := congrArg World.chronicle (writePlan_eq_ok h.plan).2.1
  have hfinished := congrArg World.chronicle (suiteFinished_eq_ok h.finish h.current.2).1
  dsimp only at hplanned hfinished
  rw [hsteps, hplanned, h.source] at hfinished
  rw [h.source_suite] at hnotices
  have hgrown : t.finished.chronicle = t.before.chronicle ++
      .wrote t.planPath (Text.toBytes t.suite.plan.toIndented) :: (more ++
        [.wrote t.resultPath (resultBytes t.result),
          .printed (.suiteFinished (some t.path) t.result.passed t.result.failed)]) := by
    rw [hfinished, List.append_assoc, List.append_assoc]
    rfl
  have hentries := congrArg (List.drop t.before.chronicle.length) hgrown
  rw [List.drop_left] at hentries
  exact ⟨more, by rw [hgrown, entries, hentries], hentries, hnotices, hwritten⟩

/-- **What a turn prints:** that its suite starts, its cases with the marks of
their outcomes, and how many passed and failed. -/
theorem notices : Chronicle.notices t.entries =
    .suiteStarted t.suite.name (some t.path) t.suite.stepCount ::
      (t.result.cases.flatMap (·.notices) ++
        [.suiteFinished (some t.path) t.result.passed t.result.failed]) := by
  obtain ⟨more, -, hentries, hnotices, -⟩ := h.exists_entries
  rw [hentries]
  refine Chronicle.notices_append.trans ?_
  rw [hnotices]
  rfl

/-- **What a turn writes:** its plan, views, and its result. -/
theorem written : ∃ views,
    Chronicle.written t.entries =
      (t.planPath, Text.toBytes t.suite.plan.toIndented) ::
        (views ++ [(t.resultPath, resultBytes t.result)]) ∧
    ∀ f ∈ views, IsViewPath f.1 := by
  obtain ⟨more, -, hentries, -, hviews⟩ := h.exists_entries
  refine ⟨Chronicle.written more, ?_, hviews⟩
  rw [hentries, Chronicle.written_wrote, Chronicle.written_append, Chronicle.written_wrote,
    Chronicle.written_printed]
  rfl

end Taken

end Turn

/-- **The chronicle of turns** is what each of them enters, in order. -/
theorem Turns.chronicle {ts : List Turn} (h : Turns c w es ts w') :
    w'.chronicle = w.chronicle ++ ts.flatMap (·.entries) := by
  induction h with
  | nil w => exact (List.append_nil _).symm
  | @cons t es ts w' ht _ ih =>
    obtain ⟨-, hgrown, -⟩ := ht.exists_entries
    rw [ih, hgrown, List.append_assoc, List.flatMap_cons]

end Run

end Walkthrough
