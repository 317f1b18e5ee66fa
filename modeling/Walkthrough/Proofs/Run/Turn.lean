import Walkthrough.Proofs.Moment
import Walkthrough.Proofs.Report.Files
import Walkthrough.Proofs.Run.Kept
/-!
# The turn of a document

In a run over documents each has its turn: it is read, its plan is written, its
steps are carried out, and its result is written (`Turn.Taken`). The files it
leaves altered are those of its report and views (`Turn.Taken.report`). A run
that comes to results consists of such turns, one after the other, in the order
of the documents (`exists_turns`).
-/

namespace Walkthrough.Run

open FileTree Report

variable {c : Conduct} {w w' : World} {es : List Exchange} {path : String} {l : Location}

/-! ## What belongs to a report -/

/-- A file of the report of a document, by its slug, or a view. -/
def IsReport (slug : String) (l : Location) : Prop :=
  [slug, "meta.json"] <:+ l ∨ [slug, "result.json"] <:+ l ∨ IsView l

/-- What the file of a plan holds. -/
def planBytes (path : String) (bytes : List UInt8) : List UInt8 :=
  Text.toBytes (Suite.ofFile path bytes).plan.toIndented

/-- What the file of a result holds. -/
def resultBytes (r : SuiteResult) : List UInt8 := Text.toBytes r.toValue.toIndented

/-- Two names at the end of a place are these names. -/
theorem eq_of_isSuffix {a b d e : String} (h : [a, b] <:+ l) (h' : [d, e] <:+ l) :
    a = d ∧ b = e := by
  obtain ⟨front, rfl⟩ := h
  obtain ⟨front', heq⟩ := h'
  have hnames : [d, e] = [a, b] := (List.append_inj' heq rfl).2
  cases hnames
  exact ⟨rfl, rfl⟩

theorem getLast?_of_isSuffix {a b : String} (h : [a, b] <:+ l) : l.getLast? = some b := by
  obtain ⟨front, rfl⟩ := h
  simp

theorem not_isView_plan {slug : String} (h : [slug, "meta.json"] <:+ l) : ¬IsView l :=
  not_isView (getLast?_of_isSuffix h) (by decide) (by decide)

theorem not_isView_result {slug : String} (h : [slug, "result.json"] <:+ l) : ¬IsView l :=
  not_isView (getLast?_of_isSuffix h) (by decide) (by decide)

/-- The plan of a document is no report of another slug, -/
theorem not_isReport_plan {slug other : String} (h : [slug, "meta.json"] <:+ l)
    (hne : other ≠ slug) : ¬IsReport other l := by
  rintro (h' | h' | h')
  · exact hne (eq_of_isSuffix h' h).1
  · exact absurd (eq_of_isSuffix h' h).2 (by decide)
  · exact not_isView_plan h h'

/-- nor is its result. -/
theorem not_isReport_result {slug other : String} (h : [slug, "result.json"] <:+ l)
    (hne : other ≠ slug) : ¬IsReport other l := by
  rintro (h' | h' | h')
  · exact absurd (eq_of_isSuffix h' h).2 (by decide)
  · exact hne (eq_of_isSuffix h' h).1
  · exact not_isView_result h h'

/-- What a call enters in the chronicle, and the time it takes, decide whether
it keeps a relation throughout. -/
theorem throughout_single {α : Type} {R : World → World → Prop} (hrefl : ∀ w, R w w)
    (hcall : ∀ w tool args t, R w { w.record (.called tool args) with clock := t })
    {tool : String} {args : Arguments} (read : Answer → Except Fault α) :
    Act.Throughout R (Session.single tool args read) := by
  refine ⟨fun w es r w' hx => ?_, fun w => ?_⟩
  · rcases Session.way_single hx with ⟨-, a, -, -, rfl⟩ | ⟨-, -, -, rfl⟩
    · exact hcall _ _ _ _
    · exact hrefl _
  · unfold Session.single
    split
    · exact ⟨hcall w tool args w.clock, fun _ => trivial⟩
    · trivial

/-- **What views keep is kept throughout a step,** if it is kept as well by a call
and by what a session remembers. -/
theorem stepKept_of_viewKept {R : World → World → Prop} (h : ViewKept R)
    (hconnection : ∀ w conn, R w { w with connection := conn })
    (hcall : ∀ w tool args t, R w { w.record (.called tool args) with clock := t })
    (c : Conduct) : StepKept (Act.Throughout R) c := by
  have hcalls : CallKept (Act.Throughout R) := {
    closed := Act.closed_throughout h.refl h.trans
    call := throughout_single h.refl hcall
    script := fun ready => Act.throughout_ofUpdate fun w => hconnection w _ }
  exact {
    closed := hcalls.closed
    log := fun l => Act.throughout_ofUpdate (h.log l)
    look := fun _ => hcalls.call
    navigate := hcalls.navigate
    type := fun _ _ => hcalls.resolve _ _ _
    press := hcalls.press
    seek := fun _ => hcalls.resolve _ _ _
    page := fun _ markup => Act.throughout_ofUpdate (h.keepPage markup)
    snapshot := fun _ k image markup => Act.throughout_ofUpdate (h.writeSnapshot k image markup) }

/-- **Between plan and result nothing is written but views.** -/
theorem caseKept_views (c : Conduct) : CaseKept (Act.Throughout Views) c where
  toStepKept := stepKept_of_viewKept viewKept_views (fun _ _ => ⟨rfl, rfl, Alters.refl _ _⟩)
    (fun _ _ _ _ => ⟨rfl, rfl, Alters.refl _ _⟩) c
  print _ := Act.throughout_ofUpdate fun w => Views.refl w

/-! ## One turn -/

/-- The turn of a document: the suite that it reads as, its result, what is
exchanged about its steps, and the worlds in which the turn begins, in which
its plan has just been written, in which its steps have been carried out, and
in which it ends. -/
structure Turn where
  path : String
  suite : Suite
  result : SuiteResult
  exchanges : List Exchange
  before : World
  planned : World
  carriedOut : World
  finished : World

namespace Turn

/-- Where the plan of the document is. -/
def planPath (t : Turn) : String := Report.planPath t.before.desk.artifacts (some t.path)

/-- Where its result is. -/
def resultPath (t : Turn) : String := Report.resultPath t.before.desk.artifacts (some t.path)

/-- **A turn as it is taken:** each stage leads from one of its worlds to the
next. -/
structure Taken (c : Conduct) (t : Turn) : Prop where
  read : ∃ bytes, t.before.files.read t.path = .ok bytes ∧ t.suite = Suite.ofFile t.path bytes
  plan : writePlan t.suite t.before = (.ok t.planPath, t.planned)
  steps : (casesOf c t.suite).Way t.planned t.exchanges (.ok t.result.cases) t.carriedOut
  name : t.result.suite = t.suite.name
  source : t.result.source = some t.path
  finish : suiteFinished t.result t.carriedOut = (.ok (), t.finished)

namespace Taken

variable {t : Turn} (h : t.Taken c)
include h

theorem source_suite : t.suite.source = some t.path := by
  obtain ⟨bytes, -, hsuite⟩ := h.read
  rw [hsuite]
  rfl

/-- The result is that of the suite. -/
theorem result_eq : t.result = ⟨t.suite.name, t.suite.source, t.result.cases⟩ := by
  rw [← h.name, h.source_suite, ← h.source]

/-- While the steps are carried out the desk stays with the document. -/
theorem current : t.carriedOut.desk.artifacts = t.before.desk.artifacts ∧
    t.carriedOut.desk.current =
      some (documentDirectory t.before.desk.artifacts (some t.path)) := by
  obtain ⟨hartifacts, hcurrent, -⟩ := ((caseKept_views c).casesOf _).1 h.steps
  obtain ⟨-, hplanned, -⟩ := writePlan_eq_ok h.plan
  rw [hplanned, h.source_suite] at hcurrent
  rw [hplanned] at hartifacts
  exact ⟨hartifacts, hcurrent⟩

theorem artifacts : t.finished.desk.artifacts = t.before.desk.artifacts := by
  obtain ⟨hartifacts, hcurrent⟩ := h.current
  rw [(suiteFinished_eq_ok h.finish hcurrent).1]
  exact hartifacts

/-- The plan stands once it is written, -/
theorem read_planned : t.planned.files.read t.planPath =
    .ok (Text.toBytes t.suite.plan.toIndented) := by
  obtain ⟨-, -, _, -, hwrite⟩ := writePlan_eq_ok h.plan
  exact read_of_write hwrite (asksForDirectory_child (by decide) (by decide))

/-- and so does the result. -/
theorem read_finished : t.finished.files.read t.resultPath = .ok (resultBytes t.result) :=
  read_of_write (suiteFinished_eq_ok h.finish h.current.2).2
    (asksForDirectory_child (by decide) (by decide))

/-- The result is written beside the plan. -/
theorem alters_finish :
    Alters ([slugOf (some t.path), "result.json"] <:+ ·) t.carriedOut.files t.finished.files :=
  alters_write (suiteFinished_eq_ok h.finish h.current.2).2 fun _ hl => place_of_resultPath hl

/-- **The plan still stands at the end:** neither views nor the result are
written over it. -/
theorem read_plan : t.finished.files.read t.planPath =
    .ok (Text.toBytes t.suite.plan.toIndented) := by
  obtain ⟨-, -, hviews⟩ := ((caseKept_views c).casesOf _).1 h.steps
  have hcarried := hviews.read (fun _ hl => not_isView_plan (place_of_planPath hl)) h.read_planned
  refine h.alters_finish.read (fun _ hl h' => ?_) hcarried
  exact absurd (eq_of_isSuffix h' (place_of_planPath hl)).2 (by decide)

/-- **What a turn leaves altered:** the report of its document, and views. -/
theorem report : Alters (IsReport (slugOf (some t.path))) t.before.files t.finished.files := by
  obtain ⟨-, -, hviews⟩ := ((caseKept_views c).casesOf _).1 h.steps
  obtain ⟨hpath, -, made, hmade, hwrite⟩ := writePlan_eq_ok h.plan
  have hplanned : Alters (IsReport (slugOf (some t.path))) made t.planned.files :=
    alters_write hwrite fun _ hl => .inl (place_of_planPath hl)
  have hbefore := (hmade.mono fun _ => False.elim).trans hplanned
  have hviewed := hbefore.trans (hviews.mono fun _ hl => .inr (.inr hl))
  exact hviewed.trans (h.alters_finish.mono fun _ hl => .inr (.inl hl))

end Taken

end Turn

/-- A document that can be read is carried out as the suite that it states. -/
theorem runFile_of_read {bytes : List UInt8} (h : w.files.read path = .ok bytes) :
    runFile c path w = runSuite c (Suite.ofFile path bytes) w := by
  have hreads : Update.readFile path w = (.ok bytes, w) := by
    rw [Update.readFile_eq, h]
    rfl
  exact Act.ofUpdate_bind hreads

/-- **A document that comes to a result has had its turn.** -/
theorem exists_turn {r : SuiteResult} (h : (runFile c path).Way w es (.ok r) w') :
    ∃ t : Turn, t.Taken c ∧ t.path = path ∧ t.result = r ∧ t.exchanges = es ∧ t.before = w ∧
      t.finished = w' := by
  unfold runFile at h
  obtain ⟨bytes, w₀, _, _, h₀, hsuite, rfl⟩ := Act.way_bind_ok h
  obtain ⟨rfl, hreads⟩ := Act.way_ofUpdate_iff.1 h₀
  obtain ⟨hread, rfl⟩ := Update.readFile_eq_ok hreads.symm
  rw [runSuite_eq] at hsuite
  obtain ⟨plan, w₁, _, _, h₁, hcases, rfl⟩ := Act.way_bind_ok hsuite
  obtain ⟨rfl, hplan⟩ := Act.way_ofUpdate_iff.1 h₁
  obtain ⟨rs, w₂, fs, _, hsteps, hend, rfl⟩ := Act.way_bind_ok hcases
  obtain ⟨_, w₃, _, _, h₃, hpure, rfl⟩ := Act.way_bind_ok hend
  obtain ⟨rfl, hfinish⟩ := Act.way_ofUpdate_iff.1 h₃
  obtain ⟨rfl, hr, rfl⟩ := Act.way_pure_iff.1 hpure
  cases hr
  rw [(writePlan_eq_ok hplan.symm).1] at hplan
  exact ⟨⟨path, Suite.ofFile path bytes, _, fs, w₀, w₁, w₂, w'⟩,
    ⟨⟨bytes, hread, rfl⟩, hplan.symm, hsteps, rfl, rfl, hfinish.symm⟩, rfl, rfl, by simp, rfl, rfl⟩

/-- A document that has had its turn comes to its result. -/
theorem Turn.Taken.way_runFile {t : Turn} (h : t.Taken c) :
    (runFile c t.path).Way t.before t.exchanges (.ok t.result) t.finished := by
  obtain ⟨bytes, hread, hsuite⟩ := h.read
  unfold Act.Way
  rw [runFile_of_read hread, ← hsuite, runSuite_eq]
  refine (Act.way_ofUpdate_bind h.plan).2 ?_
  refine Act.way_bind_iff.2 (.inl ⟨_, _, _, [], h.steps, ?_, by simp⟩)
  rw [← h.result_eq]
  refine (Act.way_ofUpdate_bind h.finish).2 ?_
  exact Act.way_pure_iff.2 ⟨rfl, rfl, rfl⟩

/-! ## One turn after the other -/

/-- **Turns, one after the other,** from a world to a world, and what is
exchanged in all of them. -/
inductive Turns (c : Conduct) : World → List Exchange → List Turn → World → Prop
  | nil (w : World) : Turns c w [] [] w
  | cons {t : Turn} {es : List Exchange} {ts : List Turn} {w' : World} (h : t.Taken c)
    (hrest : Turns c t.finished es ts w') : Turns c t.before (t.exchanges ++ es) (t :: ts) w'

theorem way_each_cons {α β : Type} {f : α → Act β} {a : α} {as : List α} {bs : List β}
    (h : (each f (a :: as)).Way w es (.ok bs) w') :
    ∃ b bs' w₁ es₁ es₂, (f a).Way w es₁ (.ok b) w₁ ∧ (each f as).Way w₁ es₂ (.ok bs') w' ∧
      bs = b :: bs' ∧ es = es₁ ++ es₂ := by
  unfold each at h
  obtain ⟨b, w₁, es₁, es₂, h₁, hrest, rfl⟩ := Act.way_bind_ok h
  obtain ⟨bs', h₂, rfl⟩ := Act.way_bind_pure_iff.1 hrest
  exact ⟨b, bs', w₁, es₁, es₂, h₁, h₂, rfl, rfl⟩

/-- **Documents that come to results have had their turns** in order. -/
theorem exists_turns {paths : List String} {rs : List SuiteResult}
    (h : (each (runFile c) paths).Way w es (.ok rs) w') :
    ∃ ts, Turns c w es ts w' ∧ ts.map (·.path) = paths ∧ ts.map (·.result) = rs := by
  induction paths generalizing w es rs with
  | nil =>
    obtain ⟨rfl, hrs, rfl⟩ := Act.way_pure_iff.1 h
    exact ⟨[], .nil w', rfl, (Except.ok.inj hrs).symm⟩
  | cons path rest ih =>
    obtain ⟨r, rs', w₁, es₁, es₂, h₁, h₂, rfl, rfl⟩ := way_each_cons h
    obtain ⟨t, htaken, hpath, hr, rfl, rfl, rfl⟩ := exists_turn h₁
    obtain ⟨ts, hts, hpaths, hrs⟩ := ih h₂
    refine ⟨t :: ts, .cons htaken hts, ?_, ?_⟩
    · rw [List.map_cons, hpath, hpaths]
    · rw [List.map_cons, hr, hrs]

/-- A run over documents carries out one after the other. -/
theorem way_runFiles_iff {paths : List String} {summary : RunSummary} :
    (runFiles c paths).Way w es (.ok summary) w' ↔
      (each (runFile c) paths).Way w es (.ok summary.results) w' := by
  refine Act.way_bind_pure_iff.trans ⟨?_, fun h => ⟨summary.results, h, rfl⟩⟩
  rintro ⟨rs, heach, rfl⟩
  exact heach

namespace Turns

variable {ts : List Turn}

/-- Documents that have had their turns come to their results. -/
theorem way_each (h : Turns c w es ts w') :
    (each (runFile c) (ts.map (·.path))).Way w es (.ok (ts.map (·.result))) w' := by
  induction h with
  | nil w => exact Act.way_pure_iff.2 ⟨rfl, rfl, rfl⟩
  | @cons t es ts w' ht _ ih =>
    refine Act.way_bind_iff.2 (.inl ⟨_, _, _, _, ht.way_runFile, ?_, rfl⟩)
    exact Act.way_bind_pure_iff.2 ⟨_, ih, rfl⟩

/-- All turns write to one directory. -/
theorem artifacts (h : Turns c w es ts w') :
    w'.desk.artifacts = w.desk.artifacts ∧
      ∀ t ∈ ts, t.Taken c ∧ t.before.desk.artifacts = w.desk.artifacts := by
  induction h with
  | nil w => exact ⟨rfl, by simp⟩
  | @cons t es ts w' ht _ ih =>
    rw [ht.artifacts] at ih
    refine ⟨ih.1, fun u hu => ?_⟩
    rcases List.mem_cons.1 hu with rfl | hu
    · exact ⟨ht, rfl⟩
    · exact ih.2 u hu

/-- **What all turns leave altered:** the reports of their documents, and
views. -/
theorem reports (h : Turns c w es ts w') :
    Alters (fun l => ∃ t ∈ ts, IsReport (slugOf (some t.path)) l) w.files w'.files := by
  induction h with
  | nil w => exact Alters.refl _ _
  | @cons t es ts w' ht _ ih =>
    refine (ht.report.mono fun l hl => ⟨t, List.mem_cons_self, hl⟩).trans ?_
    exact ih.mono fun l ⟨u, hu, hl⟩ => ⟨u, List.mem_cons_of_mem _ hu, hl⟩

end Turns

end Walkthrough.Run
