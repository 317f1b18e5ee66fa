import Walkthrough.Proofs.Outcome.Record
import Walkthrough.Proofs.Run.Lasting
/-!
# Views of a run

What came of the steps of a document can be seen in four places: in the marks
printed one by one, in the line that sums them up, in the file of its result,
and in the exit status of the run. Each is computed in its own way, and all of
them agree (`views_agree`). What the file states is read from its text: the
text is that of a record, and a reader gets the record back but for the
spelling of durations.
-/

namespace Walkthrough

open Json

/-! ## Marks -/

theorem Outcome.isTick_mark (o : Outcome) : o.mark.isTick = o.passed := by
  rw [Notice.isTick_eq]
  unfold mark
  cases o.passed with
  | true => rfl
  | false => simp [Notice.front]

theorem Outcome.isCross_mark (o : Outcome) : o.mark.isCross = !o.passed := by
  rw [Notice.isCross_eq]
  unfold mark
  cases o.passed with
  | true => simp [Notice.front]
  | false => simp [Notice.front]

theorem Outcome.isMark_mark (o : Outcome) : o.mark.isMark = true := by
  unfold Notice.isMark
  rw [o.isTick_mark, o.isCross_mark, Bool.or_not_self]

/-- **What the mark of an outcome is:** a check mark just where the step went
well, and else a cross with the reason. -/
theorem Outcome.Sound.text_mark {o : Outcome} (h : o.Sound) :
    (o.status = .ok ∧ o.mark.text = "   ✓ " ++ o.step ++ "\n") ∨
    ∃ reason, o.status = .failed ∧ o.reason = some reason ∧
      o.mark.text = "   ✕ " ++ o.step ++ "  (" ++ reason ++ ")\n" := by
  cases hstatus : o.status with
  | ok =>
    have hmark : o.mark = .stepPassed o.step := if_pos ((Outcome.passed_iff o).2 hstatus)
    rw [hmark]
    exact .inl ⟨rfl, rfl⟩
  | failed =>
    obtain ⟨reason, hreason⟩ := Option.isSome_iff_exists.1 (h.reason.2 hstatus)
    have hmark : o.mark = .stepFailed o.step o.reason := by
      unfold Outcome.mark
      rw [if_neg (by simp [Outcome.passed, hstatus])]
    rw [hmark, hreason]
    exact .inr ⟨reason, rfl, rfl, rfl⟩

/-- The title of a case is no mark. -/
theorem isMark_caseStarted (title : String) : (Notice.caseStarted title).isMark = false := by
  simp [Notice.isMark, Notice.isTick_eq, Notice.isCross_eq, Notice.front]

/-! ## What the cases of a suite print -/

namespace SuiteResult

variable (r : SuiteResult)

/-- What is printed about the cases of a suite. -/
def notices : List Notice := r.cases.flatMap (·.notices)

/-- **One mark for each outcome,** in order. -/
theorem filter_isMark_notices : r.notices.filter (·.isMark) = r.perStep.map (·.mark) := by
  have hcase (k : CaseResult) : k.notices.filter (·.isMark) = k.outcomes.map (·.mark) := by
    unfold CaseResult.notices
    rw [List.filter_cons_of_neg (by simp [isMark_caseStarted]), List.filter_eq_self]
    intro n hn
    obtain ⟨o, -, rfl⟩ := List.mem_map.1 hn
    exact o.isMark_mark
  unfold notices perStep
  rw [List.filter_flatMap, List.map_flatMap]
  simp only [hcase]

theorem countP_notices {p : Notice → Bool} (hp : ∀ n : Notice, p n = true → n.isMark = true) :
    r.notices.countP p = r.perStep.countP fun o => p o.mark := by
  have hmarks : r.notices.countP p = (r.notices.filter (·.isMark)).countP p := by
    rw [List.countP_filter]
    refine List.countP_congr fun n _ => ?_
    rw [Bool.and_eq_true]
    exact ⟨fun h => ⟨h, hp n h⟩, fun h => h.1⟩
  rw [hmarks, filter_isMark_notices, List.countP_map]
  rfl

/-- **There are as many check marks as passed steps,** -/
theorem ticks_notices : ticks r.notices = r.passed := by
  unfold ticks passed
  rw [countP_notices r fun n h => by simp [Notice.isMark, h]]
  simp only [Outcome.isTick_mark]

/-- and as many crosses as failed ones. -/
theorem crosses_notices : crosses r.notices = r.failed := by
  unfold crosses failed
  rw [countP_notices r fun n h => by simp [Notice.isMark, h]]
  simp only [Outcome.isCross_mark]

end SuiteResult

/-! ## Turns -/

namespace Run

variable {c : Conduct} {w w' : World} {es : List Exchange} {t : Turn}

namespace Turn

/-- The word for a document without failures was printed in the turn. -/
def Passes (t : Turn) : Prop := ∃ n ∈ t.entries.notices, n.saysPass = true

/-- The word for a document with failures was printed in the turn. -/
def Fails (t : Turn) : Prop := ∃ n ∈ t.entries.notices, n.saysFail = true

/-- **The views of a turn agree.** Between the line that starts the suite and
the line that sums it up there is a mark for each outcome, in order; the sums are
those of the marks; and the file of the result, read or not, states these sums,
and that all went well just where the line says so. -/
structure Agrees (t : Turn) (between : List Notice) (text : String) : Prop where
  printed : t.entries.notices =
    .suiteStarted t.suite.name (some t.path) t.suite.stepCount ::
      (between ++ [.suiteFinished (some t.path) (ticks between) (crosses between)])
  covers : t.result.Covers t.suite
  marks : between.filter (·.isMark) = t.result.perStep.map (·.mark)
  texts : ∀ o ∈ t.result.perStep,
    (o.status = .ok ∧ o.mark.text = "   ✓ " ++ o.step ++ "\n") ∨
    ∃ reason, o.status = .failed ∧ o.reason = some reason ∧
      o.mark.text = "   ✕ " ++ o.step ++ "  (" ++ reason ++ ")\n"
  summed : (Notice.suiteFinished (some t.path) (ticks between) (crosses between)).text =
    if crosses between = 0 then
      "\n PASS " ++ t.path ++ " (" ++ toString (ticks between) ++ "/" ++
        toString (ticks between + crosses between) ++ ")\n\n"
    else
      "\n FAIL " ++ t.path ++ " (" ++ toString (ticks between) ++ " passed, " ++
        toString (crosses between) ++ " failed)\n\n"
  passes : t.Passes ↔ crosses between = 0
  fails : t.Fails ↔ crosses between ≠ 0
  file : t.entries.written.filter (·.1 = t.resultPath) = [(t.resultPath, Text.toBytes text)]
  stated : ∃ v, text = v.toIndented ∧ States v (ticks between) (crosses between)
  read : ticks between + crosses between < integerBound →
    ∃ v, Value.parse? text = some v ∧ States v (ticks between) (crosses between)

namespace Taken

variable (h : t.Taken c)
include h

/-- **The verdict is spoken once,** by the last line of the turn. -/
theorem exists_notices_iff {p : Notice → Bool}
    (hp : ∀ n : Notice, p n = true → n.front = "\n PASS " ∨ n.front = "\n FAIL ") :
    (∃ n ∈ t.entries.notices, p n = true) ↔
      p (.suiteFinished (some t.path) t.result.passed t.result.failed) = true := by
  rw [h.notices]
  refine ⟨?_, fun hlast => ⟨_, by simp, hlast⟩⟩
  rintro ⟨n, hn, hpn⟩
  have hfront := hp n hpn
  rcases List.mem_cons.1 hn with rfl | hn
  · simp [Notice.front] at hfront
  rcases List.mem_append.1 hn with hn | hn
  · obtain ⟨k, -, hn⟩ := List.mem_flatMap.1 hn
    rcases List.mem_cons.1 hn with rfl | hn
    · simp [Notice.front] at hfront
    · obtain ⟨o, -, rfl⟩ := List.mem_map.1 hn
      unfold Outcome.mark at hfront
      cases hpassed : o.passed with
      | true => simp [hpassed, Notice.front] at hfront
      | false => simp [hpassed, Notice.front] at hfront
  · rwa [← List.mem_singleton.1 hn]

theorem passes_iff : t.Passes ↔ t.result.failed = 0 := by
  refine (h.exists_notices_iff fun n hn => .inl ?_).trans ?_
  · rwa [Notice.saysPass_eq, decide_eq_true_iff] at hn
  · rw [Notice.saysPass_eq, decide_eq_true_iff]
    by_cases hfailed : t.result.failed = 0
    · simp [Notice.front, hfailed]
    · simp [Notice.front, hfailed]

theorem fails_iff : t.Fails ↔ t.result.failed ≠ 0 := by
  refine (h.exists_notices_iff fun n hn => .inr ?_).trans ?_
  · rwa [Notice.saysFail_eq, decide_eq_true_iff] at hn
  · rw [Notice.saysFail_eq, decide_eq_true_iff]
    by_cases hfailed : t.result.failed = 0
    · simp [Notice.front, hfailed]
    · simp [Notice.front, hfailed]

/-- **The views of a turn that was taken agree.** -/
theorem agrees : t.Agrees t.result.notices t.result.toValue.toIndented where
  printed := by
    rw [SuiteResult.ticks_notices, SuiteResult.crosses_notices]
    exact h.notices
  covers := h.covers
  marks := t.result.filter_isMark_notices
  texts o ho := (h.covers.sound o ho).text_mark
  summed := rfl
  passes := by rw [SuiteResult.crosses_notices, h.passes_iff]
  fails := by rw [SuiteResult.crosses_notices, h.fails_iff]
  file := h.written_report .result
  stated := by
    rw [SuiteResult.ticks_notices, SuiteResult.crosses_notices]
    exact ⟨_, rfl, t.result.states⟩
  read hfew := by
    rw [SuiteResult.ticks_notices, SuiteResult.crosses_notices,
      t.result.passed_add_failed] at hfew
    rw [SuiteResult.ticks_notices, SuiteResult.crosses_notices]
    exact t.result.read_states hfew

end Taken

end Turn

/-- **What a run tells agrees.** After a run over documents that returns, each
document has had its turn, in order, and the chronicle is what the turns have
entered. In each turn the marks of the steps, the line that sums them up and the
file of the result agree, and the exit status is zero just where every turn
printed that its document passed. -/
theorem views_agree {paths : List String} {summary : RunSummary}
    (h : (runFiles c paths).Way w es (.ok summary) w') :
    ∃ ts, Turns c w es ts w' ∧ ts.map (·.path) = paths ∧ ts.map (·.result) = summary.results ∧
      w'.chronicle = w.chronicle ++ ts.flatMap (·.entries) ∧
      (∀ t ∈ ts, ∃ between text, t.Agrees between text) ∧
      (summary.exitCode = 0 ↔ ∀ t ∈ ts, t.Passes) := by
  obtain ⟨ts, hturns, hpaths, hresults⟩ := exists_turns (way_runFiles_iff.1 h)
  have htaken t (ht : t ∈ ts) := (hturns.artifacts.2 t ht).1
  refine ⟨ts, hturns, hpaths, hresults, hturns.chronicle, fun t ht => ?_, ?_⟩
  · exact ⟨_, _, (htaken t ht).agrees⟩
  · rw [RunSummary.exitCode_eq_zero_iff, ← hresults, List.forall_mem_map]
    exact forall₂_congr fun t ht => (htaken t ht).passes_iff.symm

/-- A world with one document of two steps. -/
def larder : World where
  connection := atWork.connection
  desk := atWork.desk
  files := FileTree.ofList
    [("tests/md/shop.md", .file (Text.toBytes "- /shop に移動\n- 保存 をクリック\n"))]

/-- With an unwilling server one of the two steps fails, and all views say so. -/
theorem views_agree_larder :
    ∃ es summary w', (runFiles site ["tests/md/shop.md"]).Way larder es (.ok summary) w' ∧
      summary.exitCode = 1 ∧
      ∃ t between text, Turns site larder es [t] w' ∧ t.path = "tests/md/shop.md" ∧
        t.Agrees between text ∧ ¬t.Passes := by
  have hcode : (((runFiles site ["tests/md/shop.md"]).run unwilling larder ()).1.1).toOption.map
      (·.exitCode) = some 1 := by decide +kernel
  have h := Act.way_run unwilling (runFiles site ["tests/md/shop.md"]) larder ()
  cases hresult : ((runFiles site ["tests/md/shop.md"]).run unwilling larder ()).1.1 with
  | error e =>
    rw [hresult] at hcode
    cases hcode
  | ok summary =>
    rw [hresult] at h hcode
    have hcode : summary.exitCode = 1 := Option.some.inj hcode
    obtain ⟨ts, hturns, hpaths, -, -, hagree, hexit⟩ := views_agree h
    obtain ⟨t, rfl, hpath⟩ := List.map_eq_singleton_iff.1 hpaths
    obtain ⟨between, text, ht⟩ := hagree t (List.mem_singleton_self t)
    refine ⟨_, summary, _, h, hcode, t, between, text, hturns, hpath, ht, fun hpasses => ?_⟩
    rw [hexit.2 fun u hu => List.mem_singleton.1 hu ▸ hpasses] at hcode
    cases hcode

end Run

end Walkthrough
