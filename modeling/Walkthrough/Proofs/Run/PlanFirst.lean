import Walkthrough.Proofs.Run.Lasting
/-!
# The plan comes first

In a run over documents the plan of a document is written before anything is
asked for it, and its result after everything (`plan_first`). Both are said of
the worlds in which things are asked: in each of them the plan stands, and no
result has been written since the document was begun. A plan that cannot be
written ends the run at once.

What carries this is that between plan and result nothing is written but views,
and that this is so throughout (`caseKept_views`): a view is neither the plan nor
the result.
-/

namespace Walkthrough.Run

open FileTree Report

variable {c : Conduct} {w w' m : World} {es : List Exchange} {path artifacts : String}
  {source : Option String}

/-! ## A result that is not written -/

/-- **The result of a document is not written:** no entry says that it is, and
where it could be no file is altered. -/
structure Spares (artifacts : String) (source : Option String) (w m : World) : Prop where
  entries : ∃ more, m.chronicle = w.chronicle ++ more ∧
    ∀ f ∈ Chronicle.written more, f.1 ≠ resultPath artifacts source
  places : Alters (fun l => ¬[slugOf source, "result.json"] <:+ l) w.files m.files

theorem spares_of_eq (hchronicle : m.chronicle = w.chronicle) (hfiles : m.files = w.files) :
    Spares artifacts source w m where
  entries := ⟨[], by rw [hchronicle, List.append_nil], by simp [Chronicle.written]⟩
  places := by
    rw [hfiles]
    exact Alters.refl _ _

/-- An entry that is about no file spares the result. -/
theorem spares_record {e : Happening} (h : Chronicle.written [e] = []) :
    Spares artifacts source w (w.record e) where
  entries := ⟨[e], rfl, by simp [h]⟩
  places := Alters.refl _ _

theorem Spares.trans {w₁ w₂ w₃ : World} (h₁ : Spares artifacts source w₁ w₂)
    (h₂ : Spares artifacts source w₂ w₃) : Spares artifacts source w₁ w₃ where
  entries := by
    obtain ⟨more₁, hw₂, hwritten₁⟩ := h₁.entries
    obtain ⟨more₂, hw₃, hwritten₂⟩ := h₂.entries
    refine ⟨more₁ ++ more₂, by rw [hw₃, hw₂, List.append_assoc], fun f hf => ?_⟩
    rw [Chronicle.written_append] at hf
    rcases List.mem_append.1 hf with hf | hf
    · exact hwritten₁ f hf
    · exact hwritten₂ f hf
  places := h₁.places.trans h₂.places

/-- Another file spares it, -/
theorem spares_writeFile {bytes : List UInt8} (hpath : path ≠ resultPath artifacts source)
    (hplace : ∀ (t : FileTree) (l : Location), t.find path = .ok l →
      ¬[slugOf source, "result.json"] <:+ l) :
    (Update.writeFile path bytes).Keeps (Spares artifacts source) := by
  intro w
  unfold Update.writeFile
  split
  · next files hwrite =>
    exact ⟨⟨[_], rfl, by simpa [Chronicle.written] using hpath⟩,
      alters_write hwrite fun l hl => hplace w.files l hl⟩
  · exact spares_of_eq rfl rfl

/-- and so do views. -/
theorem viewKept_spares : ViewKept (Spares artifacts source) where
  refl _ := spares_of_eq rfl rfl
  trans := Spares.trans
  pages _ _ := spares_of_eq rfl rfl
  directory path := by
    intro w
    rw [Update.makeDirectory_snd]
    exact ⟨⟨[], (List.append_nil _).symm, by simp [Chronicle.written]⟩,
      alters_makeDirectories w.files path⟩
  view {path} _ hview := by
    refine spares_writeFile ?_ fun t l hl hresult => ?_
    · rintro rfl
      exact ReportFile.not_isViewPath_of_isSuffix .result (Path.isSuffix_child _ _) hview
    · exact not_isView_result hresult (isView_of_isViewPath hview t l hl)
  log _ _ := spares_record rfl

/-- **Writing the plan spares the result,** even where it fails. -/
theorem spares_writePlan (s : Suite) (w : World) :
    Spares w.desk.artifacts s.source w (writePlan s w).2 := by
  have hviews : ViewKept (Spares w.desk.artifacts s.source) := viewKept_spares
  have hplan : (Update.writeFile (planPath w.desk.artifacts s.source)
      (Text.toBytes s.plan.toIndented)).Keeps (Spares w.desk.artifacts s.source) := by
    refine spares_writeFile (fun heq => ?_) fun t l hl hresult => ?_
    · have hmeta := Path.isSuffix_child (documentDirectory w.desk.artifacts s.source) "meta.json"
      have hresult :=
        Path.isSuffix_child (documentDirectory w.desk.artifacts s.source) "result.json"
      have heq : Path.child (documentDirectory w.desk.artifacts s.source) "meta.json" =
        Path.child (documentDirectory w.desk.artifacts s.source) "result.json" := heq
      rw [heq] at hmeta
      exact absurd (List.suffix_or_suffix_of_suffix hmeta hresult) (by decide)
    · exact absurd (eq_of_isSuffix (place_of_planPath hl) hresult).2 (by decide)
  unfold writePlan
  rw [Update.read_bind]
  exact hviews.bind (fun w => spares_of_eq rfl rfl)
    (fun _ => hviews.bind (hviews.directory _) fun _ => hviews.bind (fun w => hviews.pages w 0)
      fun _ => hviews.bind hplan fun _ => hviews.pure _) w

/-- **While a suite is carried out** nothing is written but views, and they
spare the result. -/
theorem caseKept_spares (c : Conduct) (artifacts : String) (source : Option String) : CaseKept
    (Act.Throughout fun w m => Views w m ∧ Spares artifacts source w m) c where
  toStepKept := stepKept_of_viewKept (viewKept_views.and viewKept_spares)
    (fun _ _ => ⟨⟨rfl, rfl, Alters.refl _ _⟩, spares_of_eq rfl rfl⟩)
    (fun _ _ _ _ => ⟨⟨rfl, rfl, Alters.refl _ _⟩,
      ⟨_, rfl, by simp [Chronicle.written]⟩, Alters.refl _ _⟩) c
  print _ := Act.throughout_ofUpdate fun w => ⟨Views.refl w, spares_record rfl⟩

/-! ## One document, whatever it comes to -/

/-- All that is done for a suite once its plan is written. -/
def afterPlan (c : Conduct) (s : Suite) : Act SuiteResult := do
  let cases ← casesOf c s
  Report.suiteFinished ⟨s.name, s.source, cases⟩
  return ⟨s.name, s.source, cases⟩

/-- A document of a run: what is exchanged for it, what it comes to, and the
worlds in which it is begun and left. -/
structure Stint where
  path : String
  exchanges : List Exchange
  result : Except Fault SuiteResult
  before : World
  after : World

namespace Stint

/-- Where the plan of the document is. -/
def planPath (t : Stint) : String := Report.planPath t.before.desk.artifacts (some t.path)

/-- Where its result is. -/
def resultPath (t : Stint) : String := Report.resultPath t.before.desk.artifacts (some t.path)

/-- No result has been written since the document was begun. -/
def Pending (t : Stint) (m : World) : Prop :=
  Spares t.before.desk.artifacts (some t.path) t.before m

/-- The document is carried out. -/
def Done (c : Conduct) (t : Stint) : Prop :=
  (runFile c t.path).Way t.before t.exchanges t.result t.after

/-- **How a document can go:** it cannot be read, or its plan cannot be written,
or it is carried out from the world in which its plan has just been written. -/
inductive Course (c : Conduct) (t : Stint) : Prop
  | unread {e : FileError} (hread : t.before.files.read t.path = .error e)
    (hnone : t.exchanges = []) (hresult : t.result = .error (.file e))
    (hafter : t.after = t.before)
  | unplanned {bytes : List UInt8} {e : Fault} (hread : t.before.files.read t.path = .ok bytes)
    (hplan : writePlan (Suite.ofFile t.path bytes) t.before = (.error e, t.after))
    (hnone : t.exchanges = []) (hresult : t.result = .error e)
  | planned {bytes : List UInt8} {w₁ : World} (hread : t.before.files.read t.path = .ok bytes)
    (hplan : writePlan (Suite.ofFile t.path bytes) t.before = (.ok t.planPath, w₁))
    (hrun : runFile c t.path t.before = afterPlan c (Suite.ofFile t.path bytes) w₁)

variable {t : Stint}

/-- Where the plan cannot be written the document ends. -/
theorem Done.of_unplanned {bytes : List UInt8} {e : Fault} {w₁ : World} (h : t.Done c)
    (hread : t.before.files.read t.path = .ok bytes)
    (hplan : writePlan (Suite.ofFile t.path bytes) t.before = (.error e, w₁)) :
    t.exchanges = [] ∧ t.result = .error e ∧ t.after = w₁ := by
  unfold Done Act.Way at h
  rw [runFile_of_read hread, runSuite_eq] at h
  exact (Act.way_ofUpdate_bind_of_error hplan).1 h

theorem Done.course (h : t.Done c) : t.Course c := by
  cases hread : t.before.files.read t.path with
  | error e =>
    have hreads : Update.readFile t.path t.before = (.error (.file e), t.before) := by
      rw [Update.readFile_eq, hread]
      rfl
    obtain ⟨hnone, hresult, hafter⟩ := (Act.way_ofUpdate_bind_of_error hreads).1 h
    exact .unread hread hnone hresult hafter
  | ok bytes =>
    rcases hplan : writePlan (Suite.ofFile t.path bytes) t.before with ⟨_ | path, w₁⟩
    · obtain ⟨hnone, hresult, rfl⟩ := h.of_unplanned hread hplan
      exact .unplanned hread hplan hnone hresult
    · obtain rfl := (writePlan_eq_ok hplan).1
      refine .planned hread hplan ((runFile_of_read hread).trans ?_)
      rw [runSuite_eq]
      exact Act.ofUpdate_bind hplan

/-- **Once the plan is written** it stands wherever only views are written, and
the result has not been written yet. -/
theorem stands_of_views {bytes : List UInt8} {w₁ : World}
    (hplan : writePlan (Suite.ofFile t.path bytes) t.before = (.ok t.planPath, w₁))
    (hviews : Views w₁ m) (hspares : Spares t.before.desk.artifacts (some t.path) w₁ m) :
    m.files.read t.planPath = .ok (planBytes t.path bytes) ∧ t.Pending m := by
  obtain ⟨-, -, _, -, hwrite⟩ := writePlan_eq_ok hplan
  have hplanned : w₁.files.read t.planPath = .ok (planBytes t.path bytes) :=
    read_of_write hwrite (asksForDirectory_child (by decide) (by decide))
  have hbefore := spares_writePlan (Suite.ofFile t.path bytes) t.before
  rw [hplan] at hbefore
  refine ⟨?_, hbefore.trans hspares⟩
  exact hviews.2.2.read (fun _ hl => not_isView_plan (place_of_planPath hl)) hplanned

/-- From the plan on nothing is asked but in such worlds. -/
theorem whenever_afterPlan (s : Suite) (w : World) :
    (afterPlan c s w).Whenever fun m => Views w m ∧ Spares artifacts source w m := by
  refine (((caseKept_spares c artifacts source).casesOf s).2 w).andThen fun es r _ => ?_
  -- what follows the cases asks nothing
  obtain ⟨r, w₁⟩ := r
  cases r with
  | error e => trivial
  | ok rs =>
    show (Act.proceed _ (Report.suiteFinished ⟨s.name, s.source, rs⟩ w₁)).Whenever _
    rcases Report.suiteFinished ⟨s.name, s.source, rs⟩ w₁ with ⟨_ | _, w₂⟩
    · trivial
    · trivial

/-- **What becomes of the result:** it is written at the end, or never. -/
theorem ends_of_way {bytes : List UInt8} {w₁ : World}
    (hplan : writePlan (Suite.ofFile t.path bytes) t.before = (.ok t.planPath, w₁))
    (h : (afterPlan c (Suite.ofFile t.path bytes)).Way w₁ t.exchanges t.result t.after) :
    Ends (fun r => t.after.files.read t.resultPath = .ok (resultBytes r))
      (fun _ => t.Pending t.after) t.result := by
  have hcases := ((caseKept_spares c t.before.desk.artifacts (some t.path)).casesOf
    (Suite.ofFile t.path bytes)).1
  rcases Act.way_bind_iff.1 h with ⟨rs, w₂, es₁, es₂, h₁, h₂, -⟩ | ⟨e, h₁, hresult⟩
  · obtain ⟨hviews, hspares⟩ := hcases h₁
    have hcurrent : w₂.desk.current =
        some (documentDirectory t.before.desk.artifacts (some t.path)) := by
      obtain ⟨-, hw₁, -⟩ := writePlan_eq_ok hplan
      rw [hviews.2.1, hw₁]
      rfl
    rcases hfinish : suiteFinished ⟨_, _, rs⟩ w₂ with ⟨e | _, w₃⟩
    · obtain ⟨-, hresult, hafter⟩ := (Act.way_ofUpdate_bind_of_error hfinish).1 h₂
      rw [hresult, hafter, suiteFinished_eq_error hfinish hcurrent]
      exact (stands_of_views hplan hviews hspares).2
    · have h₂ := (Act.way_ofUpdate_bind hfinish).1 h₂
      obtain ⟨-, hresult, hafter⟩ := Act.way_pure_iff.1 h₂
      rw [hresult, hafter]
      exact read_of_write (suiteFinished_eq_ok hfinish hcurrent).2
        (asksForDirectory_child (by decide) (by decide))
  · obtain ⟨hviews, hspares⟩ := hcases h₁
    rw [hresult]
    exact (stands_of_views hplan hviews hspares).2

/-- **The plan of a document comes first,** in a run with some exchanges behind
it. -/
structure PlanFirst {α : Type} (t : Stint) (run : Dialogue α) (past : List Exchange) : Prop where
  /-- Whenever something is asked for the document its plan stands, just as it
  is, and no result has been written. -/
  asked (front : List Exchange) (e : Exchange) (back : List Exchange)
    (h : t.exchanges = front ++ e :: back) : ∃ m bytes, run.moment (past ++ front) = some m ∧
      t.before.files.read t.path = .ok bytes ∧
      m.files.read t.planPath = .ok (planBytes t.path bytes) ∧ t.Pending m
  /-- If the plan cannot be written nothing is asked, and that is what the
  document comes to. -/
  unplanned (bytes : List UInt8) (e : Fault) (w₁ : World)
    (hread : t.before.files.read t.path = .ok bytes)
    (hplan : writePlan (Suite.ofFile t.path bytes) t.before = (.error e, w₁)) :
    t.exchanges = [] ∧ t.result = .error e
  /-- A result is written behind all that, if the document comes to one. -/
  result : Ends (fun r => t.after.files.read t.resultPath = .ok (resultBytes r))
    (fun _ => t.Pending t.after) t.result

/-- So it is of any document. -/
theorem Done.ends (h : t.Done c) :
    Ends (fun r => t.after.files.read t.resultPath = .ok (resultBytes r))
      (fun _ => t.Pending t.after) t.result := by
  cases h.course with
  | unread hread hnone hresult hafter =>
    rw [hresult, hafter]
    exact spares_of_eq rfl rfl
  | @unplanned bytes e hread hplan hnone hresult =>
    have hspares := spares_writePlan (Suite.ofFile t.path bytes) t.before
    rw [hplan] at hspares
    rw [hresult]
    exact hspares
  | planned hread hplan hrun =>
    unfold Done Act.Way at h
    rw [hrun] at h
    exact ends_of_way hplan h

theorem Done.planFirst {α : Type} {run : Dialogue α} {past : List Exchange} (h : t.Done c)
    (hrun : ∀ front m, (runFile c t.path t.before).moment front = some m →
      run.moment (past ++ front) = some m) : t.PlanFirst run past where
  asked front e back hsplit := by
    cases h.course with
    | unread hread hnone => simp [hnone] at hsplit
    | unplanned hread hplan hnone => simp [hnone] at hsplit
    | @planned bytes w₁ hread hplan hsuite =>
      unfold Done Act.Way at h
      rw [hsuite] at h
      obtain ⟨m, hm, hviews, hspares⟩ := (whenever_afterPlan _ w₁).moment h hsplit
      rw [← hsuite] at hm
      exact ⟨m, bytes, hrun front m hm, hread, stands_of_views hplan hviews hspares⟩
  unplanned bytes e w₁ hread hplan := by
    obtain ⟨hnone, hresult, -⟩ := h.of_unplanned hread hplan
    exact ⟨hnone, hresult⟩
  result := h.ends

end Stint

/-! ## Documents, one after the other -/

/-- **The documents of a run,** one after the other, up to one that faults. -/
inductive Stints (c : Conduct) :
    World → List String → List Stint → Except Fault (List SuiteResult) → World → Prop
  | nil (w : World) : Stints c w [] [] (.ok []) w
  | ok {t : Stint} {paths : List String} {ts : List Stint} {r : SuiteResult}
    {rs : Except Fault (List SuiteResult)} {w' : World} (h : t.Done c) (hr : t.result = .ok r)
    (hrest : Stints c t.after paths ts rs w') :
    Stints c t.before (t.path :: paths) (t :: ts) (rs.map (r :: ·)) w'
  | fault {t : Stint} {paths : List String} {e : Fault} (h : t.Done c) (hr : t.result = .error e) :
    Stints c t.before (t.path :: paths) [t] (.error e) t.after

/-- What comes of a list of documents is what comes of the first and then of
the others. -/
theorem exists_stints {paths : List String} {rs : Except Fault (List SuiteResult)}
    (h : (each (runFile c) paths).Way w es rs w') :
    ∃ ts, Stints c w paths ts rs w' ∧ es = ts.flatMap (·.exchanges) := by
  induction paths generalizing w es rs with
  | nil =>
    obtain ⟨rfl, rfl, rfl⟩ := Act.way_pure_iff.1 h
    exact ⟨[], .nil _, rfl⟩
  | cons path rest ih =>
    unfold each at h
    rcases Act.way_bind_iff.1 h with ⟨r, w₁, es₁, es₂, h₁, h₂, rfl⟩ | ⟨e, h₁, rfl⟩
    · obtain ⟨rs', hrest, rfl⟩ := Act.way_map_iff.1 h₂
      obtain ⟨ts, hts, rfl⟩ := ih hrest
      exact ⟨_, .ok (t := ⟨path, es₁, .ok r, w, w₁⟩) h₁ rfl hts, rfl⟩
    · exact ⟨_, .fault (t := ⟨path, es, .error e, w, w'⟩) h₁ rfl, by simp⟩

/-- A document that faults is the last, and its fault is that of the run. -/
theorem Stints.fault_last {paths : List String} {ts pre post : List Stint} {t : Stint}
    {rs : Except Fault (List SuiteResult)} {e : Fault} (h : Stints c w paths ts rs w')
    (hts : ts = pre ++ t :: post) (hr : t.result = .error e) : post = [] ∧ rs = .error e := by
  induction h generalizing pre with
  | nil w => simp at hts
  | @ok u paths ts r rs w' hu hur hrest ih =>
    cases pre with
    | nil =>
      cases hts
      rw [hr] at hur
      cases hur
    | cons v pre =>
      cases hts
      obtain ⟨hpost, rfl⟩ := ih rfl
      exact ⟨hpost, rfl⟩
  | @fault u paths e' hu hur =>
    cases pre with
    | nil =>
      cases hts
      rw [hr] at hur
      cases hur
      exact ⟨rfl, rfl⟩
    | cons v pre => simp at hts

/-- **What is asked for a document is asked in the run,** behind what was exchanged
for the documents before it. -/
theorem Stints.moment {paths : List String} {ts pre post : List Stint} {t : Stint}
    {rs : Except Fault (List SuiteResult)} (h : Stints c w paths ts rs w')
    (hts : ts = pre ++ t :: post) {front : List Exchange}
    (hm : (runFile c t.path t.before).moment front = some m) :
    (each (runFile c) paths w).moment (pre.flatMap (·.exchanges) ++ front) = some m := by
  induction h generalizing pre with
  | nil w => simp at hts
  | @ok u paths ts r rs w' hu hur hrest ih =>
    cases pre with
    | nil =>
      cases hts
      exact Dialogue.moment_andThen_of_some hm
    | cons v pre =>
      cases hts
      rw [List.flatMap_cons, List.append_assoc]
      have hway : (runFile c u.path u.before).Way u.exchanges (u.result, u.after) := hu
      rw [hur] at hway
      -- the first document came to a result, so the run went on behind its exchanges
      refine (Dialogue.moment_andThen_of_way hway).trans ?_
      exact Dialogue.moment_andThen_of_some (ih rfl)
  | @fault u paths e' hu hur =>
    cases pre with
    | nil =>
      cases hts
      exact Dialogue.moment_andThen_of_some hm
    | cons v pre => simp at hts

theorem Stints.done {paths : List String} {ts : List Stint} {t : Stint}
    {rs : Except Fault (List SuiteResult)} (h : Stints c w paths ts rs w') (ht : t ∈ ts) :
    t.Done c := by
  induction h with
  | nil w => cases ht
  | ok hu _ _ ih =>
    rcases List.mem_cons.1 ht with rfl | ht
    · exact hu
    · exact ih ht
  | fault hu _ =>
    cases List.mem_singleton.1 ht
    exact hu

/-- All documents of a run report to one directory. -/
theorem Stints.artifacts_eq {paths : List String} {ts : List Stint}
    {rs : Except Fault (List SuiteResult)} (h : Stints c w paths ts rs w') :
    ∀ t ∈ ts, t.before.desk.artifacts = w.desk.artifacts := by
  induction h with
  | nil w => simp
  | @ok u paths ts r rs w' hu hur hrest ih =>
    have hway : (runFile c u.path).Way u.before u.exchanges u.result u.after := hu
    rw [hur] at hway
    obtain ⟨d, htaken, -, -, -, hbefore, hafter⟩ := exists_turn hway
    have hartifacts := htaken.artifacts
    rw [hbefore, hafter] at hartifacts
    refine List.forall_mem_cons.2 ⟨rfl, fun t ht => ?_⟩
    rw [ih t ht, hartifacts]
  | fault => simp

/-- **The plan is written before anything is done.** Whatever a run over
documents comes to, it consists of the documents one after the other, up to one
that faults, and in each the plan comes first: it stands whenever something is
asked for the document, and its result is written behind all that. A document
that faults, as one does whose plan cannot be written, is the last, and its
fault is that of the run. -/
theorem plan_first {paths : List String} {r : Except Fault RunSummary}
    (h : (runFiles c paths).Way w es r w') :
    ∃ ts rs, Stints c w paths ts rs w' ∧ r = rs.map RunSummary.mk ∧
      es = ts.flatMap (·.exchanges) ∧
      ∀ pre t post, ts = pre ++ t :: post →
        t.before.desk.artifacts = w.desk.artifacts ∧
        t.PlanFirst (runFiles c paths w) (pre.flatMap (·.exchanges)) ∧
        ∀ e, t.result = .error e → post = [] ∧ r = .error e := by
  obtain ⟨rs, heach, rfl⟩ := Act.way_map_iff.1 h
  obtain ⟨ts, hts, rfl⟩ := exists_stints heach
  refine ⟨ts, rs, hts, rfl, rfl, fun pre t post hsplit => ?_⟩
  have ht : t ∈ ts := by simp [hsplit]
  refine ⟨hts.artifacts_eq t ht, (hts.done ht).planFirst fun front m hm => ?_, fun e he => ?_⟩
  · exact Dialogue.moment_andThen_of_some (hts.moment hsplit hm)
  · obtain ⟨hpost, rfl⟩ := hts.fault_last hsplit he
    exact ⟨hpost, rfl⟩

/-- A world in which a file is in the way of the reports of the second document. -/
def barred : World :=
  { atWork with
    files := FileTree.ofList [("tests/md/a.md", .file []), ("tests/md/b.md", .file []),
      ("artifacts/exec/b", .file [])] }

/-- The first document is carried out there, and the second ends the run before
anything is asked for it. -/
theorem plan_first_barred :
    ((runFiles site apart).run unwilling barred ()).1.1.isOk = false ∧
      ((runFiles site apart barred).exchanges unwilling ()).length = 2 ∧
      ∃ es r w', (runFiles site apart).Way barred es r w' ∧
        ∃ ts rs, Stints site barred apart ts rs w' ∧ r = rs.map RunSummary.mk ∧
          es = ts.flatMap (·.exchanges) ∧
          ∀ pre t post, ts = pre ++ t :: post →
            t.before.desk.artifacts = barred.desk.artifacts ∧
            t.PlanFirst (runFiles site apart barred) (pre.flatMap (·.exchanges)) ∧
            ∀ e, t.result = .error e → post = [] ∧ r = .error e := by
  have hway := Act.way_run unwilling (runFiles site apart) barred ()
  exact ⟨by decide +kernel, by decide +kernel, _, _, _, hway, plan_first hway⟩

end Walkthrough.Run
