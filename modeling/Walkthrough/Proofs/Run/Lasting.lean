import Mathlib.Data.List.Nodup
import Walkthrough.Proofs.Run.Documents
import Walkthrough.Proofs.Run.Entries
/-!
# Reports that last

Where no two documents of a run share a directory, each keeps what its turn has
written for it: its plan and its result still stand at the end of the run
(`reports_last`). That is so because either is written once, and all else that
is written in the run, by whichever document, goes to other places
(`Turn.Misses`): another document's report has another slug, and pages and
pictures end in another way.
-/

namespace Walkthrough.Run

open FileTree Report

variable {c : Conduct} {w w' : World} {es : List Exchange} {ts : List Turn} {t u : Turn}

/-! ## The files of a report -/

/-- The two files of a report. -/
inductive ReportFile where
  | plan
  | result
deriving DecidableEq, Repr

namespace ReportFile

/-- The name of a file of a report. -/
def name : ReportFile → String
  | plan => "meta.json"
  | result => "result.json"

theorem isName_name (f : ReportFile) : Path.IsName f.name := by
  cases f with
  | plan => exact ⟨by decide, by decide⟩
  | result => exact ⟨by decide, by decide⟩

theorem name_ne_up (f : ReportFile) : f.name ≠ ".." := by
  cases f with
  | plan => decide
  | result => decide

theorem name_inj {f g : ReportFile} (h : f.name = g.name) : f = g := by
  cases f with
  | plan =>
    cases g with
    | plan => rfl
    | result => exact absurd h (by decide)
  | result =>
    cases g with
    | plan => exact absurd h (by decide)
    | result => rfl

/-- The names end as no page and no picture does. -/
theorem not_isViewPath_of_isSuffix {path : String} (f : ReportFile)
    (h : f.name.toList <:+ path.toList) : ¬IsViewPath path := by
  have hapart : ∀ ending ∈ [".html", ".png"],
      ¬(ending.toList <:+ f.name.toList ∨ f.name.toList <:+ ending.toList) := by
    cases f with
    | plan => decide
    | result => decide
  rintro (hview | hview)
  · exact hapart ".html" (by decide) (List.suffix_or_suffix_of_suffix hview h)
  · exact hapart ".png" (by decide) (List.suffix_or_suffix_of_suffix hview h)

end ReportFile

namespace Turn

/-- The name of the directory of the report. -/
def slug (t : Turn) : String := slugOf (some t.path)

/-- Where a file of the report is. -/
def reportPath (t : Turn) (f : ReportFile) : String :=
  Path.child (documentDirectory t.before.desk.artifacts (some t.path)) f.name

/-- What is written to it. -/
def reportBytes (t : Turn) : ReportFile → List UInt8
  | .plan => Text.toBytes t.suite.plan.toIndented
  | .result => resultBytes t.result

/-- The world in which it has just been written. -/
def justWritten (t : Turn) : ReportFile → World
  | .plan => t.planned
  | .result => t.finished

theorem place_of_reportPath {tree : FileTree} {l : Location} {f : ReportFile}
    (hl : tree.find (t.reportPath f) = .ok l) : [t.slug, f.name] <:+ l :=
  isSuffix_of_find_child f.isName_name f.name_ne_up hl

/-- The file of a report belongs to no report of another slug. -/
theorem not_isReport {tree : FileTree} {l : Location} {f : ReportFile} {other : String}
    (hl : tree.find (t.reportPath f) = .ok l) (hne : other ≠ t.slug) : ¬IsReport other l := by
  cases f with
  | plan => exact not_isReport_plan (place_of_reportPath hl) hne
  | result => exact not_isReport_result (place_of_reportPath hl) hne

/-- **Files of reports have paths of their own:** one path, one slug and one
file. -/
theorem reportPath_inj {f g : ReportFile} (h : u.reportPath g = t.reportPath f) :
    u.slug = t.slug ∧ g = f := by
  have hparts (t : Turn) (f : ReportFile) :
      [t.slug, f.name] <:+ Path.parts (t.reportPath f) := by
    obtain ⟨front, hfront⟩ := Path.exists_parts_child_child
      (Path.child t.before.desk.artifacts "exec") (isName_slugOf (some t.path)) f.isName_name
    exact ⟨front, hfront.symm⟩
  have hu := hparts u g
  rw [h] at hu
  obtain ⟨hslug, hname⟩ := eq_of_isSuffix hu (hparts t f)
  exact ⟨hslug, ReportFile.name_inj hname⟩

/-- **A path that misses a file of the report:** it is another path, and in no
tree does it lead to where that file is. -/
structure Misses (t : Turn) (f : ReportFile) (path : String) : Prop where
  ne : path ≠ t.reportPath f
  place : ∀ (tree : FileTree) (l : Location), tree.find path = .ok l →
    tree.find (t.reportPath f) ≠ .ok l

/-- Pages and pictures miss every file of a report, -/
theorem misses_of_isViewPath {path : String} (f : ReportFile) (h : IsViewPath path) :
    t.Misses f path where
  ne := by
    rintro rfl
    exact f.not_isViewPath_of_isSuffix (Path.isSuffix_child _ _) h
  place tree l hl ht := by
    have hview := isView_of_isViewPath h tree l hl
    cases f with
    | plan => exact not_isView_plan (place_of_reportPath ht) hview
    | result => exact not_isView_result (place_of_reportPath ht) hview

/-- and so does the file of a report with another slug, or the other file. -/
theorem misses_of_reportPath {f g : ReportFile} (h : u.slug = t.slug → g ≠ f) :
    t.Misses f (u.reportPath g) where
  ne heq := h (reportPath_inj heq).1 (reportPath_inj heq).2
  place tree l hl ht := by
    obtain ⟨hslug, hname⟩ := eq_of_isSuffix (place_of_reportPath hl) (place_of_reportPath ht)
    exact h hslug (ReportFile.name_inj hname)

namespace Taken

variable (h : t.Taken c)
include h

/-- Just written, the file reads as what was written to it, -/
theorem read_justWritten (f : ReportFile) :
    (t.justWritten f).files.read (t.reportPath f) = .ok (t.reportBytes f) := by
  cases f with
  | plan => exact h.read_planned
  | result => exact h.read_finished

/-- and it still does at the end of the turn. -/
theorem read_report (f : ReportFile) :
    t.finished.files.read (t.reportPath f) = .ok (t.reportBytes f) := by
  cases f with
  | plan => exact h.read_plan
  | result => exact h.read_finished

/-- **What a turn writes** is its report, each file once, and views. -/
theorem written_report (f : ReportFile) :
    (Chronicle.written t.entries).filter (·.1 = t.reportPath f) =
      [(t.reportPath f, t.reportBytes f)] := by
  obtain ⟨views, hwritten, hviews⟩ := h.written
  have hnone : views.filter (·.1 = t.reportPath f) = [] := by
    rw [List.filter_eq_nil_iff]
    intro g hg
    simpa using (misses_of_isViewPath f (hviews g hg)).ne
  rw [hwritten]
  cases f with
  | plan =>
    have hresult : t.resultPath ≠ t.reportPath .plan :=
      (misses_of_reportPath (g := .result) fun _ => by decide).ne
    have hplan : t.planPath = t.reportPath .plan := rfl
    rw [List.filter_cons_of_pos (by simpa using hplan), List.filter_append, hnone,
      List.filter_cons_of_neg (by simpa using hresult)]
    rfl
  | result =>
    have hplan : t.planPath ≠ t.reportPath .result :=
      (misses_of_reportPath (g := .plan) fun _ => by decide).ne
    have hresult : t.resultPath = t.reportPath .result := rfl
    rw [List.filter_cons_of_neg (by simpa using hplan), List.filter_append, hnone,
      List.filter_cons_of_pos (by simpa using hresult)]
    rfl

/-- Whatever a turn writes misses a file of a report, unless it is that file. -/
theorem misses_of_mem_written {g : String × List UInt8} (hg : g ∈ Chronicle.written t.entries)
    {f : ReportFile} (hne : ∀ f', g.1 = t.reportPath f' → t.slug = u.slug → f' ≠ f) :
    u.Misses f g.1 := by
  obtain ⟨views, hwritten, hviews⟩ := h.written
  rw [hwritten] at hg
  rcases List.mem_cons.1 hg with rfl | hg
  · exact misses_of_reportPath (g := .plan) (hne .plan rfl)
  rcases List.mem_append.1 hg with hg | hg
  · exact misses_of_isViewPath f (hviews g hg)
  · cases List.mem_singleton.1 hg
    exact misses_of_reportPath (g := .result) (hne .result rfl)

end Taken

/-- **A file of a report lasts:** in the end it reads as when it was written, it
was written once, and all else that was written went to other places. -/
structure Lasts (t : Turn) (f : ReportFile) (w' : World) (entries : Chronicle) : Prop where
  asWritten : w'.files.read (t.reportPath f) = (t.justWritten f).files.read (t.reportPath f)
  bytes : w'.files.read (t.reportPath f) = .ok (t.reportBytes f)
  once : entries.written.filter (·.1 = t.reportPath f) = [(t.reportPath f, t.reportBytes f)]
  others : ∀ g ∈ entries.written, g.1 ≠ t.reportPath f → t.Misses f g.1

end Turn

/-! ## All turns -/

/-- Turns before and after one of them. -/
theorem Turns.split {pre post : List Turn} (h : Turns c w es (pre ++ t :: post) w') :
    ∃ es₁ es₂, Turns c w es₁ pre t.before ∧ t.Taken c ∧ Turns c t.finished es₂ post w' := by
  induction pre generalizing w es with
  | nil =>
    cases h with
    | cons ht hrest => exact ⟨[], _, .nil _, ht, hrest⟩
  | cons u pre ih =>
    cases h with
    | cons hu hrest =>
      obtain ⟨es₁, es₂, hpre, ht, hpost⟩ := ih hrest
      exact ⟨_, es₂, .cons hu hpre, ht, hpost⟩

/-- What turns with other slugs write misses the report of a turn. -/
theorem misses_of_mem_written {us : List Turn} (htaken : ∀ u ∈ us, u.Taken c)
    (hslugs : ∀ u ∈ us, u.slug ≠ t.slug) {g : String × List UInt8} (f : ReportFile)
    (hg : g ∈ Chronicle.written (us.flatMap (·.entries))) : t.Misses f g.1 := by
  induction us with
  | nil => cases hg
  | cons u us ih =>
    rw [List.flatMap_cons, Chronicle.written_append] at hg
    rcases List.mem_append.1 hg with hg | hg
    · have hslug := hslugs u List.mem_cons_self
      exact (htaken u List.mem_cons_self).misses_of_mem_written hg fun _ _ h => absurd h hslug
    · exact ih (fun u hu => htaken u (List.mem_cons_of_mem _ hu))
        (fun u hu => hslugs u (List.mem_cons_of_mem _ hu)) hg

/-- **The report of a turn lasts** where all other turns have other slugs. -/
theorem Turns.lasts {pre post : List Turn} (h : Turns c w es (pre ++ t :: post) w')
    (hslugs : ∀ u ∈ pre ++ post, u.slug ≠ t.slug) (f : ReportFile) :
    t.Lasts f w' ((pre ++ t :: post).flatMap (·.entries)) := by
  obtain ⟨es₁, es₂, hpre, ht, hpost⟩ := h.split
  have hbefore {g} (hg : g ∈ Chronicle.written (pre.flatMap (·.entries))) : t.Misses f g.1 :=
    misses_of_mem_written (fun u hu => (hpre.artifacts.2 u hu).1)
      (fun u hu => hslugs u (List.mem_append_left _ hu)) f hg
  have hafter {g} (hg : g ∈ Chronicle.written (post.flatMap (·.entries))) : t.Misses f g.1 :=
    misses_of_mem_written (fun u hu => (hpost.artifacts.2 u hu).1)
      (fun u hu => hslugs u (List.mem_append_right _ hu)) f hg
  have hread : w'.files.read (t.reportPath f) = .ok (t.reportBytes f) := by
    refine hpost.reports.read (fun l hl => ?_) (ht.read_report f)
    rintro ⟨u, hu, hreport⟩
    exact Turn.not_isReport hl (hslugs u (List.mem_append_right _ hu)) hreport
  refine ⟨?_, hread, ?_, ?_⟩
  · rw [hread, ht.read_justWritten f]
  · rw [List.flatMap_append, List.flatMap_cons, Chronicle.written_append, Chronicle.written_append,
      List.filter_append, List.filter_append, ht.written_report f]
    have hnone {gs : List (String × List UInt8)} (hgs : ∀ g ∈ gs, t.Misses f g.1) :
        gs.filter (·.1 = t.reportPath f) = [] := by
      rw [List.filter_eq_nil_iff]
      intro g hg
      simpa using (hgs g hg).ne
    rw [hnone fun g => hbefore, hnone fun g => hafter]
    rfl
  · intro g hg hne
    rw [List.flatMap_append, List.flatMap_cons, Chronicle.written_append, Chronicle.written_append]
      at hg
    rcases List.mem_append.1 hg with hg | hg
    · exact hbefore hg
    rcases List.mem_append.1 hg with hg | hg
    · refine ht.misses_of_mem_written hg fun f' hf' _ => ?_
      rintro rfl
      exact hne hf'
    · exact hafter hg

/-- **Reports last** where no two documents share a directory. After a run over
documents that returns, each has had its turn, in order, and the summary lists
the results of the turns; the plan that its turn wrote and the result that the
summary lists for it still read as they did when they were written, each was
written once, and whatever else the run wrote, in whichever turn, went to other
places. -/
theorem reports_last {paths : List String} {summary : RunSummary}
    (hdirectories : (paths.map fun p => documentDirectory w.desk.artifacts (some p)).Nodup)
    (h : (runFiles c paths).Way w es (.ok summary) w') :
    ∃ ts more, Turns c w es ts w' ∧ ts.map (·.path) = paths ∧
      ts.map (·.result) = summary.results ∧ summary.results.map (·.source) = paths.map some ∧
      w'.chronicle = w.chronicle ++ more ∧
      ∀ t ∈ ts, (∀ f, t.Lasts f w' more) ∧
        t.reportPath .plan = planPath w.desk.artifacts (some t.path) ∧
        t.reportPath .result = resultPath w.desk.artifacts (some t.path) := by
  obtain ⟨ts, hturns, hpaths, hresults⟩ := exists_turns (way_runFiles_iff.1 h)
  have htaken := hturns.artifacts.2
  refine ⟨ts, ts.flatMap (·.entries), hturns, hpaths, hresults, ?_, hturns.chronicle, ?_⟩
  · rw [← hresults, ← hpaths, List.map_map, List.map_map]
    exact List.map_congr_left fun t ht => (htaken t ht).1.source
  intro t ht
  have hartifacts := (htaken t ht).2
  refine ⟨fun f => ?_, ?_, ?_⟩
  · have hslugs : (ts.map (·.slug)).Nodup := by
      have hmap : ts.map (·.slug) = paths.map fun p => slugOf (some p) := by
        simp only [← hpaths, List.map_map, Function.comp_def, Turn.slug]
      rw [hmap]
      exact nodup_documentDirectory_iff.1 hdirectories
    obtain ⟨pre, post, rfl⟩ := List.append_of_mem ht
    rw [List.map_append, List.map_cons, List.nodup_middle, ← List.map_append] at hslugs
    refine hturns.lasts (fun u hu hslug => ?_) f
    exact (List.nodup_cons.1 hslugs).1 (List.mem_map.2 ⟨u, hu, hslug⟩)
  · rw [← hartifacts]
    rfl
  · rw [← hartifacts]
    rfl

/-- The reports of two documents whose names differ in a letter last. -/
theorem reports_last_apart :
    (apart.map fun p => documentDirectory (pantry apart).desk.artifacts (some p)).Nodup ∧
    ∃ es summary w', (runFiles site apart).Way (pantry apart) es (.ok summary) w' ∧
      ∃ ts more, Turns site (pantry apart) es ts w' ∧ ts.map (·.path) = apart ∧
        w'.chronicle = more ∧ ∀ t ∈ ts, ∀ f, t.Lasts f w' more := by
  have hdirectories :
      (apart.map fun p => documentDirectory (pantry apart).desk.artifacts (some p)).Nodup := by
    decide +kernel
  have hruns : (((runFiles site apart).run unwilling (pantry apart) ()).1.1).isOk = true := by
    decide +kernel
  obtain ⟨summary, es, w', h⟩ := way_of_isOk hruns
  obtain ⟨ts, more, hturns, hpaths, -, -, hmore, hlast⟩ := reports_last hdirectories h
  exact ⟨hdirectories, es, summary, w', h, ts, more, hturns, hpaths, hmore,
    fun t ht => (hlast t ht).1⟩

end Walkthrough.Run
