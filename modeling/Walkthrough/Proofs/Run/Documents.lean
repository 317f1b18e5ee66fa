import Walkthrough.Proofs.Run.Navigate
import Walkthrough.Proofs.Run.Turn
import Walkthrough.Run
/-!
# The reports of several documents

Each document of a run leaves its plan and its result in the directory of its
slug (`runFile_eq_ok`), and alters nothing but those two files and the views of
its turn. A document with another slug leaves them alone; a later one with
the same slug writes over them, and its plan is another one, since it states
another path. So all documents keep their reports just where no two of them
share a directory (`reported_iff`).
-/

namespace Walkthrough.Run

open FileTree Report

variable {c : Conduct} {w w' : World} {es : List Exchange} {path : String} {l : Location}

/-- **What a document leaves:** its plan and its result in its directory, and
nothing else altered but views. -/
theorem runFile_eq_ok {r : SuiteResult} (h : (runFile c path).Way w es (.ok r) w') :
    ∃ bytes, w.files.read path = .ok bytes ∧ w'.desk.artifacts = w.desk.artifacts ∧
      w'.files.read (planPath w.desk.artifacts (some path)) = .ok (planBytes path bytes) ∧
      w'.files.read (resultPath w.desk.artifacts (some path)) = .ok (resultBytes r) ∧
      Alters (IsReport (slugOf (some path))) w.files w'.files := by
  obtain ⟨t, ht, rfl, rfl, -, rfl, rfl⟩ := exists_turn h
  obtain ⟨bytes, hread, hsuite⟩ := ht.read
  have hplan := ht.read_plan
  rw [hsuite] at hplan
  exact ⟨bytes, hread, ht.artifacts, hplan, ht.read_finished, ht.report⟩

/-- **The reports of a document are its own:** in its directory stand its plan,
as the document reads, and its result. -/
def Reported (t : FileTree) (artifacts path : String) (r : SuiteResult) : Prop :=
  ∃ bytes, t.read path = .ok bytes ∧
    t.read (planPath artifacts (some path)) = .ok (planBytes path bytes) ∧
    t.read (resultPath artifacts (some path)) = .ok (resultBytes r)

/-- **What several documents leave:** only their reports and views are altered,
and where a plan of one of them belongs there stands the plan of one. -/
theorem each_runFile {paths : List String} {rs : List SuiteResult}
    (h : (each (runFile c) paths).Way w es (.ok rs) w') :
    w'.desk.artifacts = w.desk.artifacts ∧
      Alters (fun l => ∃ p ∈ paths, IsReport (slugOf (some p)) l) w.files w'.files ∧
      ∀ p ∈ paths, ∃ q ∈ paths, ∃ bytes,
        w'.files.read (planPath w.desk.artifacts (some p)) = .ok (planBytes q bytes) := by
  induction paths generalizing w es rs with
  | nil =>
    obtain ⟨-, -, rfl⟩ := Act.way_pure_iff.1 h
    exact ⟨rfl, Alters.refl _ _, by simp⟩
  | cons path rest ih =>
    obtain ⟨r, rs', w₁, _, _, h₁, h₂, -, -⟩ := way_each_cons h
    obtain ⟨bytes, -, hartifacts, hplan, -, halters⟩ := runFile_eq_ok h₁
    obtain ⟨hartifacts₂, halters₂, hplans⟩ := ih h₂
    rw [hartifacts] at hartifacts₂ hplans
    refine ⟨hartifacts₂, ?_, fun p hp => ?_⟩
    · refine (halters.mono fun l hl => ⟨path, List.mem_cons_self, hl⟩).trans ?_
      exact halters₂.mono fun l ⟨p, hp, hl⟩ => ⟨p, List.mem_cons_of_mem _ hp, hl⟩
    · by_cases hlater : ∃ q ∈ rest, slugOf (some q) = slugOf (some p)
      · -- a later document writes its plan in the same place
        obtain ⟨q, hq, hslug⟩ := hlater
        obtain ⟨q', hq', bytes', hread⟩ := hplans q hq
        rw [planPath_congr hslug] at hread
        exact ⟨q', List.mem_cons_of_mem _ hq', bytes', hread⟩
      · have hpath : p = path := by
          rcases List.mem_cons.1 hp with rfl | hp
          · rfl
          · exact absurd ⟨p, hp, rfl⟩ hlater
        rw [hpath] at hlater ⊢
        refine ⟨path, List.mem_cons_self, bytes, halters₂.read (fun l hl => ?_) hplan⟩
        rintro ⟨q, hq, hreport⟩
        exact not_isReport_plan (place_of_planPath hl) (fun h => hlater ⟨q, hq, h⟩) hreport

/-- The name of a document is that of no report. -/
theorem not_isReport_of_endsIn {slug : String} (h : EndsIn ".md" l) : ¬IsReport slug l := by
  rintro (h' | h' | h' | h')
  · exact not_endsIn (getLast?_of_isSuffix h') (by decide) h
  · exact not_endsIn (getLast?_of_isSuffix h') (by decide) h
  · exact absurd (h.suffix_or_suffix h') (by decide)
  · exact absurd (h.suffix_or_suffix h') (by decide)

theorem not_isReport_document {slug : String} {t : FileTree} (hmd : isDocumentName path = true)
    (hl : t.find path = .ok l) : ¬IsReport slug l := by
  have hsuffix : ".md".toList <:+ path.toList := List.isSuffixOf_iff_suffix.1 hmd
  exact not_isReport_of_endsIn (endsIn_of_find hsuffix (by decide) (by decide) hl)

/-- **Documents are not altered** by a run over documents. -/
theorem read_document {paths : List String} {t t' : FileTree} {bytes : List UInt8}
    (hmd : isDocumentName path = true)
    (h : Alters (fun l => ∃ p ∈ paths, IsReport (slugOf (some p)) l) t t')
    (hread : t.read path = .ok bytes) : t'.read path = .ok bytes :=
  h.read (fun _ hl ⟨_, _, hreport⟩ => not_isReport_document hmd hl hreport) hread

/-- **A document keeps its reports** just where no later one has its slug. -/
theorem reported_cons_iff {rest : List String} {r : SuiteResult} {rs : List SuiteResult}
    {w₁ : World} {es₁ es₂ : List Exchange} (hmd : isDocumentName path = true)
    (hnew : path ∉ rest) (h₁ : (runFile c path).Way w es₁ (.ok r) w₁)
    (h₂ : (each (runFile c) rest).Way w₁ es₂ (.ok rs) w') :
    Reported w'.files w.desk.artifacts path r ↔
      ∀ q ∈ rest, slugOf (some q) ≠ slugOf (some path) := by
  obtain ⟨bytes, hread, hartifacts, hplan, hresult, halters⟩ := runFile_eq_ok h₁
  obtain ⟨-, halters₂, hplans⟩ := each_runFile h₂
  rw [hartifacts] at hplans
  constructor
  · rintro ⟨bytes', -, hplan', -⟩ q hq hslug
    -- the plan of a later document stands there, and it is another one
    obtain ⟨q', hq', bytes'', hplan''⟩ := hplans q hq
    rw [planPath_congr hslug, hplan'] at hplan''
    have hsame : path = q' := source_of_plan rfl rfl (Except.ok.inj hplan'')
    exact hnew (hsame ▸ hq')
  · intro hnone
    have hread₁ : w₁.files.read path = .ok bytes :=
      halters.read (fun _ hl => not_isReport_document hmd hl) hread
    refine ⟨bytes, read_document hmd halters₂ hread₁, ?_, ?_⟩
    · refine halters₂.read (fun l hl => ?_) hplan
      rintro ⟨q, hq, hreport⟩
      exact not_isReport_plan (place_of_planPath hl) (hnone q hq) hreport
    · refine halters₂.read (fun l hl => ?_) hresult
      rintro ⟨q, hq, hreport⟩
      exact not_isReport_result (place_of_resultPath hl) (hnone q hq) hreport

/-- **Documents keep their reports** just where no two of them have one slug. -/
theorem forall₂_reported_iff {paths : List String} {rs : List SuiteResult}
    (hmd : ∀ p ∈ paths, isDocumentName p = true) (hnodup : paths.Nodup)
    (h : (each (runFile c) paths).Way w es (.ok rs) w') :
    List.Forall₂ (Reported w'.files w.desk.artifacts) paths rs ↔
      (paths.map fun p => slugOf (some p)).Nodup := by
  induction paths generalizing w es rs with
  | nil =>
    obtain ⟨-, hrs, -⟩ := Act.way_pure_iff.1 h
    rw [Except.ok.inj hrs]
    exact ⟨fun _ => .nil, fun _ => .nil⟩
  | cons path rest ih =>
    obtain ⟨hnew, hrest⟩ := List.nodup_cons.1 hnodup
    obtain ⟨r, rs', w₁, _, _, h₁, h₂, rfl, -⟩ := way_each_cons h
    have hkeeps := reported_cons_iff (hmd path List.mem_cons_self) hnew h₁ h₂
    have hkeep := ih (fun p hp => hmd p (List.mem_cons_of_mem _ hp)) hrest h₂
    rw [(runFile_eq_ok h₁).choose_spec.2.1] at hkeep
    rw [List.forall₂_cons, hkeeps, hkeep, List.map_cons, List.nodup_cons]
    simp only [List.mem_map, not_exists, not_and]

/-- The documents of a directory are called documents. -/
theorem isDocumentName_of_documents {t : FileTree} {directory : String} {paths : List String}
    (h : documents t directory [] = .ok paths) : ∀ p ∈ paths, isDocumentName p = true := by
  have h : documentsIn t directory = .ok paths := h
  unfold documentsIn at h
  intro p hp
  cases hdirectory : t.isDirectory directory with
  | error e =>
    rw [hdirectory] at h
    cases h
  | ok there =>
    rw [hdirectory] at h
    dsimp only [bind, Except.bind] at h
    split at h
    · split at h
      · next place hplace =>
        cases h
        obtain ⟨name, hname, rfl⟩ := List.mem_map.1 (List.mem_mergeSort.1 hp)
        have hsuffix : ".md".toList <:+ name.toList :=
          List.isSuffixOf_iff_suffix.1 (List.mem_filter.1 hname).2
        exact List.isSuffixOf_iff_suffix.2 (hsuffix.trans (Path.isSuffix_child _ _))
      · cases h
        cases hp
    · cases h
      cases hp

/-- Documents have directories of their own just where they have slugs of their
own. -/
theorem nodup_documentDirectory_iff {artifacts : String} {paths : List String} :
    (paths.map fun p => documentDirectory artifacts (some p)).Nodup ↔
      (paths.map fun p => slugOf (some p)).Nodup := by
  unfold List.Nodup
  rw [List.pairwise_map, List.pairwise_map]
  simp only [ne_eq, documentDirectory_inj]

/-- **The documents of a directory keep their reports** just where they have
directories of their own: after a run over all of them that returns, each has
its plan and its result in its directory if and only if no two of them share
one. The documents themselves read as before, so the plans are those of the
documents that were there. -/
theorem reported_iff {directory : String} {paths : List String} {summary : RunSummary}
    (hpaths : documents w.files directory [] = .ok paths) (hnodup : paths.Nodup)
    (h : (runFiles c paths).Way w es (.ok summary) w') :
    (List.Forall₂ (Reported w'.files w.desk.artifacts) paths summary.results ↔
      (paths.map fun p => documentDirectory w.desk.artifacts (some p)).Nodup) ∧
    ∀ p ∈ paths, ∀ bytes, w.files.read p = .ok bytes → w'.files.read p = .ok bytes := by
  have hmd := isDocumentName_of_documents hpaths
  have heach := way_runFiles_iff.1 h
  rw [nodup_documentDirectory_iff]
  refine ⟨forall₂_reported_iff hmd hnodup heach, fun p hp bytes hread => ?_⟩
  exact read_document (hmd p hp) (each_runFile heach).2.1 hread

/-- The documents of a directory, where what it holds is in order already. -/
theorem documents_of_pairwise {t : FileTree} {directory : String} {paths : List String}
    (hdirectory : t.isDirectory directory = .ok true)
    (hplace : t.find (Path.plain directory) = .ok l)
    (hnames : ((t.namesIn l).filter isDocumentName).map (Path.child (Path.plain directory)) =
      paths)
    (hpaths : paths.Pairwise fun p q => decide (p ≤ q) = true) :
    documents t directory [] = .ok paths := by
  show documentsIn t directory = .ok paths
  unfold documentsIn
  rw [hdirectory, hplace]
  show Except.ok (List.mergeSort _ fun p q => decide (p ≤ q)) = _
  rw [hnames, List.mergeSort_of_pairwise hpaths]

/-- A run that comes to a result has a way to it. -/
theorem way_of_isOk {σ α : Type} {server : Server σ} {s : σ} {x : Act α}
    (h : ((x.run server w s).1.1).isOk = true) : ∃ a es w', x.Way w es (.ok a) w' := by
  have hway := Act.way_run server x w s
  cases hresult : (x.run server w s).1.1 with
  | ok a =>
    rw [hresult] at hway
    exact ⟨a, _, _, hway⟩
  | error e =>
    rw [hresult] at h
    cases h

/-- Two documents whose names differ in a letter, -/
def apart : List String := ["tests/md/a.md", "tests/md/b.md"]

/-- two whose names differ in what is neither letter nor digit, -/
def alike : List String := ["tests/md/a b.md", "tests/md/a-b.md"]

/-- and a world with documents in which nothing is written. -/
def pantry (paths : List String) : World :=
  { atWork with files := FileTree.ofList (paths.map fun p => (p, .file [])) }

/-- Documents with slugs of their own keep their reports. -/
theorem reported_apart :
    documents (pantry apart).files "tests/md" [] = .ok apart ∧ apart.Nodup ∧
    ∃ es summary w', (runFiles site apart).Way (pantry apart) es (.ok summary) w' ∧
      List.Forall₂ (Reported w'.files (pantry apart).desk.artifacts) apart summary.results := by
  have hpaths : documents (pantry apart).files "tests/md" [] = .ok apart :=
    documents_of_pairwise (by decide +kernel) (l := ["tests", "md"]) (by decide +kernel)
      (by decide +kernel) (by decide +kernel)
  have hnodup : apart.Nodup := by decide
  have hruns : (((runFiles site apart).run unwilling (pantry apart) ()).1.1).isOk = true := by
    decide +kernel
  obtain ⟨summary, es, w', h⟩ := way_of_isOk hruns
  exact ⟨hpaths, hnodup, es, summary, w', h, (reported_iff hpaths hnodup h).1.2 (by decide +kernel)⟩

/-- **Not every run leaves each document its reports:** it returns, and of two
documents that share a directory only one has them. -/
theorem alike_unreported :
    ¬∀ (c : Conduct) (w w' : World) (es : List Exchange) (directory : String)
        (paths : List String) (summary : RunSummary),
      documents w.files directory [] = .ok paths → paths.Nodup →
      (runFiles c paths).Way w es (.ok summary) w' →
      List.Forall₂ (Reported w'.files w.desk.artifacts) paths summary.results := by
  intro hall
  have hpaths : documents (pantry alike).files "tests/md" [] = .ok alike :=
    documents_of_pairwise (by decide +kernel) (l := ["tests", "md"]) (by decide +kernel)
      (by decide +kernel) (by decide +kernel)
  have hnodup : alike.Nodup := by decide
  have hruns : (((runFiles site alike).run unwilling (pantry alike) ()).1.1).isOk = true := by
    decide +kernel
  obtain ⟨summary, es, w', h⟩ := way_of_isOk hruns
  have hreported := hall _ _ _ _ _ _ _ hpaths hnodup h
  have heach : (each (runFile site) alike).Way (pantry alike) es (.ok summary.results) w' :=
    way_runFiles_iff.1 h
  have hslugs : (alike.map fun p => slugOf (some p)).Nodup :=
    (forall₂_reported_iff (isDocumentName_of_documents hpaths) hnodup heach).1 hreported
  exact absurd hslugs (by decide +kernel)

end Walkthrough.Run
