import Walkthrough.Proofs.Report.Stored
import Walkthrough.Proofs.Run.Documents
/-!
# What a run leaves to be read

A run measures how long a step takes in whole nanoseconds, and the double next
to a ratio is as it is to be held (`proper_durations`). So what becomes of a
document can be read from the files of its report, plan and result alike, when
it has had its turn (`stored_runFile`) and at the end of the run, where no other
document has its directory (`stored_runFiles`).
-/

namespace Walkthrough.Run

open FileTree Json Report

variable {c : Conduct} {s : Suite} {w w' : World} {es : List Exchange} {path : String}
  {r : SuiteResult}

theorem proper_seconds (start stop : Nat) : (seconds start stop).Proper :=
  Double.proper_ofRatio false _ (by decide)

theorem gives_any {α : Type} {A : Exchange → Prop} (x : Act α) :
    Act.Gives A x (fun _ => True) fun _ => True := by
  intro w es r w' _ _
  cases r with
  | ok a => trivial
  | error e => trivial

theorem timed_runStep (title raw : String) :
    Act.Gives (fun _ => True) (runStep c title raw) (·.duration.Proper) fun _ => True := by
  have hfailure : ∀ r : Except Fault Classification, Ends (fun _ => True) (fun _ => True) r →
      Ends (fun _ => True) (fun _ => True) (failureOf r) := by
    intro r _
    cases failureOf r with
    | ok reason => trivial
    | error e => trivial
  refine (gives_timed (gives_any _) hfailure).mono ?_ fun _ he => he
  rintro o ⟨reason, start, stop, -, rfl⟩
  exact proper_seconds start stop

theorem timed_runCase (case : Case) : Act.Gives (fun _ => True) (runCase c case)
    (fun k => ∀ o ∈ k.outcomes, o.duration.Proper) fun _ => True := by
  refine (gives_any _).bind fun _ _ => ?_
  refine (gives_each fun raw _ => timed_runStep case.title raw).bind fun os hos => ?_
  exact Act.gives_pure (forall_mem_of_forall₂ hos)

/-- **The durations that a run measures are as doubles are to be held,** in every
case of a suite. -/
theorem proper_durations (s : Suite) : Act.Gives (fun _ => True) (casesOf c s)
    (fun ks => ∀ k ∈ ks, ∀ o ∈ k.outcomes, o.duration.Proper) fun _ => True := by
  have hcases : Act.Gives (fun _ => True) (each (runCase c) s.cases)
      (fun ks => ∀ k ∈ ks, ∀ o ∈ k.outcomes, o.duration.Proper) fun _ => True :=
    (gives_each fun case _ => timed_runCase case).mono (fun _ => forall_mem_of_forall₂)
      fun _ he => he
  refine (gives_any _).bind fun _ _ => ?_
  split
  · exact (gives_any _).bind fun _ _ => hcases
  · exact hcases

theorem Turn.Taken.timed {t : Turn} (h : t.Taken c) :
    ∀ o ∈ t.result.perStep, o.duration.Proper := by
  intro o ho
  obtain ⟨k, hk, ho⟩ := List.mem_flatMap.1 ho
  exact proper_durations t.suite h.steps (fun _ _ => trivial) k hk o ho

/-- **The report of a document can be read:** its plan, as the document reads, and
its result. -/
def Readable (t : FileTree) (artifacts path : String) (r : SuiteResult) : Prop :=
  ∃ bytes, t.read path = .ok bytes ∧
    Stored t (planPath artifacts (some path)) (Suite.ofFile path bytes).plan ∧
    Stored t (resultPath artifacts (some path)) r.toValue

theorem stored_planBytes {t : FileTree} {place : String} {bytes : List UInt8}
    (h : t.read place = .ok (planBytes path bytes)) :
    Stored t place (Suite.ofFile path bytes).plan :=
  stored_of_read (Suite.whole_plan _).legible (Suite.whole_plan _).settled h

theorem stored_resultBytes {t : FileTree} {place : String} (hr : r.total < integerBound)
    (hd : ∀ o ∈ r.perStep, o.duration.Proper) (h : t.read place = .ok (resultBytes r)) :
    Stored t place r.toValue :=
  stored_of_read (r.legible_toValue hr) (SuiteResult.settled_toValue hd) h

/-- **What has become of a document can be read** as soon as it has had its
turn. -/
theorem stored_runFile (h : (runFile c path).Way w es (.ok r) w') (hr : r.total < integerBound) :
    ∃ bytes, w.files.read path = .ok bytes ∧
      Stored w'.files (planPath w.desk.artifacts (some path)) (Suite.ofFile path bytes).plan ∧
      Stored w'.files (resultPath w.desk.artifacts (some path)) r.toValue := by
  obtain ⟨bytes, hread, -, hplan, hresult, -⟩ := runFile_eq_ok h
  obtain ⟨t, ht, -, rfl, -⟩ := exists_turn h
  exact ⟨bytes, hread, stored_planBytes hplan, stored_resultBytes hr ht.timed hresult⟩

/-- The durations in all results of a run are as doubles are to be held. -/
theorem proper_results {paths : List String} {summary : RunSummary}
    (h : (runFiles c paths).Way w es (.ok summary) w') :
    ∀ r ∈ summary.results, ∀ o ∈ r.perStep, o.duration.Proper := by
  obtain ⟨ts, hts, -, hresults⟩ := exists_turns (way_runFiles_iff.1 h)
  intro r hr
  rw [← hresults] at hr
  obtain ⟨t, ht, rfl⟩ := List.mem_map.1 hr
  exact (hts.artifacts.2 t ht).1.timed

/-- **What has become of all documents can be read at the end of a run,** if they
have directories of their own. -/
theorem stored_runFiles {directory : String} {paths : List String} {summary : RunSummary}
    (hpaths : documents w.files directory [] = .ok paths)
    (hown : (paths.map fun p => documentDirectory w.desk.artifacts (some p)).Nodup)
    (h : (runFiles c paths).Way w es (.ok summary) w')
    (hr : ∀ r ∈ summary.results, r.total < integerBound) :
    List.Forall₂ (Readable w'.files w.desk.artifacts) paths summary.results := by
  have hreported : List.Forall₂ (Reported w'.files w.desk.artifacts) paths summary.results :=
    (forall₂_reported_iff (isDocumentName_of_documents hpaths) (.of_map _ hown)
      (way_runFiles_iff.1 h)).2 (nodup_documentDirectory_iff.1 hown)
  have hproper : ∀ r ∈ summary.results,
      r.total < integerBound ∧ ∀ o ∈ r.perStep, o.duration.Proper :=
    fun r hmem => ⟨hr r hmem, proper_results h r hmem⟩
  refine ((List.forall₂_and_left _ _).2 ⟨hproper, hreported.flip⟩).flip.imp ?_
  rintro p r ⟨⟨htotal, htimed⟩, bytes, hread, hplan, hresult⟩
  exact ⟨bytes, hread, stored_planBytes hplan, stored_resultBytes htotal htimed hresult⟩

end Walkthrough.Run
