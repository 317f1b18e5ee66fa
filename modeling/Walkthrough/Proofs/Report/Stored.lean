import Walkthrough.Proofs.Decimal.Double
import Walkthrough.Proofs.Outcome.Record
import Walkthrough.Proofs.Report.Files
import Walkthrough.Proofs.Text.Utf8
/-!
# Reports on file

A value that has been written to a file is read back from it (`stored_of_write`).
For a plan and for a result it is the very record that was written
(`stored_plan_and_result`): what a text holds is escaped and then taken out of
its escapes, and the digits of a duration state no other double.
-/

namespace Walkthrough.Report

open FileTree Json Text

variable {t t' : FileTree} {path : String} {v : Value}

/-- **A value is stored** at a path: a file is there, and its text is read as
that value. -/
def Stored (t : FileTree) (path : String) (v : Value) : Prop :=
  ∃ bytes, t.read path = .ok bytes ∧ Value.parse? (String.ofList (Utf8.decode bytes)) = some v

/-- The text of a value is read as it, if it can be read back and is settled. -/
theorem stored_of_read (hv : v.Legible) (hs : v.Settled)
    (hread : t.read path = .ok (toBytes v.toIndented)) : Stored t path v := by
  refine ⟨_, hread, ?_⟩
  rw [toBytes, Utf8.decode_encode, String.ofList_toList, parse?_toIndented hv, hs.reread]

/-- **What is written is stored,** under the same conditions. -/
theorem stored_of_write (hv : v.Legible) (hs : v.Settled)
    (hwrite : t.write path (toBytes v.toIndented) = .ok t')
    (hasks : asksForDirectory path = false) : Stored t' path v :=
  stored_of_read hv hs (read_of_write hwrite hasks)

/-- A plan that is written is stored in the directory of its document. -/
theorem stored_writePlan (s : Suite) : (writePlan s).Yields fun w path w' =>
    path = planPath w.desk.artifacts s.source ∧ Stored w'.files path s.plan := by
  refine (clerical_writePlan s).yields fun w path w' h => ?_
  obtain ⟨hpath, -, t, -, hwrite⟩ := writePlan_eq_ok h
  have hasks : asksForDirectory path = false := by
    rw [hpath]
    exact asksForDirectory_child (by decide) (by decide)
  exact ⟨hpath, stored_of_write s.whole_plan.legible s.whole_plan.settled hwrite hasks⟩

/-- A result that is written is stored in the current directory. -/
theorem stored_writeResult {r : SuiteResult} (hr : r.total < integerBound)
    (hd : ∀ o ∈ r.perStep, o.duration.Proper) : (writeResult r).Yields fun w found w' =>
      found = w.desk.current.map (Path.child · "result.json") ∧
        ∀ path ∈ found, Stored w'.files path r.toValue := by
  refine (clerical_writeResult r).yields fun w found w' h => ?_
  cases hw : w.desk.current with
  | none =>
    rw [writeResult_of_none r hw] at h
    cases h
    exact ⟨rfl, fun path hpath => by cases hpath⟩
  | some directory =>
    obtain ⟨rfl, -, hwrite⟩ := writeResult_eq_ok h hw
    refine ⟨rfl, fun path hpath => ?_⟩
    cases hpath
    exact stored_of_write (r.legible_toValue hr) (SuiteResult.settled_toValue hd) hwrite
      (asksForDirectory_child (by decide) (by decide))

/-- **The reports of a document can be read.** Nothing but a file that cannot be
written keeps them from being stored. What then stands in the plan is the suite
by its name, its source or null, and its steps in order, each under the title of
its case. What stands in the result is the record of it, unless it counts more
steps than there are numbers for; each of its durations is a double as it is to
be held, and is found again as that double. -/
theorem stored_plan_and_result :
    (∀ s : Suite, (writePlan s).Yields fun w path w' =>
      path = planPath w.desk.artifacts s.source ∧
        Stored w'.files path (.record [
          ("suite", .text s.name),
          ("file", s.source.elim .null .text),
          ("steps", .list (s.flatten.map fun f =>
            .record [("caseTitle", .text f.caseTitle), ("step", .text f.step)]))])) ∧
    ∀ r : SuiteResult, r.total < integerBound → (∀ o ∈ r.perStep, o.duration.Proper) →
      (writeResult r).Yields fun w found w' =>
        found = w.desk.current.map (Path.child · "result.json") ∧
          ∀ path ∈ found, Stored w'.files path r.toValue := by
  refine ⟨fun s => ?_, fun r hr hd => stored_writeResult hr hd⟩
  have hfile : s.source.elim .null .text = Value.ofText? s.source := by
    cases s.source with
    | none => rfl
    | some path => rfl
  rw [hfile]
  exact stored_writePlan s

/-- A document whose texts are hard to write down, -/
def thorny : Suite where
  name := "見本 \"1\" \\"
  source := some "tests/md/見本.md"
  cases := [⟨"tab\t", ["feed\n", "bell \x07"]⟩, ⟨"empty", []⟩]

/-- and what became of it. -/
def thornyResult : SuiteResult where
  suite := thorny.name
  source := thorny.source
  cases := [
    ⟨"tab\t", [{
      step := "feed\n"
      caseTitle := "tab\t"
      status := .failed
      reason := some "no \"go\""
      duration := .ofRatio false 375000000 1000000000 }]⟩,
    ⟨"empty", []⟩]

/-- Its plan and its result are both found on file. -/
theorem stored_thorny :
    let planned := writePlan thorny (World.start {} {})
    let reported := writeResult thornyResult planned.2
    planned.1.toOption = some "artifacts/exec/document/meta.json" ∧
      Stored planned.2.files "artifacts/exec/document/meta.json" thorny.plan ∧
      thornyResult.total < integerBound ∧ (∀ o ∈ thornyResult.perStep, o.duration.Proper) ∧
      reported.1.toOption = some (some "artifacts/exec/document/result.json") ∧
      Stored reported.2.files "artifacts/exec/document/result.json" thornyResult.toValue := by
  intro planned reported
  have hplanned : planned.1.toOption = some "artifacts/exec/document/meta.json" := by decide +kernel
  have hreported : reported.1.toOption = some (some "artifacts/exec/document/result.json") := by
    decide +kernel
  have hproper : ∀ o ∈ thornyResult.perStep, o.duration.Proper := by decide +kernel
  have hplan := (stored_plan_and_result.1 thorny).of_toOption hplanned
  have hresult := (stored_plan_and_result.2 thornyResult (lt_integerBound (by decide))
    hproper).of_toOption hreported
  exact ⟨hplanned, hplan.2, lt_integerBound (by decide), hproper, hreported, hresult.2 _ rfl⟩

end Walkthrough.Report
