import Walkthrough.Outcome
/-!
# What statuses say

The status of a case, of a suite and of a run is computed in three ways: from
all outcomes, from a count of failed ones, and from a sum of such counts. All
three say the same, that no step has failed.
-/

namespace Walkthrough

theorem Outcome.passed_iff (o : Outcome) : o.passed = true ↔ o.status = .ok := by
  unfold Outcome.passed
  rw [decide_eq_true_iff]

theorem CaseResult.status_eq_ok_iff (c : CaseResult) :
    c.status = .ok ↔ ∀ o ∈ c.outcomes, o.status = .ok := by
  unfold CaseResult.status
  simp only [← Outcome.passed_iff, ← List.all_eq_true]
  split
  · next h => exact iff_of_true rfl h
  · next h => exact iff_of_false (by decide) h

namespace SuiteResult

variable (r : SuiteResult)

theorem failed_eq_zero_iff : r.failed = 0 ↔ ∀ o ∈ r.perStep, o.status = .ok := by
  unfold failed
  rw [List.countP_eq_zero]
  simp only [Bool.not_eq_true, Bool.not_eq_false', Outcome.passed_iff]

theorem status_eq_ok_iff_failed : r.status = .ok ↔ r.failed = 0 := by
  unfold status
  split
  · next h => exact iff_of_true rfl h
  · next h => exact iff_of_false (by decide) h

/-- **A suite is well just where all its cases are.** -/
theorem failed_eq_zero_iff_cases : r.failed = 0 ↔ ∀ c ∈ r.cases, c.status = .ok := by
  rw [failed_eq_zero_iff]
  simp only [CaseResult.status_eq_ok_iff, perStep, List.mem_flatMap]
  exact ⟨fun h c hc o ho => h o ⟨c, hc, ho⟩, fun h o ⟨c, hc, ho⟩ => h c hc o ho⟩

end SuiteResult

namespace RunSummary

variable (s : RunSummary)

theorem failed_eq_zero_iff : s.failed = 0 ↔ ∀ r ∈ s.results, r.failed = 0 := by
  unfold failed
  induction s.results with
  | nil => simp
  | cons r rest ih =>
    rw [List.foldr_cons, Nat.add_eq_zero_iff, ih, List.forall_mem_cons]

theorem exitCode_eq : s.exitCode = 0 ∨ s.exitCode = 1 := by
  unfold exitCode
  split
  · exact .inl rfl
  · exact .inr rfl

/-- **A run is well just where all its suites are.** -/
theorem exitCode_eq_zero_iff : s.exitCode = 0 ↔ ∀ r ∈ s.results, r.failed = 0 := by
  rw [← failed_eq_zero_iff]
  unfold exitCode
  split
  · next h => exact iff_of_true rfl h
  · next h => exact iff_of_false (by decide) h

end RunSummary

end Walkthrough
