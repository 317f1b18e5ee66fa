import Walkthrough.Step
import Walkthrough.Json.Value
/-!
# Outcomes

What a run found out: an outcome for each step, gathered by case, by suite and
for the whole run. A case, a suite and a run have failed as soon as one of
their steps has.
-/

namespace Walkthrough

open Walkthrough.Json

/-- Whether something went as it should. -/
inductive Status where
  | ok
  | failed
deriving DecidableEq, Repr, Inhabited

namespace Status

/-- The name of a status in reports. -/
def name : Status → String
  | ok => "ok"
  | failed => "failed"

/-- The status of a given name. -/
def ofName? (name : String) : Option Status := [ok, failed].find? (·.name = name)

end Status

/-- What became of a step. -/
structure Outcome where
  step : String
  caseTitle : String
  kind : StepKind := .unrecognized
  status : Status := .ok
  reason : Option String := none
  duration : Double := .zero false
deriving DecidableEq, Repr, Inhabited

/-- The step went as it should. -/
def Outcome.passed (o : Outcome) : Bool := o.status = .ok

/-- What became of the steps of a case. -/
structure CaseResult where
  title : String
  outcomes : List Outcome := []
deriving DecidableEq, Repr, Inhabited

/-- A case has failed if one of its steps has. -/
def CaseResult.status (c : CaseResult) : Status :=
  if c.outcomes.all (·.passed) then .ok else .failed

/-- What became of the cases of a suite. -/
structure SuiteResult where
  suite : String
  source : Option String := none
  cases : List CaseResult := []
deriving DecidableEq, Repr, Inhabited

namespace SuiteResult

/-- The outcomes of all steps in order. -/
def perStep (r : SuiteResult) : List Outcome := r.cases.flatMap (·.outcomes)

/-- How many steps went as they should. -/
def passed (r : SuiteResult) : Nat := r.perStep.countP (·.passed)

/-- How many steps did not. -/
def failed (r : SuiteResult) : Nat := r.perStep.countP (!·.passed)

/-- How many steps there were. -/
def total (r : SuiteResult) : Nat := r.perStep.length

/-- A suite has failed if one of its steps has. -/
def status (r : SuiteResult) : Status := if r.failed = 0 then .ok else .failed

/-- Each step either went as it should or did not. -/
theorem passed_add_failed (r : SuiteResult) : r.passed + r.failed = r.total := by
  have h : r.perStep.length = _ := List.length_eq_countP_add_countP fun o : Outcome => o.passed
  simpa [passed, failed, total] using h.symm

end SuiteResult

/-- What became of the suites of a run. -/
structure RunSummary where
  results : List SuiteResult := []
deriving DecidableEq, Repr, Inhabited

namespace RunSummary

/-- How many steps went as they should. -/
def passed (s : RunSummary) : Nat := s.results.foldr (fun r n => r.passed + n) 0

/-- How many steps did not. -/
def failed (s : RunSummary) : Nat := s.results.foldr (fun r n => r.failed + n) 0

/-- The exit status: zero unless a step failed. -/
def exitCode (s : RunSummary) : Nat := if s.failed = 0 then 0 else 1

end RunSummary

end Walkthrough
