import Walkthrough.Run.Step
import Walkthrough.Suite.Reader
/-!
# Carrying out suites

A suite is carried out case by case and step by step. A step that fails is an
outcome like any other, and the steps after it are carried out all the same.
A suite that opens no page of its own starts on the page at the root of the
site. The plan of a suite is written down before anything is done, its result
at the end.
-/

namespace Walkthrough.Run

/-- Milliseconds for the page at the root of the site to load. -/
def initialLoadTimeout : Int := 4000

/-- Milliseconds for a probed page to load, and for the network to come to rest. -/
def probeTimeout : Int := 8000

/-- Seconds between two readings of the clock. -/
def seconds (start stop : Nat) : Double := .ofRatio false (stop - start) 1000000000

/-- Why a step failed, if it did. Any other fault is one of the run. -/
def failureOf : Except Fault Classification → Except Fault (Option String)
  | .ok _ => .ok none
  | .error (.step f) => .ok (some f.reason)
  | .error e => .error e

/-- The outcome of a step that failed for a reason, or did not fail. -/
def outcomeOf (raw caseTitle : String) (reason : Option String) (duration : Double) : Outcome where
  step := raw
  caseTitle := caseTitle
  kind := (Step.classify raw).action.kind
  status := if reason.isSome then .failed else .ok
  reason := reason
  duration := duration

/-- What is printed about the outcome of a step. -/
def announce (o : Outcome) : Update Unit :=
  if o.passed then Report.stepPassed o else Report.stepFailed o

/-- **A step and its outcome.** -/
def runStep (c : Conduct) (caseTitle raw : String) : Act Outcome := do
  let start ← .read (·.clock)
  let reason ← .ofExcept id (failureOf (← .attempt (execute c raw)))
  let stop ← .read (·.clock)
  let outcome := outcomeOf raw caseTitle reason (seconds start stop)
  announce outcome
  return outcome

/-- A list of acts, in order. -/
def each (f : α → Act β) : List α → Act (List β)
  | [] => return []
  | a :: rest => do
    let b ← f a
    return b :: (← each f rest)

/-- **A case and its result.** -/
def runCase (c : Conduct) (case : Case) : Act CaseResult := do
  Report.caseStarted case.title
  return ⟨case.title, ← each (runStep c case.title) case.steps⟩

/-- One of the steps of a suite opens a page. -/
def opensPage (s : Suite) : Bool :=
  s.flatten.any fun f => (Step.classify f.step).action.kind = .navigate

/-- The page at the root of the site is opened. -/
def openRoot (c : Conduct) : Act Unit := do
  .log .noNavigation
  let url ← .ofExcept .url (Url.page c.baseUrl "/")
  goTo url initialLoadTimeout

/-- **A suite and its result.** -/
def runSuite (c : Conduct) (s : Suite) : Act SuiteResult := do
  let _ ← Report.writePlan s
  Report.suiteStarted s
  if !opensPage s then openRoot c
  let cases ← each (runCase c) s.cases
  let result : SuiteResult := ⟨s.name, s.source, cases⟩
  Report.suiteFinished result
  return result

/-- **A document and its result.** -/
def runFile (c : Conduct) (path : String) : Act SuiteResult := do
  let bytes ← Update.readFile path
  runSuite c (Suite.ofFile path bytes)

/-- **Documents, one after the other,** and their results. -/
def runFiles (c : Conduct) (paths : List String) : Act RunSummary := do
  return ⟨← each (runFile c) paths⟩

/-- **A single page,** of which the markup and a picture are kept. Returns the
path of what is kept, without extension. -/
def probe (c : Conduct) (target : String) : Act String := do
  let url ← .ofExcept .url (Url.page c.baseUrl target)
  goTo url probeTimeout
  awaitIdle probeTimeout
  let image ← .bestEffort none Session.screenshot
  let markup ← .bestEffort none Session.pageMarkup
  Report.writeProbe url image markup

end Walkthrough.Run
