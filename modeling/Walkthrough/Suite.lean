/-!
# Suites

A suite is a parsed scenario document: a name, cases with their steps in
order, and the path it was read from. `flatten` lists the steps as they are
carried out, each under the title of its case.
-/

namespace Walkthrough

/-- A named, ordered group of steps. -/
structure Case where
  title : String
  steps : List String := []
deriving DecidableEq, Repr, Inhabited

/-- A step under the title of its case. -/
structure FlatStep where
  caseTitle : String
  step : String
deriving DecidableEq, Repr, Inhabited

/-- A parsed scenario document. -/
structure Suite where
  name : String
  cases : List Case := []
  source : Option String := none
deriving DecidableEq, Repr, Inhabited

namespace Suite

/-- The name of a document that gives itself none. -/
def defaultName : String := "Suite"

/-- The title of the one case of a document without case markers. -/
def defaultCaseTitle : String := "default"

/-- All steps in the order in which they are carried out. -/
def flatten (s : Suite) : List FlatStep :=
  s.cases.flatMap fun c => c.steps.map (⟨c.title, ·⟩)

/-- How many steps there are. -/
def stepCount (s : Suite) : Nat := s.cases.foldr (fun c n => c.steps.length + n) 0

/-- The steps are counted as they are listed. -/
theorem length_flatten (s : Suite) : s.flatten.length = s.stepCount := by
  obtain ⟨_, cases, _⟩ := s
  simp only [flatten, stepCount]
  induction cases with
  | nil => rfl
  | cons c rest ih => simp [ih]

end Suite

end Walkthrough
