import Walkthrough.Suite
/-!
# Writing a document

The plain form of a suite: a line for its name, then a line for each case and
one for each of its steps.
-/

namespace Walkthrough.Suite

/-- The lines of a case. -/
def caseLines (c : Case) : List (List Char) :=
  ("case: ".toList ++ c.title.toList) :: c.steps.map ("- ".toList ++ ·.toList)

/-- The lines of a suite. -/
def toLines (s : Suite) : List (List Char) :=
  ("suite: ".toList ++ s.name.toList) :: s.cases.flatMap caseLines

/-- **The document that states a suite.** -/
def render (s : Suite) : String :=
  String.ofList (s.toLines.flatMap (· ++ ['\n']))

end Walkthrough.Suite
