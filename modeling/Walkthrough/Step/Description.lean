import Walkthrough.Step
import Walkthrough.Text.Quoted
/-!
# Describing a step

A step in one line: its kind, and in brackets what it is about.
-/

namespace Walkthrough

/-- A step in one line. -/
def Classification.describe (c : Classification) : String :=
  let about := match c.kind, c.target with
    | .fill, _ => Text.quoted? c.target ++ ", " ++ Text.quoted? c.value
    | _, some t => Text.quoted t
    | _, none => Text.quoted c.raw
  c.kind.name ++ "(" ++ about ++ ")"

end Walkthrough
