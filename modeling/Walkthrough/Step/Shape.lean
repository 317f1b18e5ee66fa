import Walkthrough.Step
/-!
# The shapes of a step

Each kind of step has one shape, read off the whole of the trimmed line:

* a path without blanks, then `に移動`;
* a label, `に` with a gap on both sides, a value, a gap, `を入力`;
* a caption, a gap, `をクリック`;
* a phrase, a gap, `が見える`.

A gap is one or more blanks. Labels, values, captions and phrases are taken
without the blanks around them and hold no line feed. Where a line offers
several places to part label and value, the last one counts. A value may be
empty: then the gap that would surround it must be three blanks or more, of
which one inside is not a line feed.
-/

namespace Walkthrough.Shape

open Walkthrough.Text

/-- The particle between label and value. -/
def particle : Char := 'に'

/-- How a step to a page ends. -/
def navigateEnding : List Char := "に移動".toList

/-- How a typing step ends. -/
def fillEnding : List Char := "を入力".toList

/-- How a pressing step ends. -/
def clickEnding : List Char := "をクリック".toList

/-- How a check for a phrase ends. -/
def visibleEnding : List Char := "が見える".toList

/-- The text in front of an ending. -/
def before? (ending text : List Char) : Option (List Char) := ending.isSuffixOf? text

/-- The last character is a blank. -/
def endsBlank (cs : List Char) : Bool := cs.getLast?.any isBlank

/-- The first character is a blank. -/
def startsBlank (cs : List Char) : Bool := cs.head?.any isBlank

/-- The path of a step to a page: it starts with a slash, holds no blank, and
has more to it than the slash. -/
def path? (text : List Char) : Option (List Char) := do
  let path := trimEnd (← before? navigateEnding text)
  if path.head? = some '/' ∧ 2 ≤ path.length ∧ path.all (!isBlank ·) then some path else none

/-- What stands in front of a gap at the end of `text`. -/
def beforeGap? (text : List Char) : Option (List Char) :=
  let word := trim text
  if endsBlank text ∧ word ≠ [] ∧ '\n' ∉ word then some word else none

/-- What stands between two gaps. Nothing at all stands between them where the
two make up the whole, and one blank is left over that is not a line feed. -/
def betweenGaps? (text : List Char) : Option (List Char) :=
  if startsBlank text ∧ endsBlank text then
    match trim text with
    | [] => if text.tail.dropLast.any (· ≠ '\n') then some [] else none
    | word => if '\n' ∉ word then some word else none
  else none

/-- The ways to cut a list at a member `c`, the last one first. -/
def cuts [DecidableEq α] (c : α) : List α → List (List α × List α)
  | [] => []
  | d :: rest =>
    (cuts c rest).map (fun cut => (d :: cut.1, cut.2)) ++ if d = c then [([], rest)] else []

/-- Label and value of a typing step, parted at one particle. -/
def parted? (cut : List Char × List Char) : Option (List Char × List Char) := do
  let label ← beforeGap? cut.1
  let value ← betweenGaps? cut.2
  some (label, value)

/-- Label and value of a typing step. -/
def labelAndValue? (text : List Char) : Option (List Char × List Char) := do
  (cuts particle (← before? fillEnding text)).findSome? parted?

/-- The caption of a pressing step. -/
def caption? (text : List Char) : Option (List Char) := do
  beforeGap? (← before? clickEnding text)

/-- The phrase of a check. -/
def phrase? (text : List Char) : Option (List Char) := do
  beforeGap? (← before? visibleEnding text)

/-- A shape: the kind of step it is for, and how to read a line of it. -/
structure Rule where
  kind : StepKind
  read : List Char → Option Action

/-- The rule for steps to a page. -/
def navigateRule : Rule where
  kind := .navigate
  read text := (path? text).map fun p => .navigate (String.ofList p)

/-- The rule for typing steps. -/
def fillRule : Rule where
  kind := .fill
  read text := (labelAndValue? text).map fun p => .fill (String.ofList p.1) (String.ofList p.2)

/-- The rule for pressing steps. -/
def clickRule : Rule where
  kind := .click
  read text := (caption? text).map fun c => .click (String.ofList c)

/-- The rule for checks. -/
def visibleRule : Rule where
  kind := .assertVisible
  read text := (phrase? text).map fun p => .assertVisible (String.ofList p)

/-- The rules in order of priority. -/
def rules : List Rule := [navigateRule, fillRule, clickRule, visibleRule]

/-- The action that some rules, tried in order, read off a trimmed text. -/
def actionBy (rs : List Rule) (text : List Char) : Action :=
  (rs.findSome? (·.read text)).getD .unrecognized

end Walkthrough.Shape

namespace Walkthrough

/-- **The step that a line asks for.** The first rule that fits the whole
trimmed line decides. -/
def Step.classify (line : String) : Step :=
  let text := Text.trim line.toList
  ⟨String.ofList text, Shape.actionBy Shape.rules text⟩

end Walkthrough
