import Walkthrough.Text.Blank
/-!
# Steps

A step is one line of a scenario, written for a person and carried out in a
browser. What it asks for is its `Action`: open a page, type into a field,
press something, look for a phrase, or nothing that the library recognizes. A
`Classification` is the flat record of a step that reports and messages are
made from; it can also be filled in by hand, with any fields absent.
-/

namespace Walkthrough

/-- The kinds of step. -/
inductive StepKind where
  | navigate
  | fill
  | click
  | assertVisible
  | unrecognized
deriving DecidableEq, Repr, Inhabited

namespace StepKind

/-- The name of a kind in reports and messages. -/
def name : StepKind → String
  | navigate => "navigate"
  | fill => "fill"
  | click => "click"
  | assertVisible => "assert_visible"
  | unrecognized => "unrecognized"

/-- All kinds. -/
def all : List StepKind := [navigate, fill, click, assertVisible, unrecognized]

/-- The kind of a given name. -/
def ofName? (name : String) : Option StepKind := all.find? (·.name = name)

/-- A kind is found again by its name. -/
theorem ofName?_name (k : StepKind) : ofName? k.name = some k := by
  cases k <;> decide

end StepKind

/-- What a step asks for. -/
inductive Action where
  /-- Open the page at a path. -/
  | navigate (target : String)
  /-- Type a value into the control with a label. -/
  | fill (label value : String)
  /-- Press the control with a caption. -/
  | click (caption : String)
  /-- Check that the page shows a phrase. -/
  | assertVisible (phrase : String)
  /-- No known shape. -/
  | unrecognized
deriving DecidableEq, Repr, Inhabited

namespace Action

/-- The kind of an action. -/
def kind : Action → StepKind
  | navigate _ => .navigate
  | fill _ _ => .fill
  | click _ => .click
  | assertVisible _ => .assertVisible
  | unrecognized => .unrecognized

/-- What the action is aimed at: a path, a label, a caption or a phrase. -/
def target? : Action → Option String
  | navigate t => some t
  | fill l _ => some l
  | click c => some c
  | assertVisible p => some p
  | unrecognized => none

/-- The text to type. -/
def value? : Action → Option String
  | fill _ v => some v
  | _ => none

end Action

/-- A step: its trimmed text and what that text asks for. -/
structure Step where
  raw : String
  action : Action
deriving DecidableEq, Repr, Inhabited

/-- The record of a step. -/
structure Classification where
  kind : StepKind
  raw : String
  target : Option String := none
  value : Option String := none
deriving DecidableEq, Repr, Inhabited

/-- The record of a classified step. -/
def Step.classification (s : Step) : Classification where
  kind := s.action.kind
  raw := s.raw
  target := s.action.target?
  value := s.action.value?

/-- What a record is about: its target where that says something, its text
otherwise. -/
def Classification.subject (c : Classification) : String :=
  match c.target with
  | some t => if t = "" then c.raw else t
  | none => c.raw

end Walkthrough
