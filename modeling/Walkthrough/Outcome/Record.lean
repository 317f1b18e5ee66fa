import Walkthrough.Outcome
import Walkthrough.Suite
import Walkthrough.Decimal.Notation
import Walkthrough.Text.Blank
/-!
# Records of plans and results

The JSON records that reports hold, and the reading of steps and outcomes from
records made elsewhere. Every field that does not fit is named, in the order
of the fields.
-/

namespace Walkthrough

open Walkthrough.Json

/-- The record of a step under the title of its case. -/
def FlatStep.toValue (f : FlatStep) : Value :=
  .record [("caseTitle", .text f.caseTitle), ("step", .text f.step)]

/-- The record of what a suite is going to do. -/
def Suite.plan (s : Suite) : Value :=
  .record [("suite", .text s.name), ("file", .ofText? s.source),
    ("steps", .list (s.flatten.map (·.toValue)))]

/-- The record of an outcome. -/
def Outcome.toValue (o : Outcome) : Value :=
  .record [("step", .text o.step), ("case_title", .text o.caseTitle),
    ("kind", .text o.kind.name), ("status", .text o.status.name),
    ("reason", .ofText? o.reason), ("duration", .float o.duration)]

/-- The record of a case. -/
def CaseResult.toValue (c : CaseResult) : Value :=
  .record [("title", .text c.title), ("status", .text c.status.name),
    ("steps", .list (c.outcomes.map (·.toValue)))]

/-- The record of a suite. -/
def SuiteResult.toValue (r : SuiteResult) : Value :=
  .record [("suite", .text r.suite), ("file", .ofText? r.source), ("passed", .nat r.passed),
    ("failed", .nat r.failed), ("total", .nat r.total), ("status", .text r.status.name),
    ("cases", .list (r.cases.map (·.toValue)))]

/-- What is wrong with a field. -/
inductive FieldTrouble where
  | unknownName
  | missing
  | noText
  | noNumber
  | noNumberText
deriving DecidableEq, Repr

/-- The name of what is wrong with a field. -/
def FieldTrouble.name : FieldTrouble → String
  | unknownName => "enum"
  | missing => "missing"
  | noText => "string_type"
  | noNumber => "float_type"
  | noNumberText => "float_parsing"

/-- A field that does not fit. -/
structure FieldError where
  field : String
  trouble : FieldTrouble
deriving DecidableEq, Repr

/-- A field of a record, or what is wrong with it. -/
abbrev Read (α : Type) := Except (List FieldError) α

namespace Read

/-- Two readings; what is wrong with either counts. -/
def and (f : Read (α → β)) (x : Read α) : Read β :=
  match f, x with
  | .ok f, .ok a => .ok (f a)
  | .ok _, .error e => .error e
  | .error e, .ok _ => .error e
  | .error e, .error e' => .error (e ++ e')

/-- Nothing is wrong. -/
def all (a : α) : Read α := .ok a

/-- A field that is wrong. -/
def wrong (field : String) (trouble : FieldTrouble) : Read α := .error [⟨field, trouble⟩]

/-- A text. -/
def text (fields : List (String × Value)) (name : String) : Read String :=
  match Value.lookup fields name with
  | none => wrong name .missing
  | some (.text s) => .ok s
  | some _ => wrong name .noText

/-- A text or nothing. -/
def text? (fields : List (String × Value)) (name : String) : Read (Option String) :=
  match Value.lookup fields name with
  | none | some .null => .ok none
  | some (.text s) => .ok (some s)
  | some _ => wrong name .noText

/-- One of some names, or what stands in where there is none. -/
def named (ofName? : String → Option α) (default : Option α)
    (fields : List (String × Value)) (name : String) : Read α :=
  match Value.lookup fields name with
  | none =>
    match default with
    | some a => .ok a
    | none => wrong name .missing
  | some (.text s) =>
    match ofName? s with
    | some a => .ok a
    | none => wrong name .unknownName
  | some _ => wrong name .unknownName

/-- A number, which a text may state, or zero. -/
def number (fields : List (String × Value)) (name : String) : Read Double :=
  match Value.lookup fields name with
  | none => .ok (.zero false)
  | some (.float d) => .ok d
  | some (.int n) =>
    match Double.ofInt? n with
    | some d => .ok d
    | none => wrong name .noNumber
  | some (.bool b) => .ok (.ofInt (if b then 1 else 0))
  | some (.text s) =>
    match Double.ofLooseText? s.toList with
    | some d => .ok d
    | none => wrong name .noNumberText
  | some _ => wrong name .noNumber

end Read

/-- The outcome that a record states. -/
def Outcome.ofFields (fields : List (String × Value)) : Read Outcome :=
  (Read.all Outcome.mk).and (Read.text fields "step")
    |>.and (Read.text fields "case_title")
    |>.and (Read.named StepKind.ofName? (some .unrecognized) fields "kind")
    |>.and (Read.named Status.ofName? (some .ok) fields "status")
    |>.and (Read.text? fields "reason")
    |>.and (Read.number fields "duration")

/-- The step that a record describes. -/
def Classification.ofFields (fields : List (String × Value)) : Read Classification :=
  (Read.all Classification.mk).and (Read.named StepKind.ofName? none fields "kind")
    |>.and (Read.text fields "raw")
    |>.and (Read.text? fields "target")
    |>.and (Read.text? fields "value")

end Walkthrough
