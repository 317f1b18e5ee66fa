import Walkthrough.Json.Writer
/-!
# Page expressions

The expressions that a step has evaluated in a page. A call to one of the
resolvers of the page script writes its arguments as JSON in ASCII, so that no
text of a scenario can end its literal early; in a page without the script it
gives a text of its own, by which the page is known to lack the script.
-/

namespace Walkthrough.Page

open Walkthrough.Json

/-- What the page script offers. -/
inductive Resolver where
  /-- Type a value into the field with a label. -/
  | typeByLabel
  /-- Press the control that fits a caption best. -/
  | clickByText
  /-- Which way of finding a control would be taken. -/
  | clickTier
  /-- Whether the page shows a phrase. -/
  | visibleTextExists
deriving DecidableEq, Repr

namespace Resolver

/-- The name of a resolver in the page. -/
def name : Resolver → String
  | typeByLabel => "typeByLabel"
  | clickByText => "clickByText"
  | clickTier => "clickTier"
  | visibleTextExists => "visibleTextExists"

/-- How many arguments a resolver takes. -/
def arity : Resolver → Nat
  | typeByLabel => 2
  | _ => 1

end Resolver

/-- The global name of the page script. -/
def globalName : String := "window.__mdw"

/-- What a resolver call gives in a page without the script. -/
def scriptMissing : String := "__mdw_missing__"

/-- The arguments of a call. -/
def argumentText (args : List Value) : String := ", ".intercalate (args.map (·.toLine))

/-- The call of a resolver. -/
def call (r : Resolver) (args : List Value) : String :=
  globalName ++ " ? " ++ globalName ++ "." ++ r.name ++ "(" ++ argumentText args ++ ") : " ++
    (Value.text scriptMissing).toLine

/-- The call of a resolver that takes so many arguments. -/
def call? (r : Resolver) (args : List Value) : Option String :=
  if args.length = r.arity then some (call r args) else none

/-- Type a value into the field with a label. -/
def typeByLabel (label value : String) : String := call .typeByLabel [.text label, .text value]

/-- Press the control that fits a caption best. -/
def clickByText (caption : String) : String := call .clickByText [.text caption]

/-- Whether the page shows a phrase. -/
def visibleTextExists (phrase : String) : String := call .visibleTextExists [.text phrase]

/-- Whether the page shows any text. -/
def hasText : String := "!!(document.body && document.body.innerText.length > 0)"

/-- The markup of the page. -/
def markup : String := "document.documentElement.outerHTML"

/-- An expression as the function that a tool takes. -/
def expressionFunction (expression : String) : String := "() => (" ++ expression ++ ")"

/-- Statements as the function that a tool takes. -/
def statementFunction (code : String) : String := "() => \x7b " ++ code ++ " \x7d"

end Walkthrough.Page
