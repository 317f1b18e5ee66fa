import Walkthrough.Report
import Walkthrough.Server.Session
import Walkthrough.Step.Shape
import Walkthrough.Url.Page
/-!
# Carrying out a step

What a step of each kind does. A step that fills, clicks or looks has one call
on which it hangs, that of a resolver of the page script; waits, pictures and
the like are done as well as can be and change nothing about how a step ends.
A resolver that finds the script missing is asked once more after the script
has been installed again.
-/

namespace Walkthrough.Run

open Walkthrough.Json

/-- How steps are carried out. -/
structure Conduct where
  /-- What the targets of steps are read against. -/
  baseUrl : String
  /-- Pages that a step has opened are kept. -/
  keepsPages : Bool := false
  /-- What was seen at a step may be written down. -/
  reports : Bool := true
deriving DecidableEq, Repr, Inhabited

/-- How steps are carried out under some settings. -/
def Conduct.ofSettings (s : Settings) : Conduct := ⟨s.baseUrl, s.savePages, true⟩

/-- Milliseconds for a page to load. -/
def loadTimeout : Int := 8000

/-- Milliseconds for the network to come to rest after a page was opened. -/
def idleTimeout : Int := 8000

/-- Milliseconds for a page to settle after typing. -/
def settleTimeout : Int := 500

/-- Milliseconds for a page to load after a click. -/
def clickLoadTimeout : Int := 6000

/-- Milliseconds for the network to come to rest after a click. -/
def clickIdleTimeout : Int := 6000

/-- An act whose value and fault do not matter. -/
def idly (x : Act α) : Act Unit := .bestEffort () (Functor.map (fun _ => ()) x)

/-- The page may be loading. -/
def awaitLoad (timeout : Int) : Act Unit := idly (Session.waitFor "load" timeout)

/-- The network may be at work. -/
def awaitIdle (timeout : Int) : Act Unit := idly (Session.waitFor "networkidle" timeout)

/-- A page is opened and left to load. -/
def goTo (url : String) (timeout : Int) : Act Unit := do
  idly (Session.navigate url)
  awaitLoad timeout

/-- The other page of an address that shows nothing is tried, if there is one. -/
def tryAlternative (url : String) : Act Unit := do
  match ← .ofExcept .url (Url.alternative? url) with
  | some alternative =>
    .log (.emptyPage url alternative)
    goTo alternative loadTimeout
  | none => return ()

/-- The page that a step has opened is kept. -/
def keepOpenedPage : Act Unit := do
  match ← .bestEffort none Session.pageMarkup with
  | some markup => if markup ≠ "" then (do let _ ← Report.keepPage markup)
  | none => return ()

/-- **Open a page.** -/
def openPage (c : Conduct) (target : String) : Act Unit := do
  let url ← .ofExcept .url (Url.page c.baseUrl target)
  goTo url loadTimeout
  let hasText ← .bestEffort (.bool true) (Session.evaluate Page.hasText)
  if !Reply.meansYes hasText then tryAlternative url
  awaitIdle idleTimeout
  idly Session.screenshot
  if c.keepsPages && c.reports then keepOpenedPage

/-- What a resolver answers in a page that should have the script. -/
def answerOf (expression : String) : Act Value := do
  Session.ensureScript
  Session.evaluate expression

/-- The answer says that the page lacks the script. -/
def lacksScript (answer : Value) : Bool := answer.isText Page.scriptMissing

/-- **What a resolver answers.** A page that turns out to lack the script gets
it, and is asked once more. -/
def resolverAnswer (expression : String) : Act Value := do
  let answer ← answerOf expression
  if lacksScript answer then
    Session.forgetScript
    answerOf expression
  else return answer

/-- A resolver was found and means yes. -/
def accepts (answer : Value) : Bool := !lacksScript answer && Reply.meansYes answer

/-- **The call on which a step hangs:** whether the page says yes. A tool that
fails makes the step fail. -/
def resolve (kind : StepKind) (target expression : String) : Act Bool := do
  match ← .attempt (resolverAnswer expression) with
  | .ok answer => return accepts answer
  | .error (.tool t m) => .fail (.step (.callFailed kind target (Fault.tool t m).message))
  | .error e => .fail e

/-- What is seen at a step whose target was not found. -/
def captureFailure (c : Conduct) (step : Step) : Act Unit := do
  let image ← .bestEffort none Session.screenshot
  let markup ← .bestEffort none Session.pageMarkup
  if c.reports then
    let _ ← Report.writeSnapshot step.classification image markup

/-- **Type a value** into the field with a label. -/
def fillField (c : Conduct) (step : Step) (label value : String) : Act Unit := do
  if ← resolve .fill label (Page.typeByLabel label value) then
    awaitIdle settleTimeout
    idly Session.screenshot
  else
    captureFailure c step
    .fail (.step (.noField label))

/-- **Press a control.** This may bring another page. -/
def clickControl (c : Conduct) (step : Step) (caption : String) : Act Unit := do
  if ← resolve .click caption (Page.clickByText caption) then
    Session.forgetScript
    awaitLoad clickLoadTimeout
    awaitIdle clickIdleTimeout
    idly Session.screenshot
  else
    captureFailure c step
    .fail (.step (.noControl caption))

/-- **Look for a phrase.** -/
def lookFor (phrase : String) : Act Unit := do
  if ← resolve .assertVisible phrase (Page.visibleTextExists phrase) then return ()
  else .fail (.step (.notShown phrase))

/-- What is done about a step that is not recognized. -/
def passOver (step : Step) : Act Unit := do
  idly Session.screenshot
  .log (.unrecognized step.raw)

/-- What a step does. -/
def perform (c : Conduct) (step : Step) : Act Unit :=
  match step.action with
  | .navigate target => openPage c target
  | .fill label value => fillField c step label value
  | .click caption => clickControl c step caption
  | .assertVisible phrase => lookFor phrase
  | .unrecognized => passOver step

/-- **Carry out a step.** Its record is returned. -/
def execute (c : Conduct) (raw : String) : Act Classification := do
  let step := Step.classify raw
  perform c step
  return step.classification

end Walkthrough.Run
