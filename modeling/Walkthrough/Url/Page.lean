import Walkthrough.Url.Reference
import Walkthrough.Path
/-!
# Pages

The page that a step goes to, and the page to try when that one shows nothing.
A target that is a web address stays as it is; any other is read against the
base URL. The page to try next has the same URL but for `.html` at the end of
its path, where that path names something without an extension.
-/

namespace Walkthrough.Url

/-- The letter `s` in either case, and the long `s`. -/
def isLetterS (c : Char) : Bool := c.toLower = 's' || c.toNat = 0x17F

/-- The text starts with the scheme of a web address and two slashes. -/
def isWebAddress (text : List Char) : Bool :=
  match text with
  | a :: b :: c :: d :: rest =>
    let rest := if rest.head?.any isLetterS then rest.tail else rest
    [a, b, c, d].map Char.toLower = "http".toList && rest.take 3 = "://".toList
  | _ => false

/-- **The page that a target means.** -/
def page (base target : String) : Except Error String :=
  if isWebAddress target.toList then .ok target
  else (resolve base.toList target.toList).map String.ofList

/-- The path names something that has no extension. -/
def lacksExtension (path : List Char) : Bool :=
  path ≠ [] && path.getLast? ≠ some '/' && Path.extension (String.ofList path) = ""

/-- The extension of pages. -/
def pageExtension : List Char := ".html".toList

/-- **The page to try** in place of one that shows nothing. -/
def alternative? (url : String) : Except Error (Option String) := do
  let p ← split url.toList
  if lacksExtension p.path then
    return some (String.ofList { p with path := p.path ++ pageExtension }.join)
  else return none

end Walkthrough.Url
