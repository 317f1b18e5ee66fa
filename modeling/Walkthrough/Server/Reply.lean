import Walkthrough.Fault
import Walkthrough.Json.Reader
/-!
# Replies

What the result of a tool says. A result is a record with contents, a flag for
errors and, at times, a structured value; nothing about its shape is taken for
granted. The value of a result is its structured value, else its first JSON
item, else what its first text item reads as. A text that opens with a section
headed `Result` stands for the body of that section alone. A text that states no
value stands for itself, but one that nests deeper than there is room for is a
fault.
-/

namespace Walkthrough.Reply

open Walkthrough.Json Walkthrough.Text

/-- The items of some contents. What counts as false has none; a text has its
characters and a record the names of its fields, none of which is an item that
holds anything. -/
def items (contents : Value) : Except Misshape (List Value) :=
  if contents.truthy then
    match contents with
    | .list vs => .ok vs
    | .text s => .ok (s.toList.map fun c => .text (String.singleton c))
    | .record fields => .ok (fields.map fun f => .text f.1)
    | _ => .error .contents
  else .ok []

/-- The item is of a type. -/
def isOf (type : String) (item : Value) : Bool := (item.field "type").isText type

/-- What heads a section. -/
def sectionMark : List Char := "###".toList

/-- What is left of a text in front of its next section. -/
def beforeSection : List Char → List Char
  | [] => []
  | c :: rest =>
    if ('\n' :: sectionMark).isPrefixOf (c :: rest) then [] else c :: beforeSection rest

/-- **The body of the section headed `Result`** with which a trimmed text
opens. The heading ends with its line; blank lines below it belong to it. -/
def resultBody? (text : List Char) : Option (List Char) :=
  match sectionMark.isPrefixOf? text with
  | none => none
  | some afterMark =>
    match "Result".toList.isPrefixOf? (trimStart afterMark) with
    | none => none
    | some afterHeading =>
      if '\n' ∈ afterHeading.takeWhile isBlank then
        some (trim (beforeSection (trimStart afterHeading)))
      else none

/-- What the text of an item says: the body of its result section, or all of it. -/
def said (text : String) : String :=
  match resultBody? (trim text.toList) with
  | some body => String.ofList body
  | none => text

/-- What is made of a text, with so much room: the JSON value that it states, or else
the text itself. -/
def load (room : Nat) (text : String) : Except Misshape Value :=
  match Value.parse (some room) text with
  | .ok v => .ok v
  | .error .noValue => .ok (.text text)
  | .error (.tooDeep nest) => .error (.tooDeep nest)

/-- **What the text of an item reads as.** -/
def readText (room : Nat) (text : String) : Except Misshape Value := load room (said text)

/-- The first JSON item that holds something. -/
def json? (its : List Value) : Option Value :=
  (its.find? fun i => isOf "json" i && !(i.field "json").isNull).map (·.field "json")

/-- The text of the first text item that has one. -/
def text? (its : List Value) : Option Value :=
  (its.find? fun i => isOf "text" i && !(i.field "text").isNull).map (·.field "text")

/-- The value of some items, read with so much room. -/
def valueOfItems (room : Nat) (its : List Value) : Except Misshape Value :=
  match json? its with
  | some v => .ok v
  | none =>
    match text? its with
    | some (.text s) => readText room s
    | some _ => .error .readText
    | none => .ok .null

/-- **The value of a result,** from its contents and its structured value. -/
def value (room : Nat) (contents structured : Value) : Except Misshape Value :=
  if structured.isNull then items contents >>= valueOfItems room else .ok structured

/-- **Whether a value means yes.** The texts for true and false and the digits
one and zero are read as such, blanks around them and case aside. -/
def meansYes : Value → Bool
  | .text s =>
    let word := (trim s.toList).map Char.toLower
    if word = "true".toList ∨ word = "1".toList then true
    else !(word = "false".toList || word = "0".toList || word.isEmpty)
  | v => v.truthy

/-- The texts of the text items that have one. -/
def errorTexts : List Value → Except Misshape (List String)
  | [] => .ok []
  | i :: rest =>
    if isOf "text" i && (i.field "text").truthy then
      match i.field "text" with
      | .text s => (errorTexts rest).map (s :: ·)
      | _ => .error .errorText
    else errorTexts rest

/-- What is said about an error that says nothing. -/
def unexplained : String := "tool reported an error"

/-- **What the contents of an error say.** -/
def errorText (contents : Value) : Except Misshape String := do
  match ← errorTexts (← items contents) with
  | [] => return unexplained
  | texts => return " ".intercalate texts

/-- The data of the first image item that has any. -/
def imageData? (its : List Value) : Option Value :=
  (its.find? fun i => isOf "image" i && (i.field "data").truthy).map (·.field "data")

/-- **The bytes of the first image** among some items. -/
def image? (its : List Value) : Except Fault (Option (List UInt8)) :=
  match imageData? its with
  | none => .ok none
  | some (.text s) =>
    match Base64.decode s with
    | .ok bytes => .ok (some bytes)
    | .error e => .error (.image e)
  | some _ => .error (.misshapen .imageData)

end Walkthrough.Reply
