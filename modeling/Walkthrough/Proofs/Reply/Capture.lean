import Walkthrough.Proofs.Json.Spelling
import Walkthrough.Proofs.Reply.Shipped
import Walkthrough.Proofs.Text.Base64
/-!
# Pictures and pages as they are sent

A picture comes in letters, in the first image item that has any data, and the
markup of a page as a JSON text, in the first text item that has a text. Whatever
other items stand around, and however the markup is spelled, what is read are the
bytes and the text that were sent (`pictureOf_of_shows`, `markupOf_of_tells`).
-/

namespace Walkthrough

open Walkthrough.Json Walkthrough.Text

namespace Reply

variable {room : Nat} {bytes : List UInt8} {m text : String} {item result : Value} {front back its : List Value}

/-! ## The shapes -/

/-- An image item has data. -/
def HasImage (item : Value) : Prop :=
  item.field "type" = .text "image" ∧ (item.field "data").truthy = true

/-- **A result that shows a picture:** it is no error, and the first of its image
items with data has that of the picture. -/
structure Shows (bytes : List UInt8) (result : Value) : Prop where
  unflagged : (result.field "isError").truthy = false
  content : ∃ front item back, result.field "content" = .list (front ++ item :: back) ∧
    (∀ i ∈ front, ¬HasImage i) ∧ item.field "type" = .text "image" ∧
    item.field "data" = .text (Base64.encode bytes)

/-- **The texts that state a text:** a JSON text for it, with any gaps around; or one
under the heading `Result`, and below that nothing or any further sections. -/
inductive Utters (m : String) : String → Prop
  | alone {front line back : String} (hfront : front.toList.all isGap = true)
    (hline : Quotes m.toList line.toList) (hback : back.toList.all isGap = true) :
    Utters m (front ++ line ++ back)
  | headed {line : String} (hline : Quotes m.toList line.toList) :
    Utters m ("### Result\n" ++ line)
  | above {line : String} (hline : Quotes m.toList line.toList) (below : String) :
    Utters m ("### Result\n" ++ line ++ "\n###" ++ below)

/-- **A result that tells a text:** it is no error, has no structured value and no
JSON item that holds something, and the first of its text items that has a text
states that one. -/
structure Tells (m : String) (result : Value) : Prop where
  unflagged : (result.field "isError").truthy = false
  unstructured : result.field "structuredContent" = .null
  content : ∃ front item back text, result.field "content" = .list (front ++ item :: back) ∧
    (∀ i ∈ front ++ item :: back, ¬Holds "json" i) ∧ (∀ i ∈ front, ¬Holds "text" i) ∧
    item.field "type" = .text "text" ∧ item.field "text" = .text text ∧ Utters m text

/-! ## The items -/

/-- **The first image with data** is the one that is read. -/
theorem imageData?_of_first (hfront : ∀ i ∈ front, ¬HasImage i) (hitem : HasImage item) :
    imageData? (front ++ item :: back) = some (item.field "data") := by
  have himage (i : Value) : (isOf "image" i && (i.field "data").truthy) = true ↔ HasImage i := by
    rw [Bool.and_eq_true, isOf_iff]
    rfl
  unfold imageData?
  rw [find?_of_first himage hfront hitem, Option.map_some]

/-- **The first text** is, where no JSON item holds anything. -/
theorem valueOfItems_of_first (hjson : ∀ i ∈ front ++ item :: back, ¬Holds "json" i)
    (hfront : ∀ i ∈ front, ¬Holds "text" i) (htype : item.field "type" = .text "text")
    (htext : item.field "text" = .text text) :
    valueOfItems room (front ++ item :: back) = readText room text := by
  have hnone : json? (front ++ item :: back) = none := by
    have hfind : (front ++ item :: back).find?
        (fun i => isOf "json" i && !(i.field "json").isNull) = none := by
      refine List.find?_eq_none.2 fun i hi => ?_
      rw [holds_iff]
      exact hjson i hi
    unfold json?
    rw [hfind, Option.map_none]
  have hfound : text? (front ++ item :: back) = some (.text text) := by
    have hitem : Holds "text" item := ⟨htype, by rw [htext]; exact nofun⟩
    unfold text?
    rw [find?_of_first (fun _ => holds_iff) hfront hitem, Option.map_some, htext]
  unfold valueOfItems
  rw [hnone, hfound]

/-! ## What they say -/

/-- The letters of a picture are its bytes. -/
theorem image?_of_first (hne : bytes ≠ []) (hfront : ∀ i ∈ front, ¬HasImage i)
    (htype : item.field "type" = .text "image")
    (hdata : item.field "data" = .text (Base64.encode bytes)) :
    image? (front ++ item :: back) = .ok (some bytes) := by
  have hitem : HasImage item := by
    refine ⟨htype, ?_⟩
    rw [hdata]
    exact decide_eq_true (Base64.encode_ne_empty hne)
  unfold image?
  rw [imageData?_of_first hfront hitem, hdata]
  dsimp only
  rw [Base64.decode_encode]

/-- A JSON text for a text is one line. -/
theorem isLine_of_quotes {cs line : List Char} (h : Quotes cs line) : IsLine line where
  newline := h.newline_notMem
  heading := by
    obtain ⟨xs, -, rfl⟩ := h
    rintro ⟨rest, hrest⟩
    cases hrest
  trimmed := by
    obtain ⟨xs, -, rfl⟩ := h
    refine trim_eq_self_iff.2 ⟨fun c hc => ?_, fun c hc => ?_⟩
    · cases hc
      decide
    · rw [← List.cons_append, List.getLast?_concat] at hc
      cases hc
      decide
  nonempty := by
    obtain ⟨xs, -, rfl⟩ := h
    exact List.cons_ne_nil _ _

/-- **A text that states a text is read as that text,** and takes no room. -/
theorem readText_of_utters (room : Nat) (h : Utters m text) :
    readText room text = .ok (.text m) := by
  have hparse {front back line : List Char} (hline : Quotes m.toList line)
      (hfront : front.all isGap = true) (hback : back.all isGap = true) :
      load room (String.ofList (front ++ (line ++ back))) = .ok (.text m) := by
    rw [load_of_parse (parse_of_quotes hline _ hfront hback), String.ofList_toList]
  have halone {line : List Char} (hline : Quotes m.toList line) :
      load room (String.ofList line) = .ok (.text m) := by
    have hload := @hparse [] [] line hline rfl rfl
    rwa [List.nil_append, List.append_nil] at hload
  unfold readText
  cases h with
  | @alone front line back hfront hline hback =>
    have htext : (front ++ line ++ back).toList = front.toList ++ (line.toList ++ back.toList) := by
      simp
    have hload := hparse hline hfront hback
    rw [← htext, String.ofList_toList] at hload
    rw [(isLine_of_quotes hline).said_alone hfront hback htext, hload]
  | headed hline =>
    rw [(isLine_of_quotes hline).said_headed .nothing (by simp), halone hline]
  | above hline below =>
    rw [(isLine_of_quotes hline).said_headed (.heading below.toList) (by simp [sectionMark]),
      halone hline]

end Reply

namespace Session

variable {bytes : List UInt8} {m : String} {result : Value} {a : Answer}

/-! ## The calls -/

/-- The picture that an answer gives. -/
def readPicture (answer : Except ServerFault Value) : Except Fault (Option (List UInt8)) :=
  readItems screenshotTool answer >>= Reply.image?

/-- The markup that an answer gives. -/
def readMarkup (answer : Answer) : Except Fault (Option String) :=
  readValue answer >>= fun v => .ok v.text?

theorem screenshot_eq :
    screenshot = single screenshotTool [("fullPage", .bool true)] fun a => readPicture a.outcome := by
  unfold screenshot
  rw [invoke_eq]
  refine single_bind fun its w => ?_
  cases h : Reply.image? its <;> rfl

theorem pageMarkup_eq : pageMarkup = single evaluateTool
    [("function", .text (Page.expressionFunction Page.markup))] readMarkup := by
  unfold pageMarkup
  rw [evaluate_eq]
  exact single_bind fun v w => rfl

/-- The picture that came of a call: one with something in it, if there is one. -/
def pictureOf (answer : Except ServerFault Value) : Option (List UInt8) :=
  ((readPicture answer).toOption.getD none).filter (!·.isEmpty)

/-- The markup that came of a call, if there is any. -/
def markupOf (answer : Answer) : Option String :=
  (readMarkup answer).toOption.getD none

/-- **A picture is had as it was sent.** -/
theorem pictureOf_of_shows (hne : bytes ≠ []) (h : Reply.Shows bytes result) :
    pictureOf (.ok result) = some bytes := by
  obtain ⟨front, item, back, hcontent, hfront, htype, hdata⟩ := h.content
  have hitems : readItems screenshotTool (.ok result) = .ok (front ++ item :: back) := by
    unfold readItems
    rw [readResult_eq_ok_iff.2 ⟨rfl, h.unflagged⟩]
    show (Reply.items (result.field "content")).mapError Fault.misshapen = _
    rw [hcontent, Reply.items_list]
    rfl
  have hread : readPicture (.ok result) = .ok (some bytes) := by
    unfold readPicture
    rw [hitems]
    exact Reply.image?_of_first hne hfront htype hdata
  unfold pictureOf
  rw [hread]
  exact Option.filter_some_pos (by simpa using hne)

/-- **Markup is had as it was sent.** -/
theorem markupOf_of_tells (h : Reply.Tells m result) (ha : a.outcome = .ok result) :
    markupOf a = some m := by
  obtain ⟨front, item, back, text, hcontent, hjson, hfront, htype, htext, hutters⟩ := h.content
  have hvalue : readValue a = .ok (.text m) := by
    refine readValue_of_value ha h.unflagged hcontent ?_
    rw [h.unstructured]
    show Reply.items _ >>= Reply.valueOfItems a.room = _
    rw [Reply.items_list]
    show Reply.valueOfItems a.room _ = _
    rw [Reply.valueOfItems_of_first hjson hfront htype htext, Reply.readText_of_utters _ hutters]
  unfold markupOf readMarkup
  rw [hvalue]
  rfl

end Session

end Walkthrough
