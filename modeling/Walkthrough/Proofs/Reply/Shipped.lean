import Walkthrough.Proofs.Json.Line
import Walkthrough.Proofs.Reply.Section
import Walkthrough.Proofs.Session.Call
/-!
# Values as they are shipped

A server may ship a value as a text or as a JSON item. The text holds the line of
the value, with gaps around it or as the body of a section headed `Result`; and
none of the sections below it, nor anything that stands in a text of the value,
is taken for the end of that line or for a heading. So what is read is that
value in each of these shapes, if there is room for it (`value_of_carries`).
-/

namespace Walkthrough

open Walkthrough.Json Walkthrough.Text

namespace Reply

variable {room : Nat} {v : Value} {front back cs : List Char} {text : String}

/-! ## The shapes -/

/-- **The texts that ship a value:** its line, with any gaps around it; or its
line under the heading `Result`, and below that nothing or any further
sections. -/
inductive Ships (v : Value) : String → Prop
  | alone {front back : String} (hfront : front.toList.all isGap = true)
    (hback : back.toList.all isGap = true) : Ships v (front ++ v.toLine ++ back)
  | headed : Ships v ("### Result\n" ++ v.toLine)
  | above (below : String) : Ships v ("### Result\n" ++ v.toLine ++ "\n###" ++ below)

/-- **The items that carry a value:** a single text item with a text that ships it,
or an item that holds the value itself, where no other JSON item stands in front
of that one. -/
inductive Carries (v : Value) : List Value → Prop
  | text {item : Value} {text : String} (htype : item.field "type" = .text "text")
    (htext : item.field "text" = .text text) (hships : Ships v text) : Carries v [item]
  | json (front back : List Value) {item : Value} (hv : v ≠ .null)
    (hfront : ∀ i ∈ front, isOf "json" i = false) (htype : item.field "type" = .text "json")
    (hjson : item.field "json" = v) : Carries v (front ++ item :: back)

/-- **A result that delivers a value:** it is no error, has no structured value,
and its contents carry the value. -/
structure Delivers (v result : Value) : Prop where
  unflagged : (result.field "isError").truthy = false
  unstructured : result.field "structuredContent" = .null
  carries : ∃ its, result.field "content" = .list its ∧ Carries v its

/-! ## A line in a text -/

theorem isBlank_of_isGap {c : Char} (h : isGap c = true) : isBlank c = true := by
  simp only [isGap, Bool.or_eq_true, decide_eq_true_eq] at h
  rcases h with ((rfl | rfl) | rfl) | rfl <;> decide

/-- **A text that is one line,** which is no heading and has no blanks around it. -/
structure IsLine (cs : List Char) : Prop where
  newline : '\n' ∉ cs
  heading : ¬sectionMark <+: cs
  trimmed : trim cs = cs
  nonempty : cs ≠ []

/-- What stands below a line that ends a section: nothing, or another heading. -/
inductive Below : List Char → Prop
  | nothing : Below []
  | heading (cs : List Char) : Below ('\n' :: (sectionMark ++ cs))

namespace IsLine

variable (h : IsLine cs)
include h

theorem trimStart_append (back : List Char) : trimStart (cs ++ back) = cs ++ back := by
  have hstart := trimStart_eq_self (trim_eq_self_iff.1 h.trimmed).1
  have hne : trimStart cs ≠ [] := by
    rw [hstart]
    exact h.nonempty
  rw [Text.trimStart_append hne, hstart]

/-- A line ends with no blank. -/
theorem exists_last : ∃ front c, cs = front ++ [c] ∧ isBlank c = false := by
  obtain hnil | ⟨front, c, hcs⟩ := List.eq_nil_or_concat cs
  · exact absurd hnil h.nonempty
  · rw [List.concat_eq_append] at hcs
    exact ⟨front, c, hcs, (trim_eq_self_iff.1 h.trimmed).2 c (by simp [hcs])⟩

/-- A section that is one line ends with that line. -/
theorem beforeSection_below {below : List Char} (hbelow : Below below) :
    beforeSection (cs ++ below) = cs := by
  cases hbelow with
  | nothing => rw [List.append_nil, beforeSection_line h.newline]
  | heading below =>
    -- a heading in the line would stand behind a line feed
    refine beforeSection_append (fun hfound => h.newline ?_) below
    exact hfound.subset List.mem_cons_self

/-- Trimming takes off at most a part of what stands below, and no heading. -/
theorem trim_headed {below : List Char} (hbelow : Below below) :
    ∃ rest, Below rest ∧ trim ("### Result".toList ++ '\n' :: (cs ++ below)) =
      "### Result".toList ++ '\n' :: (cs ++ rest) := by
  have hstart (cs : List Char) : trimStart ("### Result".toList ++ cs) = "### Result".toList ++ cs :=
    rfl
  unfold trim
  rw [hstart]
  cases hbelow with
  | nothing =>
    -- the line ends with no blank, so nothing is trimmed
    obtain ⟨front, c, hline, hc⟩ := h.exists_last
    have hend := trimEnd_append_cons hc ("### Result".toList ++ '\n' :: front) []
    refine ⟨[], .nothing, ?_⟩
    rw [hline]
    simpa [trimEnd, dropTail] using hend
  | heading below =>
    -- trimming does not get past the last mark of the next heading
    have hend := trimEnd_append_cons (c := '#') (by decide)
      ("### Result".toList ++ '\n' :: (cs ++ ['\n', '#', '#'])) below
    refine ⟨'\n' :: (sectionMark ++ trimEnd below), .heading _, ?_⟩
    simpa [sectionMark] using hend

/-- **The body under the heading is the line,** whatever stands below it. -/
theorem resultBody?_headed {below : List Char} (hbelow : Below below) :
    resultBody? (trim ("### Result".toList ++ '\n' :: (cs ++ below))) = some cs := by
  obtain ⟨rest, hrest, htrim⟩ := h.trim_headed hbelow
  rw [htrim, resultBody?_heading, h.trimStart_append, h.beforeSection_below hrest, h.trimmed]

/-- A line alone has no section. -/
theorem resultBody?_alone (hfront : front.all isGap = true) (hback : back.all isGap = true) :
    resultBody? (trim (front ++ (cs ++ back))) = none := by
  have hblank {gap : List Char} (hgap : gap.all isGap = true) : trimStart gap = [] :=
    trimStart_eq_nil_iff.2 fun c hc => isBlank_of_isGap (List.all_eq_true.1 hgap c hc)
  rw [trim_blank_append (hblank hfront), trim_append_blank _ (hblank hback), h.trimmed]
  exact resultBody?_eq_none h.heading

/-- **A line under the heading is what is read,** -/
theorem said_headed {below : List Char} (hbelow : Below below)
    (htext : text.toList = "### Result".toList ++ '\n' :: (cs ++ below)) :
    said text = String.ofList cs := by
  rw [said_eq, htext, h.resultBody?_headed hbelow, Option.map_some, Option.getD_some]

/-- and so is one alone, with any gaps around it. -/
theorem said_alone (hfront : front.all isGap = true) (hback : back.all isGap = true)
    (htext : text.toList = front ++ (cs ++ back)) : said text = text := by
  rw [said_eq, htext, h.resultBody?_alone hfront hback, Option.map_none, Option.getD_none]

end IsLine

/-- **The line of a value is one.** A heading is no JSON value. -/
theorem isLine_line (hv : v.Whole) : IsLine (Style.line.value 0 v) where
  newline hmem := absurd (hv.inAscii 0 _ hmem) (by decide)
  heading := by
    rintro ⟨cs, hcs⟩
    have hread := parse_toLine hv Room.holds_none
    unfold Value.toLine at hread
    rw [← hcs, parse_of_heading] at hread
    cases hread
  trimmed := hv.trim_line
  nonempty := List.ne_nil_of_length_pos (begins_value Style.line 0 v).length_pos

/-- **A text that ships a value is read as that value.** -/
theorem readText_of_ships (hv : v.Whole) (hroom : v.depth ≤ room) (h : Ships v text) :
    readText room text = .ok v := by
  have hline := isLine_line hv
  have hheld : Room.Holds (some room) v.depth := Room.holds_some.2 hroom
  unfold readText
  cases h with
  | @alone front back hfront hback =>
    have htext : (front ++ v.toLine ++ back).toList =
        front.toList ++ (Style.line.value 0 v ++ back.toList) := by
      simp [Value.toLine]
    have hread := parse_line hv hheld hfront hback
    rw [← htext, String.ofList_toList] at hread
    rw [hline.said_alone hfront hback htext, load_of_parse hread]
  | headed =>
    rw [hline.said_headed .nothing (by simp [Value.toLine])]
    exact load_of_parse (parse_toLine hv hheld)
  | above below =>
    rw [hline.said_headed (.heading below.toList) (by simp [Value.toLine, sectionMark])]
    exact load_of_parse (parse_toLine hv hheld)

/-- An item of a type holds something, in the field of that name. -/
def Holds (type : String) (item : Value) : Prop :=
  item.field "type" = .text type ∧ item.field type ≠ .null

theorem isOf_iff {type : String} {item : Value} :
    isOf type item = true ↔ item.field "type" = .text type := by
  unfold isOf Value.isText
  split <;> simp_all

theorem holds_iff {type : String} {item : Value} :
    (isOf type item && !(item.field type).isNull) = true ↔ Holds type item := by
  have hnull : (item.field type).isNull = false ↔ item.field type ≠ .null := by
    cases item.field type <;> simp [Value.isNull]
  rw [Bool.and_eq_true, isOf_iff, Bool.not_eq_true', hnull]
  rfl

/-- The first item of a kind is found. -/
theorem find?_of_first {P : Value → Prop} {p : Value → Bool} {its back : List Value} {item : Value}
    (hp : ∀ i, p i = true ↔ P i) (hits : ∀ i ∈ its, ¬P i) (hitem : P item) :
    (its ++ item :: back).find? p = some item := by
  refine List.find?_eq_some_iff_append.2 ⟨(hp item).2 hitem, its, back, rfl, fun i hi => ?_⟩
  rw [Bool.not_eq_true', ← Bool.not_eq_true, hp]
  exact hits i hi

/-- The first JSON item that holds something is found. -/
theorem json?_of_first {its : List Value} {item : Value} (back : List Value)
    (hits : ∀ i ∈ its, isOf "json" i = false) (htype : item.field "type" = .text "json")
    (hne : item.field "json" ≠ .null) : json? (its ++ item :: back) = some (item.field "json") := by
  have hnone : ∀ i ∈ its, ¬Holds "json" i := by
    intro i hi hholds
    have hjson : isOf "json" i = true := isOf_iff.2 hholds.1
    rw [hits i hi] at hjson
    cases hjson
  unfold json?
  rw [find?_of_first (fun _ => holds_iff) hnone ⟨htype, hne⟩, Option.map_some]

/-- **The items that carry a value have that value,** if there is room for it where it is
read from a text. -/
theorem value_of_carries {its : List Value} (hv : v.Whole)
    (hroom : ∀ text, json? its = none → text? its = some (.text text) → v.depth ≤ room)
    (h : Carries v its) : value room (.list its) .null = .ok v := by
  cases h with
  | text htype htext hships =>
    rw [value_text room htype htext]
    exact readText_of_ships hv (hroom _ (json?_text htype) (text?_text htype htext)) hships
  | json its back hne hits htype hjson =>
    subst hjson
    show items _ >>= valueOfItems room = _
    rw [items_list]
    show valueOfItems room _ = _
    unfold valueOfItems
    rw [json?_of_first back hits htype hne]

end Reply

namespace Session

variable {a : Answer} {v result : Value}

/-- The value of the items of a result is read off it, unless it is an error. -/
theorem readValue_of_value {its : List Value} (ha : a.outcome = .ok result)
    (hflag : (result.field "isError").truthy = false)
    (hcontent : result.field "content" = .list its)
    (hvalue : Reply.value a.room (.list its) (result.field "structuredContent") = .ok v) :
    readValue a = .ok v := by
  rw [readValue_of_result (readResult_eq_ok_iff.2 ⟨ha, hflag⟩), hcontent, Reply.items_list, hvalue]
  rfl

/-- **What is read off a result that delivers a value** is that value. -/
theorem readValue_of_delivers (hv : v.Whole) (h : Reply.Delivers v result)
    (ha : a.outcome = .ok result) (hroom : ∀ text, Reply.Relies result text → v.depth ≤ a.room) :
    readValue a = .ok v := by
  obtain ⟨its, hcontent, hcarries⟩ := h.carries
  have hnull : (result.field "structuredContent").isNull = true := by
    rw [h.unstructured]
    rfl
  have hitems : Reply.items (result.field "content") = .ok its := by
    rw [hcontent, Reply.items_list]
  refine readValue_of_value ha h.unflagged hcontent ?_
  rw [h.unstructured]
  exact Reply.value_of_carries hv
    (fun text hjson htext => hroom text ⟨hnull, its, hitems, hjson, htext⟩) hcarries

end Session

end Walkthrough
