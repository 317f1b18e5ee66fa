import Walkthrough.Proofs.Json.Room
import Walkthrough.Proofs.Text.Blank
import Walkthrough.Proofs.Text.Feed
import Walkthrough.Server.Scripted
/-!
# The section headed Result

A text may hold a result in a section of its own, with other sections below it.
What is read of such a text is the body of that section, and nothing of the
others changes it, as long as there is anything in that body and room for what it
states (`value_withSections_iff`). The heading takes all blank lines below it, and
so, where the body is blank, the line feed by which the next heading would be
known: that section is read in place of the body. A body that nests deeper than
there is room for is not taken for a text; it is a fault.
-/

namespace Walkthrough.Reply

open Walkthrough.Json Walkthrough.Text

variable {room : Nat} {body below : String} {item : Value} {front cs : List Char}

/-! ## Texts with sections -/

/-- A text with a body under the heading `Result`, and another section below. -/
def withSections (body below : String) : String :=
  "### Result\n" ++ body ++ "\n### " ++ below

/-- No line of a text heads a section. -/
def Headless (body : String) : Prop := ∀ line ∈ body.toList.splitOn '\n', ¬sectionMark <+: line

instance : Decidable (Headless body) := inferInstanceAs (Decidable (∀ line ∈ _, ¬_))

/-- What a text states: a JSON value, or else itself. -/
def stated (text : String) : Value :=
  match Value.parse? text with
  | some v => v
  | none => .text text

/-- There is room for what a text states. -/
def Fits (room : Nat) (text : String) : Prop :=
  ∀ nest, Value.parse (some room) text ≠ .error (.tooDeep nest)

theorem fits_of_parse {text : String} {v : Value} (h : Value.parse (some room) text = .ok v) :
    Fits room text := by
  intro nest hdeep
  cases h.symm.trans hdeep

theorem load_of_parse {text : String} {v : Value} (h : Value.parse (some room) text = .ok v) :
    load room text = .ok v := by
  unfold load
  rw [h]

/-- **What is made of a text** is what it states, where there is room for that. -/
theorem load_of_fits {text : String} (h : Fits room text) : load room text = .ok (stated text) := by
  have hsame : Value.parse (some room) text = Value.parse none text := by
    rcases parse_cases (some room) text with ⟨nest, hdeep⟩ | hsame
    · exact absurd hdeep (h nest)
    · exact hsame
  unfold load stated Value.parse?
  rw [← hsame]
  cases hparse : Value.parse (some room) text with
  | ok v => rfl
  | error e =>
    cases e with
    | noValue => rfl
    | tooDeep nest => exact absurd hparse (h nest)

/-- Where there is not, it is a fault. -/
theorem load_of_tooDeep {text : String} {nest : Nest}
    (h : Value.parse (some room) text = .error (.tooDeep nest)) :
    load room text = .error (.tooDeep nest) := by
  unfold load
  rw [h]

theorem load_eq_ok_iff {text : String} {v : Value} :
    load room text = .ok v ↔ stated text = v ∧ Fits room text := by
  constructor
  · intro h
    have hfits : Fits room text := by
      intro nest hdeep
      rw [load_of_tooDeep hdeep] at h
      cases h
    rw [load_of_fits hfits] at h
    exact ⟨Except.ok.inj h, hfits⟩
  · rintro ⟨rfl, hfits⟩
    exact load_of_fits hfits

theorem said_eq (text : String) :
    said text = ((resultBody? (trim text.toList)).map String.ofList).getD text := by
  unfold said
  cases resultBody? (trim text.toList) <;> rfl

/-- One text item is no JSON item, -/
theorem json?_text (htype : item.field "type" = .text "text") : json? [item] = none := by
  have hjson : isOf "json" item = false := by simp [isOf, htype, Value.isText]
  simp [json?, hjson]

/-- and its text is the one that is read. -/
theorem text?_text {text : String} (htype : item.field "type" = .text "text")
    (htext : item.field "text" = .text text) : text? [item] = some (.text text) := by
  have hof : isOf "text" item = true := by simp [isOf, htype, Value.isText]
  simp [text?, hof, htext, Value.isNull]

/-- **One text item says what its text reads as.** -/
theorem value_text (room : Nat) {text : String} (htype : item.field "type" = .text "text")
    (htext : item.field "text" = .text text) :
    value room (.list [item]) .null = load room (said text) := by
  show valueOfItems room [item] = _
  unfold valueOfItems
  rw [json?_text htype, text?_text htype htext]
  rfl

/-! ## Where a section ends -/

/-- **A section ends where the next one is headed,** if none is headed in it. -/
theorem beforeSection_append (h : ¬('\n' :: sectionMark) <:+: front) (cs : List Char) :
    beforeSection (front ++ '\n' :: (sectionMark ++ cs)) = front := by
  induction front with
  | nil => simp [beforeSection, sectionMark]
  | cons c front ih =>
    have hfront : ¬('\n' :: sectionMark) <:+: front :=
      fun hfound => h (hfound.trans (List.suffix_cons c front).isInfix)
    rw [List.cons_append, beforeSection, if_neg, ih hfront]
    intro hhead
    obtain ⟨rfl, hmark⟩ := List.cons_prefix_cons.1 (List.isPrefixOf_iff_prefix.1 hhead)
    have hmark : sectionMark <+: front := prefix_of_prefix_feed (by decide) hmark
    exact h (List.cons_prefix_cons.2 ⟨rfl, hmark⟩).isInfix

/-- **A line is not cut,** whatever stands in it. -/
theorem beforeSection_line (h : '\n' ∉ cs) : beforeSection cs = cs := by
  induction cs with
  | nil => rfl
  | cons c cs ih =>
    rw [beforeSection, if_neg, ih fun hmem => h (List.mem_cons_of_mem _ hmem)]
    intro hhead
    have hfirst := (List.cons_prefix_cons.1 (List.isPrefixOf_iff_prefix.1 hhead)).1
    exact h (hfirst ▸ List.mem_cons_self)

/-- A text that does not begin with a heading has no section. -/
theorem resultBody?_eq_none (h : ¬sectionMark <+: cs) : resultBody? cs = none := by
  unfold resultBody?
  rw [isPrefixOf?_eq_none h]

/-- The heading ends with its line, and takes the blank lines below it. -/
theorem resultBody?_heading (cs : List Char) :
    resultBody? ("### Result".toList ++ '\n' :: cs) = some (trim (beforeSection (trimStart cs))) := by
  have hblank : trimStart ('\n' :: cs) = trimStart cs := List.dropWhile_cons_of_pos rfl
  have hgap : '\n' ∈ ('\n' :: cs).takeWhile isBlank := by
    rw [List.takeWhile_cons_of_pos rfl]
    exact List.mem_cons_self
  have hsection : resultBody? ("### Result".toList ++ '\n' :: cs) =
      if '\n' ∈ ('\n' :: cs).takeWhile isBlank then
        some (trim (beforeSection (trimStart ('\n' :: cs))))
      else none := rfl
  rw [hsection, if_pos hgap, hblank]

/-- Trimming does not reach the second heading. -/
theorem trim_withSections (body below : String) :
    trim (withSections body below).toList = "### Result".toList ++
      '\n' :: (body.toList ++ '\n' :: (sectionMark ++ trimEnd (' ' :: below.toList))) := by
  have htext : (withSections body below).toList =
      ("### Result".toList ++ '\n' :: (body.toList ++ ['\n', '#', '#'])) ++
        '#' :: ' ' :: below.toList := by
    simp [withSections]
  have hstart : trimStart (withSections body below).toList = (withSections body below).toList := by
    refine trimStart_eq_self fun c hc => ?_
    have hfirst : (withSections body below).toList.head? = some '#' := by
      rw [htext]
      rfl
    rw [hfirst] at hc
    cases hc
    decide
  unfold trim
  rw [hstart, htext, trimEnd_append_cons (by decide)]
  simp [sectionMark]

/-! ## What is read -/

/-- **A body that is not blank is all that is read,** whatever stands below. -/
theorem resultBody?_withSections (hb : Headless body) (hne : trimStart body.toList ≠ []) :
    resultBody? (trim (withSections body below).toList) = some (trim body.toList) := by
  have hfound : ¬('\n' :: sectionMark) <:+: trimStart body.toList := by
    intro h
    obtain ⟨line, hline, hmark⟩ :=
      exists_line_of_infix (by decide) (h.trans (List.dropWhile_suffix isBlank).isInfix)
    exact hb line hline hmark
  rw [trim_withSections, resultBody?_heading, trimStart_append hne, beforeSection_append hfound,
    trim_trimStart]

/-- **A blank body is passed over:** the next section is read, from its heading. -/
theorem resultBody?_of_blank (below : String) (hblank : trimStart body.toList = []) :
    ∃ rest, resultBody? (trim (withSections body below).toList) = some (sectionMark ++ rest) := by
  have hgap (cs : List Char) : trimStart ('\n' :: (sectionMark ++ cs)) = sectionMark ++ cs := rfl
  have hhead (cs : List Char) : beforeSection (sectionMark ++ cs) = sectionMark ++ beforeSection cs := by
    simp [beforeSection, sectionMark]
  rw [trim_withSections, resultBody?_heading, trimStart_blank_append hblank, hgap, hhead]
  exact ⟨_, congrArg some (trimEnd_append_cons (c := '#') (by decide) ['#', '#'] _)⟩

/-- What begins like a heading is no JSON value, -/
theorem parse_of_heading (limit : Room) (cs : List Char) :
    Value.parse limit (String.ofList (sectionMark ++ cs)) = .error .noValue := by
  have hplain : readPlain (sectionMark ++ cs) = none := rfl
  have hvalue : readValue (2 * (sectionMark ++ cs).length + 2) limit
      (skipGap (sectionMark ++ cs)) = found (readPlain (sectionMark ++ cs)) := rfl
  unfold Value.parse parseChars
  rw [String.toList_ofList, hvalue, hplain]
  rfl

/-- so it stands for itself. -/
theorem load_of_heading (room : Nat) (cs : List Char) :
    load room (String.ofList (sectionMark ++ cs)) =
      .ok (.text (String.ofList (sectionMark ++ cs))) := by
  unfold load
  rw [parse_of_heading]

/-- A heading means yes, like any text that says nothing else. -/
theorem meansYes_of_heading (cs : List Char) :
    meansYes (.text (String.ofList (sectionMark ++ cs))) = true := by
  have htrim : trim (sectionMark ++ cs) = sectionMark ++ trimEnd cs :=
    trimEnd_append_cons (c := '#') (by decide) ['#', '#'] cs
  have hfirst : (trim (sectionMark ++ cs)).map Char.toLower =
      '#' :: '#' :: '#' :: (trimEnd cs).map Char.toLower := by
    rw [htrim]
    rfl
  unfold meansYes
  simp only [String.toList_ofList, hfirst]
  simp

theorem trimmed_eq_empty_iff : trimmed body = "" ↔ trimStart body.toList = [] := by
  rw [← trim_eq_nil_iff, ← String.toList_inj, trimmed, String.toList_ofList]
  rfl

/-- **What is read of a text with sections** is what the body under the heading
`Result` states, whatever the sections below say, just where that body is not
blank and there is room for what it states. A blank one is passed over: the text of
the next section, from its heading on, is read in its place, and it means yes. One
that is nested too deep is a fault. -/
theorem value_withSections_iff (htype : item.field "type" = .text "text")
    (htext : item.field "text" = .text (withSections body below)) (hb : Headless body) :
    (value room (.list [item]) .null = .ok (stated (trimmed body)) ↔
        trimmed body ≠ "" ∧ Fits room (trimmed body)) ∧
      (trimmed body = "" → ∃ text, value room (.list [item]) .null = .ok (.text text) ∧
        sectionMark <+: text.toList ∧ meansYes (.text text) = true) ∧
      ∀ nest, Value.parse (some room) (trimmed body) = .error (.tooDeep nest) →
        value room (.list [item]) .null = .error (.tooDeep nest) := by
  rw [value_text room htype htext, said_eq, ne_eq, trimmed_eq_empty_iff]
  by_cases hblank : trimStart body.toList = []
  · obtain ⟨rest, hrest⟩ := resultBody?_of_blank below hblank
    have hempty : trimmed body = "" := trimmed_eq_empty_iff.2 hblank
    rw [hrest, hempty, Option.map_some, Option.getD_some, load_of_heading]
    refine ⟨⟨fun h => ?_, fun h => absurd hblank h.1⟩, fun _ => ⟨_, rfl, ?_, ?_⟩, fun nest h => ?_⟩
    · -- a heading is not empty
      have htexts := congrArg String.toList (Value.text.inj (Except.ok.inj h))
      rw [String.toList_ofList] at htexts
      cases htexts
    · rw [String.toList_ofList]
      exact List.prefix_append _ _
    · exact meansYes_of_heading rest
    · cases h
  · rw [resultBody?_withSections hb hblank]
    show (load room (trimmed body) = _ ↔ _) ∧ _ ∧ ∀ nest, _ → load room (trimmed body) = _
    refine ⟨?_, fun h => absurd h hblank, fun _ => load_of_tooDeep⟩
    rw [load_eq_ok_iff]
    exact ⟨fun h => ⟨hblank, h.2⟩, fun h => ⟨rfl, h.2⟩⟩

/-- A text with a body that has blank lines around it, above a section that states
a result of its own. -/
def padded : String := withSections "\n true\t\n" "Result\nfalse\n### Page"

/-- What is read is the body. -/
theorem value_withSections_padded :
    Headless "\n true\t\n" ∧ trimmed "\n true\t\n" = "true" ∧ Fits usualRoom "true" ∧
      value usualRoom (.list [Scripted.textItem padded]) .null = .ok (.bool true) := by
  have hstated : stated (trimmed "\n true\t\n") = .bool true := by rfl
  have hfits : Fits usualRoom "true" := fits_of_parse (v := .bool true) (by rfl)
  have hbody : (Scripted.textItem padded).field "text" = .text padded := rfl
  have hvalue := (value_withSections_iff rfl hbody (by decide)).1.2 ⟨by decide, hfits⟩
  exact ⟨by decide, by decide, hfits, hvalue.trans (congrArg _ hstated)⟩

/-- Two lists inside of each other, with room for one. -/
example : value 1 (.list [Scripted.textItem (withSections "[[]]" "Page")]) .null =
    .error (.tooDeep .list) := by rfl

/-- **Not every body is all that is read:** of an empty one the section below
tells what is read. -/
theorem value_not_of_body :
    ¬∀ (room : Nat) (body below : String), Headless body →
      value room (.list [Scripted.textItem (withSections body below)]) .null =
        .ok (stated (trimmed body)) := by
  intro h
  have hbody : (Scripted.textItem (withSections "" "Page")).field "text" =
      .text (withSections "" "Page") := rfl
  have hne := (value_withSections_iff rfl hbody (by decide)).1.1 (h usualRoom "" "Page" (by decide))
  exact hne.1 rfl

end Walkthrough.Reply
