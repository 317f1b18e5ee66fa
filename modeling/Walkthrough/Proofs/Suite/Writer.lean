import Walkthrough.Proofs.Suite.Reader
import Walkthrough.Proofs.Text.Blank
import Walkthrough.Proofs.Text.Line
import Walkthrough.Suite.Writer
/-!
# A document that states a suite is read as it

`Writable` says of a suite that it has cases, that its names fill a line each
and that its steps fit on one. Such a suite is read back from the document that
states it (`parse_render`). What a name or a step says does not matter: a step
may begin with dashes or like a marker, since the dash and the gap in front of
it are what the reader takes away (`stepOf_stepLine`), and a name stands behind
a marker of its own.
-/

namespace Walkthrough.Suite

open Walkthrough.Text

variable {s : Suite} {c : Case} {text step : String} {ls : List (List Char)}

/-! ## Suites that can be written -/

/-- It fits on a line: there is no line break in it and no blank at its ends. -/
structure FitsLine (text : String) : Prop where
  unbroken : Unbroken text.toList
  trimmed : trim text.toList = text.toList

/-- It fits on a line and is not empty. -/
structure FillsLine (text : String) : Prop extends FitsLine text where
  filled : text.toList ≠ []

/-- **A suite that can be written line by line.** -/
structure Writable (s : Suite) : Prop where
  name : FillsLine s.name
  titles : ∀ c ∈ s.cases, FillsLine c.title
  steps : ∀ c ∈ s.cases, ∀ step ∈ c.steps, FitsLine step
  cases : s.cases ≠ []

instance : Decidable (FitsLine text) :=
  decidable_of_iff (Unbroken text.toList ∧ trim text.toList = text.toList)
    ⟨fun h => ⟨h.1, h.2⟩, fun h => ⟨h.1, h.2⟩⟩

instance : Decidable (FillsLine text) :=
  decidable_of_iff (FitsLine text ∧ text.toList ≠ []) ⟨fun h => ⟨h.1, h.2⟩, fun h => ⟨h.1, h.2⟩⟩

instance : Decidable s.Writable :=
  decidable_of_iff (FillsLine s.name ∧ (∀ c ∈ s.cases, FillsLine c.title) ∧
      (∀ c ∈ s.cases, ∀ step ∈ c.steps, FitsLine step) ∧ s.cases ≠ [])
    ⟨fun h => ⟨h.1, h.2.1, h.2.2.1, h.2.2.2⟩, fun h => ⟨h.1, h.2, h.3, h.4⟩⟩

/-! ## Its lines -/

/-- The line for the name of a suite. -/
def nameLine (name : String) : List Char := "suite: ".toList ++ name.toList

/-- The line for the title of a case. -/
def titleLine (title : String) : List Char := "case: ".toList ++ title.toList

/-- The line for a step. -/
def stepLine (step : String) : List Char := "- ".toList ++ step.toList

theorem toLines_eq (s : Suite) : s.toLines = nameLine s.name :: s.cases.flatMap caseLines := rfl

theorem caseLines_eq (c : Case) : caseLines c = titleLine c.title :: c.steps.map stepLine := rfl

theorem trim_titleLine (h : FillsLine text) : trim (titleLine text) = titleLine text :=
  trim_append (by decide) h.trimmed h.filled

theorem trim_nameLine (h : FillsLine text) : trim (nameLine text) = nameLine text :=
  trim_append (by decide) h.trimmed h.filled

theorem isMark_titleLine (h : FillsLine text) : isMark (titleLine text) = true := by
  unfold isMark
  rw [trim_titleLine h]
  exact List.isPrefixOf_iff_prefix.2 ⟨' ' :: text.toList, rfl⟩

theorem titleOf_titleLine (h : FillsLine text) : titleOf (titleLine text) = text := by
  unfold titleOf
  rw [trim_titleLine h]
  show String.ofList (if trim (' ' :: text.toList) = [] then _ else trim (' ' :: text.toList)) = _
  rw [trim_gap h.trimmed, if_neg h.filled, String.ofList_toList]

/-- The name of a suite opens no case and is no step. -/
theorem not_isMark_nameLine (h : FillsLine text) :
    isMark (nameLine text) = false ∧ isBullet (nameLine text) = false := by
  unfold isMark isBullet
  rw [trim_nameLine h]
  exact ⟨rfl, rfl⟩

/-- A step without its gap is a dash alone if it is empty. -/
theorem trim_stepLine (h : FitsLine step) :
    trim (stepLine step) = if step.toList = [] then ['-'] else stepLine step := by
  split
  · next hempty =>
    unfold stepLine
    rw [hempty]
    decide
  · next hne => exact trim_append (by decide) h.trimmed hne

theorem isBullet_stepLine (h : FitsLine step) : isBullet (stepLine step) = true := by
  unfold isBullet
  rw [trim_stepLine h]
  split <;> rfl

/-- **The dash goes and the gap with it,** and nothing of the step. -/
theorem stepOf_stepLine (h : FitsLine step) : stepOf (stepLine step) = step := by
  have hstrip : stripBullet (stepLine step) = step.toList := by
    unfold stripBullet
    rw [trim_stepLine h]
    split
    · next hempty =>
      rw [hempty]
      rfl
    · show trim (' ' :: step.toList) = step.toList
      exact trim_gap h.trimmed
  unfold stepOf
  rw [hstrip, String.ofList_toList]

theorem not_isMark_stepLine (h : FitsLine step) : isMark (stepLine step) = false := by
  by_contra hmark
  have hmark : isMark (stepLine step) = true := by simpa using hmark
  have hbullet := isBullet_of_isMark hmark
  rw [isBullet_stepLine h] at hbullet
  cases hbullet

/-! ## The cases that they state -/

/-- The lines of steps are read as steps of what is open. -/
theorem sections_steps {steps : List String} (h : ∀ step ∈ steps, FitsLine step)
    (ls : List (List Char)) :
    sections (steps.map stepLine ++ ls) = ⟨steps ++ (sections ls).loose, (sections ls).cases⟩ := by
  induction steps with
  | nil => rfl
  | cons step steps ih =>
    have hstep : FitsLine step := h step List.mem_cons_self
    have hsteps := ih fun d hd => h d (List.mem_cons_of_mem _ hd)
    obtain ⟨hcases, hloose⟩ :=
      sections_of_not_isMark (steps.map stepLine ++ ls) (not_isMark_stepLine hstep)
    rw [isBullet_stepLine hstep, if_pos rfl, stepOf_stepLine hstep, hsteps] at hloose
    rw [hsteps] at hcases
    exact congrArg₂ Sections.mk hloose hcases

/-- **Cases that are written one below the other are read as these cases.** -/
theorem sections_cases {cs : List Case} (htitles : ∀ c ∈ cs, FillsLine c.title)
    (hsteps : ∀ c ∈ cs, ∀ step ∈ c.steps, FitsLine step) :
    sections (cs.flatMap caseLines) = ⟨[], cs⟩ := by
  induction cs with
  | nil => rfl
  | cons c cs ih =>
    have htitle : FillsLine c.title := htitles c List.mem_cons_self
    have hbelow := ih (fun d hd => htitles d (List.mem_cons_of_mem _ hd))
      fun d hd => hsteps d (List.mem_cons_of_mem _ hd)
    rw [List.flatMap_cons, caseLines_eq, List.cons_append,
      sections_of_isMark _ (isMark_titleLine htitle), titleOf_titleLine htitle,
      sections_steps (hsteps c List.mem_cons_self), hbelow, List.append_nil]

/-- The line of the name adds nothing to them. -/
theorem sections_toLines (h : s.Writable) : sections s.toLines = ⟨[], s.cases⟩ := by
  obtain ⟨hmark, hbullet⟩ := not_isMark_nameLine h.name
  obtain ⟨hcases, hloose⟩ := sections_of_not_isMark (s.cases.flatMap caseLines) hmark
  rw [hbullet, if_neg (by decide), sections_cases h.titles h.steps] at hloose
  rw [sections_cases h.titles h.steps] at hcases
  exact congrArg₂ Sections.mk hloose hcases

/-- **A text with the lines of a suite has its cases.** -/
theorem casesOf_of_lines (h : s.Writable) {cs : List Char} (hlines : lines cs = s.toLines) :
    casesOf cs = s.cases := by
  unfold casesOf
  rw [hlines, sections_toLines h]
  split
  · next hnil => exact absurd (congrArg Sections.cases hnil) h.cases
  · next hcons => exact (congrArg Sections.cases hcons).symm

/-! ## Its name -/

/-- **A name stands on the first line,** whatever follows below. -/
theorem name?_nameLine (h : FillsLine text) (below : List Char) :
    name? (nameLine text ++ '\n' :: below) = some text.toList := by
  obtain ⟨hhead, -⟩ := trim_eq_self_iff.1 h.trimmed
  have hstart : trimStart (text.toList ++ '\n' :: below) = text.toList ++ '\n' :: below := by
    refine trimStart_eq_self fun c hc => hhead c ?_
    obtain ⟨d, rest, hcons⟩ := List.exists_cons_of_ne_nil h.filled
    rw [hcons] at hc ⊢
    exact hc
  have hline : (text.toList ++ '\n' :: below).takeWhile (· ≠ '\n') = text.toList := by
    rw [List.takeWhile_append_of_pos fun c hc => ?_]
    · exact List.append_nil _
    · have hbreak := h.unbroken c hc
      refine decide_eq_true fun heq => ?_
      rw [heq] at hbreak
      cases hbreak
  have hend : trimEnd text.toList = text.toList := by
    have htrim := h.trimmed
    unfold trim at htrim
    rwa [trimStart_eq_self hhead] at htrim
  -- the gap behind the marker could run over line ends, but the name is filled
  show nameIn? (' ' :: (text.toList ++ '\n' :: below)) = _
  unfold nameIn?
  rw [trimStart_gap, hstart]
  split
  · next hnil => exact absurd (List.append_eq_nil_iff.1 hnil).1 h.filled
  · rw [hline, hend]

/-! ## The whole of it -/

theorem unbroken_append {front : List Char} (hfront : Unbroken front) (h : FitsLine text) :
    Unbroken (front ++ text.toList) := by
  intro c hc
  rcases List.mem_append.1 hc with hc | hc
  · exact hfront c hc
  · exact h.unbroken c hc

theorem filled_append {front : List Char} (hfront : front ≠ []) (cs : List Char) :
    front ++ cs ≠ [] := fun h => hfront (List.append_eq_nil_iff.1 h).1

/-- Each of its lines can be told apart: it is filled and holds no line break. -/
theorem line_of_mem_toLines (h : s.Writable) {line : List Char} (hline : line ∈ s.toLines) :
    Unbroken line ∧ line ≠ [] := by
  rw [toLines_eq] at hline
  rcases List.mem_cons.1 hline with rfl | hline
  · exact ⟨unbroken_append (by decide) h.name.toFitsLine, filled_append (by decide) _⟩
  obtain ⟨c, hc, hline⟩ := List.mem_flatMap.1 hline
  rw [caseLines_eq] at hline
  rcases List.mem_cons.1 hline with rfl | hline
  · exact ⟨unbroken_append (by decide) (h.titles c hc).toFitsLine, filled_append (by decide) _⟩
  obtain ⟨step, hstep, rfl⟩ := List.mem_map.1 hline
  exact ⟨unbroken_append (by decide) (h.steps c hc step hstep), filled_append (by decide) _⟩

/-- A text that begins with the line of the name, and has all lines of the
suite, is read as the suite. -/
theorem parse_of_lines (h : s.Writable) {cs below : List Char}
    (hname : cs = nameLine s.name ++ '\n' :: below) (hlines : lines cs = s.toLines) :
    parse (String.ofList cs) s.source = s := by
  unfold parse
  rw [String.toList_ofList, casesOf_of_lines h hlines, hname, name?_nameLine h.name, Option.map_some,
    String.ofList_toList]
  rfl

/-- **The document that states a suite is read as that suite,** with or without
the line end behind its last line. -/
theorem parse_render (h : s.Writable) :
    parse s.render s.source = s ∧
      parse (String.ofList s.render.toList.dropLast) s.source = s := by
  have hline : ∀ l ∈ s.toLines, Unbroken l ∧ l ≠ [] := fun l hl => line_of_mem_toLines h hl
  have htext : s.toLines.flatMap (· ++ ['\n']) =
      nameLine s.name ++ '\n' :: (s.cases.flatMap caseLines).flatMap (· ++ ['\n']) := by
    rw [toLines_eq, List.flatMap_cons, List.append_assoc]
    rfl
  have hbelow : (s.cases.flatMap caseLines).flatMap (· ++ ['\n']) ≠ [] := by
    obtain ⟨c, cs, hcases⟩ := List.exists_cons_of_ne_nil h.cases
    rw [hcases, List.flatMap_cons, caseLines_eq]
    simp
  have hunended : (s.toLines.flatMap (· ++ ['\n'])).dropLast = nameLine s.name ++
      '\n' :: ((s.cases.flatMap caseLines).flatMap (· ++ ['\n'])).dropLast := by
    rw [htext, List.dropLast_append_of_ne_nil (List.cons_ne_nil _ _),
      List.dropLast_cons_of_ne_nil hbelow]
  unfold render
  rw [String.toList_ofList]
  refine ⟨parse_of_lines h htext (lines_ended fun l hl => (hline l hl).1), ?_⟩
  exact parse_of_lines h hunended
    (lines_joined (fun l hl => (hline l hl).1) fun l hl => (hline l hl).2)

/-- A suite whose names and steps look like markers and bullets. -/
def disguised : Suite where
  name := "suite: -- case:"
  cases := [⟨"case: 一", ["", "--", "- /a に移動", "suite: b", "case: c"]⟩, ⟨"-", []⟩]
  source := some "tests/md/disguised.md"

/-- It is read from its document all the same. -/
theorem parse_render_disguised :
    disguised.Writable ∧
      parse disguised.render disguised.source = disguised ∧
      parse (String.ofList disguised.render.toList.dropLast) disguised.source = disguised :=
  ⟨by decide, parse_render (by decide)⟩

end Walkthrough.Suite
