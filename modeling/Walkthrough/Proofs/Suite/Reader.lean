import Mathlib.Data.List.Basic
import Walkthrough.Suite.Reader
/-!
# Documents line by line

The reader folds a document from its last line to its first. What it reads is
told here by the places of the lines: the lines that open a case are the marks,
each case spans from its mark to the next one or to the end, and a step belongs
to the last mark above it. `parse_by_line` says that these are the cases, and
the steps as they are carried out.
-/

namespace Walkthrough.Suite

open Walkthrough.Text

variable {line : List Char} {ls : List (List Char)}

/-! ## What a line says -/

/-- The line opens a case. -/
def isMark (line : List Char) : Bool := caseMarker.isPrefixOf (trim line)

/-- The title of the case that such a line opens: what is left of it behind the
marker, if there is anything. -/
def titleOf (line : List Char) : String :=
  let rest := trim ((trim line).drop caseMarker.length)
  String.ofList (if rest = [] then untitledCase else rest)

/-- The line states a step. -/
def isBullet (line : List Char) : Bool := (trim line).head? = some '-'

/-- The step that such a line states. -/
def stepOf (line : List Char) : String := String.ofList (stripBullet line)

/-- The steps that some lines state. -/
def bullets (ls : List (List Char)) : List String := (ls.filter isBullet).map stepOf

/-! ## Cases by the places of their marks -/

/-- The places of the lines that open a case. -/
def marks (ls : List (List Char)) : List Nat :=
  (List.range ls.length).filter fun i => isMark (ls.getD i [])

/-- The marks, and the end. -/
def stops (ls : List (List Char)) : List Nat := marks ls ++ [ls.length]

/-- From each mark to the next one, or to the end. -/
def spans (ls : List (List Char)) : List (Nat × Nat) := (marks ls).zip (stops ls).tail

/-- The lines strictly between two places. -/
def between (ls : List (List Char)) (p q : Nat) : List (List Char) := (ls.take q).drop (p + 1)

/-- The case that spans from one place to another. -/
def caseAt (ls : List (List Char)) (span : Nat × Nat) : Case :=
  ⟨titleOf (ls.getD span.1 []), bullets (between ls span.1 span.2)⟩

/-- **The cases of some lines:** one for each mark, with the steps below it, or
a single one with all steps. -/
def casesByLine (ls : List (List Char)) : List Case :=
  if marks ls = [] then [⟨defaultCaseTitle, bullets ls⟩] else (spans ls).map (caseAt ls)

/-! ## Steps by their places -/

/-- The title under which a line stands: that of the last mark above it, and
some other, or none, if there is no mark above it. -/
def titleAbove (above : Option String) (ls : List (List Char)) (i : Nat) : Option String :=
  match (ls.take i).reverse.find? isMark with
  | some mark => some (titleOf mark)
  | none => above

/-- The step at a place, under its title. -/
def stepAt (above : Option String) (ls : List (List Char)) (i : Nat) : Option FlatStep :=
  if isBullet (ls.getD i []) then (titleAbove above ls i).map (⟨·, stepOf (ls.getD i [])⟩)
  else none

/-- **The steps of some lines** in order, each under its title. Above the first
mark there is no title, but where there is no mark there is one for all. -/
def stepsByLine (ls : List (List Char)) : List FlatStep :=
  (List.range ls.length).filterMap
    (stepAt (if marks ls = [] then some defaultCaseTitle else none) ls)

/-! ## One line more -/

theorem caseTitle?_of_isMark (h : isMark line = true) :
    (caseTitle? line).map String.ofList = some (titleOf line) := by
  obtain ⟨rest, hrest⟩ := List.isPrefixOf_iff_prefix.1 h
  unfold caseTitle? titleOf
  rw [List.isPrefixOf?_eq_some_iff_append_eq.2 hrest, ← hrest, List.drop_left, Option.map_some,
    Option.map_some]
  cases trim rest <;> rfl

theorem caseTitle?_eq_none (h : isMark line = false) : caseTitle? line = none := by
  unfold isMark at h
  rw [← List.isSome_isPrefixOf?_eq_isPrefixOf, Option.isSome_eq_false_iff,
    Option.isNone_iff_eq_none] at h
  unfold caseTitle?
  rw [h]
  rfl

/-- What opens a case states no step. -/
theorem isBullet_of_isMark (h : isMark line = true) : isBullet line = false := by
  obtain ⟨rest, hrest⟩ := List.isPrefixOf_iff_prefix.1 h
  unfold isBullet
  rw [← hrest]
  rfl

theorem bullets_cons (line : List Char) (ls : List (List Char)) :
    bullets (line :: ls) = if isBullet line then stepOf line :: bullets ls else bullets ls := by
  unfold bullets
  cases h : isBullet line <;> simp [h]

/-- A line that opens a case takes over the steps below it. -/
theorem sections_of_isMark (ls : List (List Char)) (h : isMark line = true) :
    sections (line :: ls) =
      ⟨[], ⟨titleOf line, (sections ls).loose⟩ :: (sections ls).cases⟩ := by
  obtain ⟨title, htitle, heq⟩ := Option.map_eq_some_iff.1 (caseTitle?_of_isMark h)
  show Sections.cons line (sections ls) = _
  unfold Sections.cons
  rw [htitle, ← heq]

/-- Any other line may state a step, which belongs to no case yet. -/
theorem sections_of_not_isMark (ls : List (List Char)) (h : isMark line = false) :
    (sections (line :: ls)).cases = (sections ls).cases ∧
      (sections (line :: ls)).loose =
        if isBullet line then stepOf line :: (sections ls).loose else (sections ls).loose := by
  show (Sections.cons line (sections ls)).cases = _ ∧ (Sections.cons line (sections ls)).loose = _
  unfold Sections.cons bullet?
  rw [caseTitle?_eq_none h]
  cases hbullet : isBullet line with
  | true =>
    have hhead : (trim line).head? = some '-' := of_decide_eq_true hbullet
    rw [if_pos hhead]
    exact ⟨rfl, rfl⟩
  | false =>
    have hhead : (trim line).head? ≠ some '-' := of_decide_eq_false hbullet
    rw [if_neg hhead]
    exact ⟨rfl, rfl⟩

/-! ## The cases -/

/-- The lines above the first mark. -/
def opening (ls : List (List Char)) : List (List Char) := ls.takeWhile (!isMark ·)

theorem marks_cons (line : List Char) (ls : List (List Char)) :
    marks (line :: ls) = (if isMark line then [0] else []) ++ (marks ls).map (· + 1) := by
  unfold marks
  rw [List.length_cons, List.range_succ_eq_map, List.filter_cons, List.filter_map]
  cases h : isMark line <;> simp [h, Function.comp_def]

theorem stops_cons (line : List Char) (ls : List (List Char)) :
    stops (line :: ls) = (if isMark line then [0] else []) ++ (stops ls).map (· + 1) := by
  unfold stops
  rw [marks_cons, List.append_assoc, List.map_append]
  rfl

/-- The first mark, or else the end, is where the lines above the first mark
end. -/
theorem head?_stops (ls : List (List Char)) : (stops ls).head? = some (opening ls).length := by
  induction ls with
  | nil => rfl
  | cons line ls ih =>
    rw [stops_cons]
    unfold opening at ih ⊢
    cases h : isMark line with
    | true => simp [h]
    | false => simp [h, ih]

/-- The span of a line that opens a case ends where the next one starts. -/
theorem spans_of_isMark (ls : List (List Char)) (h : isMark line = true) :
    spans (line :: ls) =
      (0, (opening ls).length + 1) :: (spans ls).map (Prod.map (· + 1) (· + 1)) := by
  have hhead := head?_stops ls
  unfold spans
  rw [marks_cons, stops_cons, h, if_pos rfl]
  cases hstops : stops ls with
  | nil =>
    rw [hstops] at hhead
    cases hhead
  | cons stop rest =>
    rw [hstops] at hhead
    rw [← Option.some.inj hhead]
    simp [List.zip_map]

theorem spans_of_not_isMark (ls : List (List Char)) (h : isMark line = false) :
    spans (line :: ls) = (spans ls).map (Prod.map (· + 1) (· + 1)) := by
  unfold spans
  rw [marks_cons, stops_cons, h, if_neg (by decide), List.nil_append, List.nil_append,
    ← List.map_tail, List.zip_map]

/-- A line in front moves all cases below it by one place. -/
theorem caseAt_cons (line : List Char) (ls : List (List Char)) (span : Nat × Nat) :
    caseAt (line :: ls) (Prod.map (· + 1) (· + 1) span) = caseAt ls span := by
  simp [caseAt, between]

theorem take_opening (ls : List (List Char)) : ls.take (opening ls).length = opening ls :=
  (List.prefix_iff_eq_take.1 (List.takeWhile_prefix _)).symm

/-- **Steps that belong to no case** are those above the first mark. -/
theorem loose_sections (ls : List (List Char)) :
    (sections ls).loose = bullets (opening ls) := by
  induction ls with
  | nil => rfl
  | cons line ls ih =>
    unfold opening at ih ⊢
    cases h : isMark line with
    | true =>
      rw [sections_of_isMark ls h]
      simp [h, bullets]
    | false =>
      rw [(sections_of_not_isMark ls h).2, ih]
      simp [h, bullets_cons]

/-- **Each case spans** from its mark to the next one or to the end. -/
theorem cases_sections (ls : List (List Char)) :
    (sections ls).cases = (spans ls).map (caseAt ls) := by
  induction ls with
  | nil => rfl
  | cons line ls ih =>
    have hbelow : (spans ls).map (caseAt (line :: ls) ∘ Prod.map (· + 1) (· + 1)) =
        (sections ls).cases := by
      rw [ih]
      exact List.map_congr_left fun span _ => caseAt_cons line ls span
    cases h : isMark line with
    | true =>
      have hfirst : caseAt (line :: ls) (0, (opening ls).length + 1) =
          ⟨titleOf line, (sections ls).loose⟩ := by
        rw [loose_sections]
        simp [caseAt, between, take_opening]
      rw [sections_of_isMark ls h, spans_of_isMark ls h, List.map_cons, List.map_map, hfirst,
        hbelow]
    | false =>
      rw [(sections_of_not_isMark ls h).1, spans_of_not_isMark ls h, List.map_map, hbelow]

theorem length_spans (ls : List (List Char)) : (spans ls).length = (marks ls).length := by
  simp [spans, stops]

/-- Where there is no mark, all lines are above it. -/
theorem opening_of_marks (h : marks ls = []) : opening ls = ls := by
  have hlen := head?_stops ls
  unfold stops at hlen
  rw [h] at hlen
  rw [← take_opening, ← Option.some.inj hlen, List.take_length]

theorem spans_of_marks (h : marks ls = []) : spans ls = [] := by
  unfold spans
  rw [h]
  rfl

/-- **The cases of a text** are those of its lines. -/
theorem casesOf_eq (text : List Char) : casesOf text = casesByLine (lines text) := by
  have hcases := cases_sections (lines text)
  have hloose := loose_sections (lines text)
  unfold casesOf casesByLine
  generalize lines text = ls at hcases hloose ⊢
  generalize sections ls = below at hcases hloose ⊢
  obtain ⟨loose, cases⟩ := below
  dsimp only at hcases hloose
  cases hmarks : marks ls with
  | nil =>
    rw [hcases, spans_of_marks hmarks, hloose, opening_of_marks hmarks, if_pos rfl]
    rfl
  | cons mark rest =>
    have hcons : cases ≠ [] := by
      rw [hcases, ne_eq, List.map_eq_nil_iff, ← List.length_eq_zero_iff, length_spans, hmarks]
      simp
    rw [if_neg (by simp), ← hcases]
    split
    · next heq => exact absurd (congrArg Sections.cases heq) hcons
    · next heq => exact (congrArg Sections.cases heq).symm

/-! ## The steps in order -/

theorem titleAbove_cons (above : Option String) (line : List Char) (ls : List (List Char))
    (i : Nat) :
    titleAbove above (line :: ls) (i + 1) =
      titleAbove (if isMark line then some (titleOf line) else above) ls i := by
  unfold titleAbove
  rw [List.take_succ_cons, List.reverse_cons, List.find?_append]
  cases (ls.take i).reverse.find? isMark with
  | some mark => rfl
  | none => cases h : isMark line <;> simp [h]

theorem stepAt_cons (above : Option String) (line : List Char) (ls : List (List Char)) (i : Nat) :
    stepAt above (line :: ls) (i + 1) =
      stepAt (if isMark line then some (titleOf line) else above) ls i := by
  unfold stepAt
  rw [titleAbove_cons, List.getD_cons_succ]

/-- The steps below a title, each under it. -/
def under (above : Option String) (steps : List String) : List FlatStep :=
  above.toList.flatMap fun title => steps.map (⟨title, ·⟩)

/-- **The steps by their places** are those above the first mark, under the
title given to them, and then those of the cases. -/
theorem filterMap_stepAt (above : Option String) (ls : List (List Char)) :
    (List.range ls.length).filterMap (stepAt above ls) =
      under above (sections ls).loose ++
        (sections ls).cases.flatMap fun c => c.steps.map (⟨c.title, ·⟩) := by
  induction ls generalizing above with
  | nil => cases above <;> rfl
  | cons line ls ih =>
    have hbelow : ((List.range ls.length).map (· + 1)).filterMap (stepAt above (line :: ls)) =
        (List.range ls.length).filterMap
          (stepAt (if isMark line then some (titleOf line) else above) ls) := by
      rw [List.filterMap_map]
      exact List.filterMap_congr fun i _ => stepAt_cons above line ls i
    have hfirst : stepAt above (line :: ls) 0 =
        if isBullet line then above.map (⟨·, stepOf line⟩) else none := by
      simp [stepAt, titleAbove]
    rw [List.length_cons, List.range_succ_eq_map, List.filterMap_cons, hfirst, hbelow, ih]
    cases h : isMark line with
    | true =>
      rw [sections_of_isMark ls h, isBullet_of_isMark h]
      cases above <;> simp [under]
    | false =>
      obtain ⟨hcases, hloose⟩ := sections_of_not_isMark ls h
      rw [hcases, hloose]
      cases isBullet line <;> cases above <;> simp [under]

/-- **Listed case by case, the steps are in the order of their lines.** -/
theorem flatMap_casesByLine (ls : List (List Char)) :
    ((casesByLine ls).flatMap fun c => c.steps.map (⟨c.title, ·⟩)) = stepsByLine ls := by
  unfold casesByLine stepsByLine
  rw [filterMap_stepAt, loose_sections, cases_sections]
  cases h : marks ls with
  | nil =>
    rw [if_pos rfl, if_pos rfl, spans_of_marks h, opening_of_marks h]
    simp [under]
  | cons mark rest => simp [under]

/-- **Each step is stated by a line.** -/
theorem exists_line_of_mem_flatten {text : String} {source : Option String} {s : FlatStep}
    (h : s ∈ (parse text source).flatten) : ∃ line ∈ lines text.toList, s.step = stepOf line := by
  have hflatten : (parse text source).flatten = stepsByLine (lines text.toList) := by
    rw [← flatMap_casesByLine, ← casesOf_eq]
    rfl
  rw [hflatten] at h
  obtain ⟨i, hi, hstep⟩ := List.mem_filterMap.1 h
  unfold stepAt at hstep
  split at hstep
  · obtain ⟨title, -, rfl⟩ := Option.map_eq_some_iff.1 hstep
    have hlength : i < (lines text.toList).length := List.mem_range.1 hi
    rw [List.getD_eq_getElem?_getD, List.getElem?_eq_getElem hlength, Option.getD_some]
    exact ⟨_, List.getElem_mem hlength, rfl⟩
  · cases hstep

/-- **A document is read line by line.** Its cases are one for each mark, with
the steps between that mark and the next one, or a single one with all steps;
and its steps are listed in the order of their lines, each once and under the
last mark above it, and are as many as are counted. -/
theorem parse_by_line (text : String) (source : Option String) :
    (parse text source).cases = casesByLine (lines text.toList) ∧
      (parse text source).cases.length = max 1 (marks (lines text.toList)).length ∧
      (parse text source).flatten = stepsByLine (lines text.toList) ∧
      (parse text source).stepCount = (stepsByLine (lines text.toList)).length := by
  have hcases : (parse text source).cases = casesByLine (lines text.toList) := casesOf_eq _
  have hflatten : (parse text source).flatten = stepsByLine (lines text.toList) := by
    unfold flatten
    rw [hcases, flatMap_casesByLine]
  refine ⟨hcases, ?_, hflatten, ?_⟩
  · rw [hcases]
    unfold casesByLine
    split
    · next h => simp [h]
    · next h =>
      have hpos := List.length_pos_of_ne_nil h
      rw [List.length_map, length_spans]
      omega
  · rw [← hflatten, length_flatten]

/-- Two cases, and a step that belongs to neither. -/
example : stepsByLine (lines "- a\ncase: x\n- b\n -- c\rcase:\n- d".toList) =
    [⟨"x", "b"⟩, ⟨"x", "c"⟩, ⟨"case", "d"⟩] := by decide

end Walkthrough.Suite
