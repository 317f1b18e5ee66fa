import Walkthrough.Proofs.Suite.Writer
import Walkthrough.Proofs.Text.Feed
/-!
# The name of a suite, line by line

A document names its suite on the first line that states a name, and that name
is `nameByLine`. The reader looks for the marker alone, in lines between line
feeds, and takes the first text behind it. It finds the same name where the
first such line in which a marker opens a line states a name and is, blanks at
its ends aside, a single line (`Headed`, `name_by_line`). A marker that stands
alone names the suite after the next line with anything on it, whatever this
line says.
-/

namespace Walkthrough.Suite

open Walkthrough.Text

variable {line rest below text : List Char}

/-! ## What a line says -/

/-- The name marker opens the line. -/
def isNamed (line : List Char) : Bool := nameMarker.isPrefixOf (trim line)

/-- The name that a line states: what is left of it behind the marker, if there
is anything. -/
def nameOn? (line : List Char) : Option (List Char) :=
  ((nameMarker.isPrefixOf? (trim line)).map trim).filter (· ≠ [])

/-- **The name that some lines give a suite:** that on the first line that states
one. -/
def nameByLine (ls : List (List Char)) : String :=
  ((ls.findSome? nameOn?).map String.ofList).getD defaultName

/-- The marker opens a line somewhere between two line feeds. -/
def isMarked (line : List Char) : Bool := (lines line).any isNamed

/-- **The first marker states a name.** Between the line feeds around it there is
a single line, blanks at its ends aside, and it states a name. -/
def Headed (text : List Char) : Prop :=
  ∀ line ∈ (text.splitOn '\n').find? isMarked, Unbroken (trim line) ∧ nameOn? line ≠ none

instance : Decidable (Headed text) :=
  inferInstanceAs (Decidable (∀ line ∈ (text.splitOn '\n').find? isMarked,
    Unbroken (trim line) ∧ nameOn? line ≠ none))

/-- Behind the marker, trimming goes on as if it stood alone. -/
theorem trim_of_marker (h : trimStart line = nameMarker ++ rest) :
    trim line = nameMarker ++ trimEnd rest := by
  unfold trim
  rw [h]
  exact trimEnd_append_cons (c := ':') rfl "suite".toList rest

theorem isNamed_iff : isNamed line = true ↔ nameMarker <+: trimStart line := by
  unfold isNamed
  rw [List.isPrefixOf_iff_prefix]
  constructor
  · exact fun h => h.trans (dropTail_isPrefix isBlank _)
  · rintro ⟨rest, hrest⟩
    rw [trim_of_marker hrest.symm]
    exact List.prefix_append _ _

theorem exists_of_isNamed (h : isNamed line = true) : ∃ rest, trimStart line = nameMarker ++ rest :=
  (isNamed_iff.1 h).imp fun _ hrest => hrest.symm

theorem nameOn?_of_marker (h : trimStart line = nameMarker ++ rest) :
    nameOn? line = if trimStart rest = [] then none else some (trim rest) := by
  have hrest : nameMarker.isPrefixOf? (nameMarker ++ trimEnd rest) = some (trimEnd rest) :=
    List.isPrefixOf?_eq_some_iff_append_eq.2 rfl
  unfold nameOn?
  rw [trim_of_marker h, hrest, Option.map_some, trim_trimEnd]
  split
  · next hblank => simp [trim_eq_nil_iff.2 hblank]
  · next hne => simp [trim_eq_nil_iff, hne]

theorem nameOn?_of_not_isNamed (h : isNamed line = false) : nameOn? line = none := by
  have hmarker : ¬nameMarker <+: trim line := by
    rw [← List.isPrefixOf_iff_prefix, Bool.not_eq_true]
    exact h
  unfold nameOn?
  rw [isPrefixOf?_eq_none hmarker]
  rfl

theorem nameOn?_trim (line : List Char) : nameOn? (trim line) = nameOn? line := by
  unfold nameOn?
  rw [trim_trim]

theorem isNamed_trim (line : List Char) : isNamed (trim line) = isNamed line := by
  unfold isNamed
  rw [trim_trim]

/-- Blank lines state no name. -/
theorem findSome?_filled (cs : List Char) :
    (filled cs).findSome? nameOn? = (lines cs).findSome? nameOn? := by
  unfold filled
  induction lines cs with
  | nil => rfl
  | cons line ls ih =>
    rw [List.map_cons, List.findSome?_cons, ← ih, ← nameOn?_trim line]
    by_cases hblank : trim line = []
    · rw [hblank]
      rfl
    · rw [List.filter_cons_of_pos (by simpa using hblank), List.findSome?_cons]

theorem any_filled (cs : List Char) : (filled cs).any isNamed = isMarked cs := by
  have hnamed (line : List Char) : (decide (trim line ≠ []) && isNamed (trim line)) = isNamed line := by
    rw [isNamed_trim]
    by_cases hblank : trim line = []
    · unfold isNamed
      rw [hblank]
      rfl
    · simp [hblank]
  unfold filled isMarked
  rw [List.any_filter, List.any_map]
  exact congrArg (List.any (lines cs)) (funext hnamed)

/-- A line that states a name has it behind a marker. -/
theorem exists_of_nameOn? {name : List Char} (h : nameOn? line = some name) :
    ∃ rest, trimStart line = nameMarker ++ rest ∧ trimStart rest ≠ [] ∧ name = trim rest := by
  by_cases hnamed : isNamed line = true
  · obtain ⟨rest, hrest⟩ := exists_of_isNamed hnamed
    rw [nameOn?_of_marker hrest] at h
    split at h
    · cases h
    · next hne => exact ⟨rest, hrest, hne, (Option.some.inj h).symm⟩
  · rw [nameOn?_of_not_isNamed (by simpa using hnamed)] at h
    cases h

theorem fillsLine_of_nameOn? {name : List Char} (hline : Unbroken line)
    (h : nameOn? line = some name) : FillsLine (String.ofList name) := by
  obtain ⟨rest, hrest, hne, rfl⟩ := exists_of_nameOn? h
  refine ⟨⟨fun c hc => hline c ?_, ?_⟩, ?_⟩
  · rw [String.toList_ofList] at hc
    have hc : c ∈ nameMarker ++ rest := List.mem_append_right _ (mem_of_mem_trim hc)
    exact mem_of_mem_trimStart (hrest ▸ hc)
  · rw [String.toList_ofList, trim_trim]
  · rw [String.toList_ofList]
    exact fun hnil => hne (trim_eq_nil_iff.1 hnil)

/-- **What the lines of a text state as a name** fills a line. -/
theorem fillsLine_nameByLine (cs : List Char) : FillsLine (nameByLine (lines cs)) := by
  unfold nameByLine
  cases hname : (lines cs).findSome? nameOn? with
  | none => exact ⟨⟨by decide, by decide⟩, by decide⟩
  | some name =>
    obtain ⟨line, hline, hname⟩ := List.exists_of_findSome?_eq_some hname
    exact fillsLine_of_nameOn? (unbroken_of_mem_lines hline) hname

/-! ## Where the reader finds a marker -/

theorem afterNameMarker?_start (cs : List Char) : afterNameMarker? true cs =
    match nameMarker.isPrefixOf? (trimStart cs) with
    | some after => some after
    | none => afterNameMarker? false cs := by
  cases cs with
  | nil => rfl
  | cons c cs =>
    rw [afterNameMarker?, if_pos rfl]
    rfl

/-- Within a line no further marker is found. -/
theorem afterNameMarker?_append (h : '\n' ∉ line) (cs : List Char) :
    afterNameMarker? false (line ++ cs) = afterNameMarker? false cs := by
  induction line with
  | nil => rfl
  | cons c line ih =>
    have hc : decide (c = '\n') = false :=
      decide_eq_false fun hc => h (List.mem_cons.2 (.inl hc.symm))
    rw [← ih fun hmem => h (List.mem_cons_of_mem _ hmem), List.cons_append, afterNameMarker?, hc]
    rfl

/-- The reader takes what stands behind a marker, over the end of the line. -/
theorem name?_of_marker (h : trimStart line = nameMarker ++ rest) (below : List Char) :
    name? (line ++ below) = nameIn? (rest ++ below) := by
  have hne : trimStart line ≠ [] := by
    rw [h]
    exact List.cons_ne_nil _ _
  have hstart : trimStart (line ++ below) = nameMarker ++ (rest ++ below) := by
    rw [trimStart_append hne, h, List.append_assoc]
  have hafter : nameMarker.isPrefixOf? (nameMarker ++ (rest ++ below)) = some (rest ++ below) :=
    List.isPrefixOf?_eq_some_iff_append_eq.2 rfl
  unfold name?
  rw [afterNameMarker?_start, hstart, hafter]
  rfl

/-- A line without a marker in front adds nothing, -/
theorem name?_feed (hline : '\n' ∉ line) (h : isNamed line = false) (below : List Char) :
    name? (line ++ '\n' :: below) = name? below := by
  have hnext : afterNameMarker? false ('\n' :: below) = afterNameMarker? true below := rfl
  unfold name?
  congr 1
  rw [afterNameMarker?_start, afterNameMarker?_append hline, hnext]
  by_cases hblank : trimStart line = []
  · -- the blanks in front of a marker may run over the end of the line
    have hfeed : trimStart ('\n' :: below) = trimStart below := List.dropWhile_cons_of_pos rfl
    rw [trimStart_blank_append hblank, hfeed, afterNameMarker?_start below]
    split <;> rfl
  · have hmarker : ¬nameMarker <+: trimStart line ++ '\n' :: below := by
      intro hprefix
      rw [isNamed_iff.2 (prefix_of_prefix_feed (by decide) hprefix)] at h
      cases h
    rw [trimStart_append hblank, isPrefixOf?_eq_none hmarker]

/-- and as a last line it states none. -/
theorem name?_line (hline : '\n' ∉ line) (h : isNamed line = false) : name? line = none := by
  have hmarker : ¬nameMarker <+: trimStart line := by
    rw [← isNamed_iff, Bool.not_eq_true]
    exact h
  have hend : afterNameMarker? false (line ++ []) = none := afterNameMarker?_append hline []
  rw [List.append_nil] at hend
  unfold name?
  rw [afterNameMarker?_start, isPrefixOf?_eq_none hmarker, hend]
  rfl

/-! ## The name behind a marker -/

theorem nameIn?_eq {after : List Char} (h : trimStart after ≠ []) :
    nameIn? after = some (trimEnd ((trimStart after).takeWhile (· ≠ '\n'))) := by
  unfold nameIn?
  split
  · next hnil => exact absurd hnil h
  · rfl

/-- A name behind a marker is taken up to the end of its line, -/
theorem nameIn?_of_stated (hrest : '\n' ∉ rest) (hne : trimStart rest ≠ [])
    (hbelow : ∀ c ∈ below.head?, c = '\n') : nameIn? (rest ++ below) = some (trim rest) := by
  have hfeed : '\n' ∉ trimStart rest := fun hmem => hrest (mem_of_mem_trimStart hmem)
  rw [nameIn?_eq, trimStart_append hne, takeWhile_line hfeed hbelow]
  · rfl
  · rw [trimStart_append hne]
    exact fun hnil => hne (List.append_eq_nil_iff.1 hnil).1

/-- and behind one that stands alone the next line is taken that is not blank. -/
theorem nameIn?_of_bare {next : List Char} (hblank : trimStart rest = [])
    (hnext : (below.splitOn '\n').find? (trim · ≠ []) = some next) :
    nameIn? (rest ++ '\n' :: below) = some (trim next) := by
  have hfeed : trimStart ('\n' :: below) = trimStart below := List.dropWhile_cons_of_pos rfl
  have hstart : trimStart (rest ++ '\n' :: below) = trimStart below := by
    rw [trimStart_blank_append hblank, hfeed]
  obtain ⟨hne, hname⟩ := first_filled hnext
  rw [← hstart] at hne hname
  rw [nameIn?_eq hne, hname]

/-- **A single line that states a name** gives it to the suite, if no marker
stands above. -/
theorem name?_of_nameOn? {name : List Char} (hline : '\n' ∉ line) (h : nameOn? line = some name)
    (hbelow : ∀ c ∈ below.head?, c = '\n') : name? (line ++ below) = some name := by
  obtain ⟨rest, hrest, hne, rfl⟩ := exists_of_nameOn? h
  have hfeed : '\n' ∉ rest := by
    intro hmem
    have hmem : '\n' ∈ nameMarker ++ rest := List.mem_append_right _ hmem
    exact hline (mem_of_mem_trimStart (hrest ▸ hmem))
  rw [name?_of_marker hrest, nameIn?_of_stated hfeed hne hbelow]

/-! ## The name of the whole text -/

/-- A single line that states a name, read line by line. -/
theorem findSome?_of_nameOn? {name : List Char} (hunbroken : Unbroken (trim line))
    (h : nameOn? line = some name) : (filled line).findSome? nameOn? = some name := by
  have hne : trim line ≠ [] := by
    intro hblank
    rw [← nameOn?_trim, hblank] at h
    cases h
  rw [filled_of_unbroken hunbroken hne, List.findSome?_cons, nameOn?_trim, h]

theorem findSome?_of_not_isMarked (h : isMarked line = false) :
    (filled line).findSome? nameOn? = none := by
  rw [← any_filled, List.any_eq_false] at h
  exact List.findSome?_eq_none_iff.2 fun l hl => nameOn?_of_not_isNamed (by simpa using h l hl)

/-- A marker that opens a line between two line feeds opens a line. -/
theorem isMarked_of_isNamed (h : isNamed line = true) : isMarked line = true := by
  obtain ⟨rest, hrest⟩ := exists_of_isNamed h
  have hmarker : Unbroken nameMarker := by decide
  have hlines := lines_unbroken_append hmarker (by decide) rest
  have hfirst : isNamed (nameMarker ++ (lines rest).headD []) = true :=
    isNamed_iff.2 ⟨(lines rest).headD [], rfl⟩
  rw [← any_filled, ← filled_trimStart, any_filled, hrest, isMarked, hlines, List.any_cons, hfirst,
    Bool.true_or]

theorem not_isNamed_of_not_isMarked (h : isMarked line = false) : isNamed line = false := by
  by_contra hnamed
  rw [isMarked_of_isNamed (by simpa using hnamed)] at h
  cases h

/-- A text whose first marker states a name, read line by line. -/
theorem name?_of_headed (h : Headed text) : name? text = (lines text).findSome? nameOn? := by
  induction text using feed_induction with
  | last line hline =>
    rw [← findSome?_filled]
    by_cases hmarked : isMarked line = true
    · have hfirst : (line.splitOn '\n').find? isMarked = some line := by
        rw [List.splitOn_eq_singleton hline, List.find?_cons_of_pos hmarked]
      obtain ⟨hunbroken, hname⟩ := h line hfirst
      obtain ⟨name, hname⟩ := Option.ne_none_iff_exists'.1 hname
      have hread : name? (line ++ []) = some name := name?_of_nameOn? hline hname (by simp)
      rw [List.append_nil] at hread
      rw [hread, findSome?_of_nameOn? hunbroken hname]
    · have hmarked : isMarked line = false := by simpa using hmarked
      rw [name?_line hline (not_isNamed_of_not_isMarked hmarked), findSome?_of_not_isMarked hmarked]
  | more line below hline ih =>
    unfold Headed at h
    rw [splitOn_feed hline] at h
    rw [← findSome?_filled, filled_append_feed, List.findSome?_append]
    by_cases hmarked : isMarked line = true
    · rw [List.find?_cons_of_pos hmarked] at h
      obtain ⟨hunbroken, hname⟩ := h line rfl
      obtain ⟨name, hname⟩ := Option.ne_none_iff_exists'.1 hname
      have hread : name? (line ++ '\n' :: below) = some name :=
        name?_of_nameOn? hline hname (by simp)
      rw [hread, findSome?_of_nameOn? hunbroken hname]
      rfl
    · have hmarked : isMarked line = false := by simpa using hmarked
      rw [List.find?_cons_of_neg (by simpa using hmarked)] at h
      rw [name?_feed hline (not_isNamed_of_not_isMarked hmarked), findSome?_of_not_isMarked hmarked,
        ih h, findSome?_filled]
      rfl

/-- A text whose first marker stands alone, with something below it. -/
theorem name?_of_bare {above ls : List (List Char)} {next : List Char}
    (hsplit : text.splitOn '\n' = above ++ line :: ls) (habove : ∀ l ∈ above, isNamed l = false)
    (hbare : trim line = nameMarker) (hnext : ls.find? (trim · ≠ []) = some next) :
    name? text = some (trim next) := by
  induction text using feed_induction generalizing above with
  | last last hlast =>
    -- below a last line there is nothing
    rw [List.splitOn_eq_singleton hlast] at hsplit
    cases above with
    | nil =>
      cases hsplit
      cases hnext
    | cons first above => exact absurd (List.cons.inj hsplit).2 (by simp)
  | more first below hfirst ih =>
    rw [splitOn_feed hfirst] at hsplit
    cases above with
    | nil =>
      obtain ⟨rfl, rfl⟩ := List.cons.inj hsplit
      have hnamed : isNamed first = true := by
        unfold isNamed
        rw [hbare]
        rfl
      obtain ⟨rest, hrest⟩ := exists_of_isNamed hnamed
      have hend : trimEnd rest = [] := by
        rw [trim_of_marker hrest] at hbare
        exact List.append_cancel_left (hbare.trans (List.append_nil _).symm)
      obtain ⟨gap, hgap, hblank⟩ := exists_trimEnd rest
      rw [hend, List.nil_append] at hgap
      rw [name?_of_marker hrest, nameIn?_of_bare (hgap ▸ hblank) hnext]
    | cons l above =>
      obtain ⟨rfl, hbelow⟩ := List.cons.inj hsplit
      rw [name?_feed hfirst (habove first List.mem_cons_self)]
      exact ih hbelow fun l hl => habove l (List.mem_cons_of_mem _ hl)

/-- **A suite has the name that the lines of its document state,** the first of
them, or the default one, where the first marker states a name; and it fills a
line. A first marker that stands alone names the suite after the next line that
is not blank, as it stands. -/
theorem name_by_line (text : String) (source : Option String) :
    (Headed text.toList →
      (parse text source).name = nameByLine (lines text.toList) ∧
        FillsLine (parse text source).name) ∧
      ∀ above bare below next, text.toList.splitOn '\n' = above ++ bare :: below →
        (∀ line ∈ above, isNamed line = false) → trim bare = nameMarker →
          below.find? (trim · ≠ []) = some next →
            (parse text source).name = String.ofList (trim next) := by
  constructor
  · intro h
    have hname : (parse text source).name = nameByLine (lines text.toList) := by
      unfold parse nameByLine
      rw [name?_of_headed h]
    exact ⟨hname, hname ▸ fillsLine_nameByLine _⟩
  · intro above bare below next hsplit habove hbare hnext
    unfold parse
    rw [name?_of_bare hsplit habove hbare hnext]
    rfl

/-- Markers that open no line or stand below, other separators at the ends of a
line, and lines ended in two ways. -/
def lateName : String :=
  "# suite: a\n\r\n\u3000suite:\tログイン \u2028\r\nsuite: b\ncase: c\n- d\n"

/-- A marker that stands alone. -/
def bareName : String := "suite:\n\ncase: a\n- b\n"

/-- The first is named by its line, the second by what should be a case. -/
theorem name_by_line_lateName :
    (Headed lateName.toList ∧ (parse lateName none).name = "ログイン" ∧
        FillsLine (parse lateName none).name) ∧
      (parse bareName none).name = "case: a" := by
  have hline := (name_by_line lateName none).1 (by decide)
  have hbare := (name_by_line bareName none).2 [] "suite:".toList
    [[], "case: a".toList, "- b".toList, []] "case: a".toList (by decide) (by decide) (by decide)
    (by decide)
  exact ⟨⟨by decide, hline.1.trans (by decide), hline.2⟩, hbare.trans (by decide)⟩

/-- **Not every suite has the name that a line states:** below a marker that
stands alone the first case is taken for it. -/
theorem name_not_by_line :
    ¬∀ (text : String) (source : Option String),
      (parse text source).name = nameByLine (lines text.toList) := by
  intro h
  have hname := h bareName none
  revert hname
  decide

end Walkthrough.Suite
