import Walkthrough.Proofs.Text.Blank
import Walkthrough.Proofs.Text.Line
/-!
# Texts cut at their line feeds

A line feed cuts a text wherever it stands. So a word behind one begins a line,
wherever in the text that is (`exists_line_of_infix`), and a line begins with a
word or it does not, whatever stands below it (`prefix_of_prefix_feed`).

The other separators cut such a line into further ones. Blank ones aside, the
lines of a text are those of its lines between line feeds (`filled_append_feed`),
and a line that has a separator at most among the blanks at its ends is left as
one (`filled_of_unbroken`).
-/

namespace Walkthrough.Text

variable {word front line cs : List Char} {c : Char}

/-- Nothing is left behind a word with which a text does not begin. -/
theorem isPrefixOf?_eq_none (h : ¬word <+: cs) : word.isPrefixOf? cs = none := by
  cases hrest : word.isPrefixOf? cs with
  | none => rfl
  | some rest => exact absurd ⟨rest, List.isPrefixOf?_eq_some_iff_append_eq.1 hrest⟩ h

/-- **What begins a line begins it** whatever stands below. -/
theorem prefix_of_prefix_feed (hword : '\n' ∉ word) (h : word <+: front ++ '\n' :: cs) :
    word <+: front := by
  have hline : front ++ ['\n'] <+: front ++ '\n' :: cs := ⟨cs, by simp⟩
  rcases List.prefix_or_prefix_of_prefix h hline with h | h
  · rcases List.prefix_concat_iff.1 h with rfl | h
    · exact absurd (by simp) hword
    · exact h
  · exact absurd (h.subset (by simp)) hword

/-- The first line of a text begins as the text does. -/
theorem exists_first_line (hfront : '\n' ∉ front) (cs : List Char) :
    ∃ line rest, (front ++ cs).splitOn '\n' = (front ++ line) :: rest := by
  induction front with
  | nil => exact List.exists_cons_of_ne_nil (List.splitOn_ne_nil '\n' cs) |>.imp fun _ h => h
  | cons c front ih =>
    obtain ⟨line, rest, hsplit⟩ := ih fun h => hfront (List.mem_cons_of_mem _ h)
    have hc : (c == '\n') = false := by
      simp only [beq_eq_false_iff_ne, ne_eq]
      rintro rfl
      exact hfront List.mem_cons_self
    refine ⟨line, rest, ?_⟩
    rw [List.cons_append, List.splitOn_cons_eq_if_modifyHead, hsplit, hc]
    rfl

/-- **A word behind a line feed begins a line.** -/
theorem exists_line_of_infix (hword : '\n' ∉ word) (h : '\n' :: word <:+: cs) :
    ∃ line ∈ cs.splitOn '\n', word <+: line := by
  obtain ⟨above, below, rfl⟩ := h
  obtain ⟨line, rest, hsplit⟩ := exists_first_line hword below
  refine ⟨word ++ line, ?_, List.prefix_append _ _⟩
  rw [List.append_assoc, List.cons_append, List.splitOn_append_cons_self, hsplit]
  simp

/-- **What holds of a last line, and of a text with one more line above it,**
holds of every text. -/
@[elab_as_elim]
theorem feed_induction {motive : List Char → Prop} (last : ∀ line, '\n' ∉ line → motive line)
    (more : ∀ line cs, '\n' ∉ line → motive cs → motive (line ++ '\n' :: cs)) (cs : List Char) :
    motive cs := by
  by_cases h : '\n' ∈ cs
  · obtain ⟨line, below, hcs, hline⟩ := List.eq_append_cons_of_mem h
    have hshorter : below.length < cs.length := by
      rw [hcs, List.length_append, List.length_cons]
      omega
    rw [hcs]
    exact more line below hline (feed_induction last more below)
  · exact last cs h
termination_by cs.length

theorem splitOn_feed (hline : '\n' ∉ line) (cs : List Char) :
    (line ++ '\n' :: cs).splitOn '\n' = line :: cs.splitOn '\n' := by
  rw [List.splitOn_append_cons_self, List.splitOn_eq_singleton hline]
  rfl

theorem takeWhile_line (hline : '\n' ∉ line) (hbelow : ∀ c ∈ cs.head?, c = '\n') :
    (line ++ cs).takeWhile (· ≠ '\n') = line := by
  rw [List.takeWhile_append_of_pos fun c hc => ?_]
  · cases cs with
    | nil => exact List.append_nil _
    | cons c cs =>
      rw [hbelow c rfl]
      exact List.append_nil _
  · exact decide_eq_true fun heq => hline (heq ▸ hc)

/-! ## Lines that are not blank -/

/-- The lines of a text that are not blank, trimmed. -/
def filled (cs : List Char) : List (List Char) := ((lines cs).map trim).filter (· ≠ [])

/-- Blanks in front of a text change none of them, -/
theorem filled_blank_cons (hc : isBlank c = true) (cs : List Char) : filled (c :: cs) = filled cs := by
  have htrim (line : List Char) : trim (c :: line) = trim line :=
    congrArg trimEnd (List.dropWhile_cons_of_pos hc)
  have hnil : trim [] = [] := rfl
  unfold filled
  cases h : c :: cs using lines.fun_cases with
  | case1 => cases h
  | case2 rest =>
    cases h
    rfl
  | case3 d rest hreturn hbreak =>
    cases h
    rw [lines_cons_of_break hbreak hreturn]
    rfl
  | case4 d rest hreturn hbreak =>
    cases h
    rw [lines_cons_of_unbroken (by simpa using hbreak)]
    cases lines cs with
    | nil => simp [consLine, htrim, hnil]
    | cons line ls => simp [consLine, htrim]

theorem filled_trimStart (cs : List Char) : filled (trimStart cs) = filled cs := by
  induction cs with
  | nil => rfl
  | cons c cs ih =>
    by_cases hc : isBlank c = true
    · have htrim : trimStart (c :: cs) = trimStart cs := List.dropWhile_cons_of_pos hc
      rw [htrim, ih, filled_blank_cons hc]
    · have htrim : trimStart (c :: cs) = c :: cs := List.dropWhile_cons_of_neg hc
      rw [htrim]

/-- **and a line feed parts them.** -/
theorem filled_append_feed (above below : List Char) :
    filled (above ++ '\n' :: below) = filled above ++ filled below := by
  have hfeed : filled (above ++ ['\n']) = filled above := by
    unfold filled
    rcases lines_feed above with h | h
    · rw [h]
    · rw [h, List.map_append, List.filter_append]
      exact List.append_nil _
  unfold filled at hfeed ⊢
  rw [lines_append_feed, List.map_append, List.filter_append, hfeed]

/-- What is left of a line without a separator in it is one line. -/
theorem filled_of_unbroken (h : Unbroken (trim cs)) (hne : trim cs ≠ []) : filled cs = [trim cs] := by
  obtain ⟨gap, hcs, hgap⟩ := exists_trimEnd (trimStart cs)
  have hcore : trimStart cs = trim cs ++ gap := hcs
  have hlines := lines_unbroken_append h hne gap
  -- what separators there are stand in the gap, so the lines below the first are blank
  have hblank (line : List Char) (hline : ∀ d ∈ line, d ∈ gap) : trimStart line = [] :=
    trimStart_eq_nil_iff.2 fun d hd => trimStart_eq_nil_iff.1 hgap d (hline d hd)
  have hfirst : trim (trim cs ++ (lines gap).headD []) = trim cs := by
    rw [trim_append_blank, trim_trim]
    cases hgaps : lines gap with
    | nil => rfl
    | cons line rest => exact hblank line fun d => mem_of_mem_lines (hgaps ▸ List.mem_cons_self)
  have hrest : ((lines gap).tail.map trim).filter (· ≠ []) = [] := by
    refine List.filter_eq_nil_iff.2 fun line hline => ?_
    obtain ⟨l, hl, rfl⟩ := List.mem_map.1 hline
    have hl : trimStart l = [] := hblank l fun d => mem_of_mem_lines (List.mem_of_mem_tail hl)
    simp [trim_eq_nil_iff.2 hl]
  rw [← filled_trimStart, hcore, filled, hlines, List.map_cons, hfirst,
    List.filter_cons_of_pos (by simpa using hne), hrest]

/-- The first line that is not blank is what a text begins with when trimmed. -/
theorem first_filled {next : List Char}
    (h : (cs.splitOn '\n').find? (trim · ≠ []) = some next) : trimStart cs ≠ [] ∧
      trimEnd ((trimStart cs).takeWhile (· ≠ '\n')) = trim next := by
  induction cs using feed_induction with
  | last line hline =>
    rw [List.splitOn_eq_singleton hline, List.find?_singleton] at h
    split at h
    · next hfilled =>
      obtain rfl : line = next := Option.some.inj h
      have hne : trimStart line ≠ [] := by simpa [trim_eq_nil_iff] using hfilled
      have hfeed : '\n' ∉ trimStart line := fun hmem => hline (mem_of_mem_trimStart hmem)
      have htake : (trimStart line ++ []).takeWhile (· ≠ '\n') = trimStart line :=
        takeWhile_line hfeed (by simp)
      rw [List.append_nil] at htake
      rw [htake]
      exact ⟨hne, rfl⟩
    · cases h
  | more line cs hline ih =>
    rw [splitOn_feed hline] at h
    by_cases hblank : trimStart line = []
    · have htrim : trimStart ('\n' :: cs) = trimStart cs := List.dropWhile_cons_of_pos rfl
      rw [List.find?_cons_of_neg (by simp [trim_eq_nil_iff, hblank])] at h
      rw [trimStart_blank_append hblank, htrim]
      exact ih h
    · rw [List.find?_cons_of_pos (by simp [trim_eq_nil_iff, hblank])] at h
      obtain rfl : line = next := Option.some.inj h
      have hfeed : '\n' ∉ trimStart line := fun hmem => hline (mem_of_mem_trimStart hmem)
      rw [trimStart_append hblank, takeWhile_line hfeed (by simp)]
      exact ⟨fun hnil => hblank (List.append_eq_nil_iff.1 hnil).1, rfl⟩

end Walkthrough.Text
