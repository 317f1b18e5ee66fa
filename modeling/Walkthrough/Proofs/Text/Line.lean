import Walkthrough.Text.Line
/-!
# Lines and their ends

Lines written one below the other are read as these lines, whether or not the
last one is ended (`lines_ended`, `lines_joined`). And it does not matter which
of three line ends a text has: with another one it has the same lines
(`lines_withEnds`), and read from a file it is the same text
(`unifyLineEnds_withEnds`).
-/

namespace Walkthrough.Text

variable {c : Char} {line cs : List Char} {ls : List (List Char)}

/-! ## Lines one below the other -/

/-- There is no line break in it. -/
def Unbroken (line : List Char) : Prop := ∀ c ∈ line, isLineBreak c = false

instance : Decidable (Unbroken line) := List.decidableBAll _ line

theorem lines_cons (hc : c ≠ '\r') (rest : List Char) :
    lines (c :: rest) =
      if isLineBreak c then [] :: lines rest else consLine c (lines rest) := by
  rw [lines]
  rintro _ rfl
  exact absurd rfl hc

/-- A character that breaks no line belongs to the first one. -/
theorem lines_cons_of_unbroken (hc : isLineBreak c = false) (rest : List Char) :
    lines (c :: rest) = consLine c (lines rest) := by
  have hne : c ≠ '\r' := by
    rintro rfl
    cases hc
  rw [lines_cons hne, hc]
  rfl

/-- A line that is ended is the first one, -/
theorem lines_line (h : Unbroken line) (rest : List Char) :
    lines (line ++ '\n' :: rest) = line :: lines rest := by
  induction line with
  | nil => rfl
  | cons c line ih =>
    have hline : Unbroken line := fun d hd => h d (List.mem_cons_of_mem _ hd)
    rw [List.cons_append, lines_cons_of_unbroken (h c List.mem_cons_self), ih hline]
    rfl

/-- and one that is not ended is the last, if there is anything on it. -/
theorem lines_eq_singleton (h : Unbroken line) (hne : line ≠ []) : lines line = [line] := by
  induction line with
  | nil => exact absurd rfl hne
  | cons c line ih =>
    have hline : Unbroken line := fun d hd => h d (List.mem_cons_of_mem _ hd)
    rw [lines_cons_of_unbroken (h c List.mem_cons_self)]
    cases line with
    | nil => rfl
    | cons d line =>
      rw [ih hline (List.cons_ne_nil _ _)]
      rfl

theorem lines_append (h : ∀ l ∈ ls, Unbroken l) (rest : List Char) :
    lines (ls.flatMap (· ++ ['\n']) ++ rest) = ls ++ lines rest := by
  induction ls with
  | nil => rfl
  | cons line ls ih =>
    have hls := ih fun l hl => h l (List.mem_cons_of_mem _ hl)
    rw [List.flatMap_cons, List.append_assoc, List.append_assoc, List.singleton_append,
      lines_line (h line List.mem_cons_self), hls]
    rfl

/-- **Lines that are written down are read again.** -/
theorem lines_ended (h : ∀ l ∈ ls, Unbroken l) : lines (ls.flatMap (· ++ ['\n'])) = ls := by
  have hlines := lines_append h []
  rwa [List.append_nil, lines, List.append_nil] at hlines

/-- **So they are without the last line end,** unless the last line is empty. -/
theorem lines_joined (h : ∀ l ∈ ls, Unbroken l) (hne : ∀ l ∈ ls, l ≠ []) :
    lines (ls.flatMap (· ++ ['\n'])).dropLast = ls := by
  rcases List.eq_nil_or_concat ls with rfl | ⟨front, last, rfl⟩
  · rfl
  · rw [List.concat_eq_append] at h hne ⊢
    have hlast : last ∈ front ++ [last] := by simp
    have htext : ((front ++ [last]).flatMap (· ++ ['\n'])).dropLast =
        front.flatMap (· ++ ['\n']) ++ last := by
      simp [List.flatMap_append, ← List.append_assoc]
    rw [htext, lines_append fun l hl => h l (List.mem_append_left _ hl),
      lines_eq_singleton (h last hlast) (hne last hlast)]

/-! ## Lines of a text in two parts -/

theorem consLine_append (c : Char) (hne : ls ≠ []) (rest : List (List Char)) :
    consLine c (ls ++ rest) = consLine c ls ++ rest := by
  cases ls with
  | nil => exact absurd rfl hne
  | cons line ls => rfl

/-- A character that breaks a line, and that no line feed completes, ends one. -/
theorem lines_cons_of_break (hc : isLineBreak c = true)
    (h : ∀ rest, c = '\r' → cs = '\n' :: rest → False) : lines (c :: cs) = [] :: lines cs := by
  rw [lines]
  · rw [if_pos hc]
  · exact h

/-- So it does with a line feed somewhere below it. -/
theorem lines_cons_append_feed (hc : isLineBreak c = true)
    (h : ∀ rest, c = '\r' → cs = '\n' :: rest → False) (hne : ¬(c = '\r' ∧ cs = []))
    (below : List Char) : lines (c :: (cs ++ '\n' :: below)) = [] :: lines (cs ++ '\n' :: below) := by
  refine lines_cons_of_break hc fun rest hreturn hcs => ?_
  cases cs with
  | nil => exact hne ⟨hreturn, rfl⟩
  | cons d cs =>
    rw [List.cons_append] at hcs
    exact h cs hreturn (by rw [(List.cons.inj hcs).1])

theorem lines_ne_nil (hne : cs ≠ []) : lines cs ≠ [] := by
  cases cs using lines.fun_cases with
  | case1 => exact absurd rfl hne
  | case2 rest => exact List.cons_ne_nil _ _
  | case3 c rest h hc =>
    rw [lines_cons_of_break hc h]
    exact List.cons_ne_nil _ _
  | case4 c rest h hc =>
    rw [lines_cons_of_unbroken (by simpa using hc)]
    unfold consLine
    split <;> exact List.cons_ne_nil _ _

/-- **A line feed parts the lines above it from those below.** -/
theorem lines_append_feed (above below : List Char) :
    lines (above ++ '\n' :: below) = lines (above ++ ['\n']) ++ lines below := by
  induction above using lines.induct with
  | case1 => rfl
  | case2 above ih => exact congrArg ([] :: ·) ih
  | case3 c above h hc ih =>
    by_cases hreturn : c = '\r' ∧ above = []
    · obtain ⟨rfl, rfl⟩ := hreturn
      rfl
    · rw [List.cons_append, List.cons_append, lines_cons_append_feed hc h hreturn,
        lines_cons_append_feed hc h hreturn, ih]
      rfl
  | case4 c above h hc ih =>
    have hc : isLineBreak c = false := by simpa using hc
    rw [List.cons_append, List.cons_append, lines_cons_of_unbroken hc, lines_cons_of_unbroken hc, ih,
      consLine_append c (lines_ne_nil (by simp))]

/-- A line feed at the end adds no line, or an empty one. -/
theorem lines_feed (cs : List Char) :
    lines (cs ++ ['\n']) = lines cs ∨ lines (cs ++ ['\n']) = lines cs ++ [[]] := by
  induction cs using lines.induct with
  | case1 => exact .inr rfl
  | case2 cs ih => exact ih.imp (congrArg ([] :: ·)) (congrArg ([] :: ·))
  | case3 c cs h hc ih =>
    by_cases hreturn : c = '\r' ∧ cs = []
    · obtain ⟨rfl, rfl⟩ := hreturn
      exact .inl rfl
    · rw [List.cons_append, lines_cons_append_feed hc h hreturn, lines_cons_of_break hc h]
      exact ih.imp (congrArg ([] :: ·)) (congrArg ([] :: ·))
  | case4 c cs h hc ih =>
    have hc : isLineBreak c = false := by simpa using hc
    rw [List.cons_append, lines_cons_of_unbroken hc, lines_cons_of_unbroken hc]
    by_cases hcs : cs = []
    · subst hcs
      exact .inl rfl
    · rw [← consLine_append c (lines_ne_nil hcs)]
      exact ih.imp (congrArg (consLine c)) (congrArg (consLine c))

/-- Every line is a part of the text. -/
theorem mem_of_mem_lines (hline : line ∈ lines cs) {d : Char} (hd : d ∈ line) : d ∈ cs := by
  induction cs using lines.induct generalizing line with
  | case1 => cases hline
  | case2 cs ih =>
    rcases List.mem_cons.1 hline with rfl | hline
    · cases hd
    · exact List.mem_cons_of_mem _ (List.mem_cons_of_mem _ (ih hline hd))
  | case3 c cs h hc ih =>
    rw [lines_cons_of_break hc h] at hline
    rcases List.mem_cons.1 hline with rfl | hline
    · cases hd
    · exact List.mem_cons_of_mem _ (ih hline hd)
  | case4 c cs h hc ih =>
    rw [lines_cons_of_unbroken (by simpa using hc)] at hline
    cases hlines : lines cs with
    | nil =>
      rw [hlines] at hline
      rw [List.mem_singleton.1 hline] at hd
      exact List.mem_cons.2 (.inl (List.mem_singleton.1 hd))
    | cons first rest =>
      rw [hlines] at hline ih
      rcases List.mem_cons.1 hline with rfl | hline
      · rcases List.mem_cons.1 hd with rfl | hd
        · exact List.mem_cons_self
        · exact List.mem_cons_of_mem _ (ih List.mem_cons_self hd)
      · exact List.mem_cons_of_mem _ (ih (List.mem_cons_of_mem _ hline) hd)

/-- There is no line break in a line. -/
theorem unbroken_of_mem_lines (hline : line ∈ lines cs) : Unbroken line := by
  induction cs using lines.induct generalizing line with
  | case1 => cases hline
  | case2 cs ih =>
    rcases List.mem_cons.1 hline with rfl | hline
    · exact fun d hd => nomatch hd
    · exact ih hline
  | case3 c cs h hc ih =>
    rw [lines_cons_of_break hc h] at hline
    rcases List.mem_cons.1 hline with rfl | hline
    · exact fun d hd => nomatch hd
    · exact ih hline
  | case4 c cs h hc ih =>
    have hc : isLineBreak c = false := by simpa using hc
    rw [lines_cons_of_unbroken hc] at hline
    cases hlines : lines cs with
    | nil =>
      rw [hlines] at hline
      rw [List.mem_singleton.1 hline]
      exact fun d hd => List.mem_singleton.1 hd ▸ hc
    | cons first rest =>
      rw [hlines] at hline ih
      rcases List.mem_cons.1 hline with rfl | hline
      · intro d hd
        rcases List.mem_cons.1 hd with rfl | hd
        · exact hc
        · exact ih List.mem_cons_self d hd
      · exact ih (List.mem_cons_of_mem _ hline)

/-- **Characters that break no line** all belong to the first one. -/
theorem lines_unbroken_append (h : Unbroken line) (hne : line ≠ []) (cs : List Char) :
    lines (line ++ cs) = (line ++ (lines cs).headD []) :: (lines cs).tail := by
  induction line with
  | nil => exact absurd rfl hne
  | cons c line ih =>
    have hline : Unbroken line := fun d hd => h d (List.mem_cons_of_mem _ hd)
    rw [List.cons_append, lines_cons_of_unbroken (h c List.mem_cons_self)]
    by_cases hempty : line = []
    · subst hempty
      rw [List.nil_append]
      cases lines cs <;> rfl
    · rw [ih hline hempty]
      rfl

/-! ## Three line ends -/

/-- What may end a line in a text file. -/
inductive LineEnd where
  | lf
  | crlf
  | cr
deriving DecidableEq, Repr

/-- The characters of a line end. -/
def LineEnd.chars : LineEnd → List Char
  | lf => ['\n']
  | crlf => ['\r', '\n']
  | cr => ['\r']

/-- A text with this line end in place of each line feed. -/
def withEnds (e : LineEnd) (cs : List Char) : List Char :=
  cs.flatMap fun c => if c = '\n' then e.chars else [c]

theorem withEnds_newline (e : LineEnd) (cs : List Char) :
    withEnds e ('\n' :: cs) = e.chars ++ withEnds e cs := rfl

theorem withEnds_cons (e : LineEnd) (hc : c ≠ '\n') (cs : List Char) :
    withEnds e (c :: cs) = c :: withEnds e cs := by
  unfold withEnds
  rw [List.flatMap_cons, if_neg hc]
  rfl

/-- Line feeds in place of line feeds change nothing. -/
theorem withEnds_lf (cs : List Char) : withEnds .lf cs = cs := by
  induction cs with
  | nil => rfl
  | cons c cs ih =>
    by_cases hc : c = '\n'
    · subst hc
      exact congrArg ('\n' :: ·) ih
    · rw [withEnds_cons _ hc, ih]

/-- Carriage returns for line feeds leave no line feed. -/
theorem newline_notMem_withEnds (cs : List Char) : '\n' ∉ withEnds .cr cs := by
  induction cs with
  | nil => exact List.not_mem_nil
  | cons c cs ih =>
    by_cases hc : c = '\n'
    · subst hc
      rw [withEnds_newline]
      simpa [LineEnd.chars] using ih
    · rw [withEnds_cons _ hc]
      simpa [Ne.symm hc] using ih

/-- A carriage return without a line feed behind it ends a line as well. -/
theorem lines_return (h : '\n' ∉ cs) : lines ('\r' :: cs) = [] :: lines cs := by
  rw [lines]
  · rfl
  · rintro rest - rfl
    exact h List.mem_cons_self

theorem unifyLineEnds_return (h : '\n' ∉ cs) :
    unifyLineEnds ('\r' :: cs) = '\n' :: unifyLineEnds cs := by
  rw [unifyLineEnds]
  · rfl
  · rintro rest - rfl
    exact h List.mem_cons_self

theorem unifyLineEnds_cons (hc : c ≠ '\r') (cs : List Char) :
    unifyLineEnds (c :: cs) = c :: unifyLineEnds cs := by
  rw [unifyLineEnds, if_neg hc]
  rintro _ rfl
  exact absurd rfl hc

/-- **With another line end a text has the same lines.** -/
theorem lines_withEnds (e : LineEnd) (h : '\r' ∉ cs) : lines (withEnds e cs) = lines cs := by
  induction cs with
  | nil => rfl
  | cons c cs ih =>
    have hcs := ih fun hmem => h (List.mem_cons_of_mem _ hmem)
    by_cases hc : c = '\n'
    · subst hc
      have hfeed : lines ('\n' :: cs) = [] :: lines cs := rfl
      rw [withEnds_newline, hfeed, ← hcs]
      cases e with
      | lf => rfl
      | crlf => rfl
      | cr => exact lines_return (newline_notMem_withEnds cs)
    · have hne : c ≠ '\r' := fun heq => h (heq ▸ List.mem_cons_self)
      rw [withEnds_cons _ hc, lines_cons hne, lines_cons hne, hcs]

/-- **Read from a file it is the same text,** too. -/
theorem unifyLineEnds_withEnds (e : LineEnd) (h : '\r' ∉ cs) :
    unifyLineEnds (withEnds e cs) = cs := by
  induction cs with
  | nil => rfl
  | cons c cs ih =>
    have hcs := ih fun hmem => h (List.mem_cons_of_mem _ hmem)
    by_cases hc : c = '\n'
    · subst hc
      rw [withEnds_newline]
      cases e with
      | lf => exact (unifyLineEnds_cons (by decide) _).trans (congrArg _ hcs)
      | crlf => exact congrArg ('\n' :: ·) hcs
      | cr =>
        exact (unifyLineEnds_return (newline_notMem_withEnds cs)).trans (congrArg _ hcs)
    · have hne : c ≠ '\r' := fun heq => h (heq ▸ List.mem_cons_self)
      rw [withEnds_cons _ hc, unifyLineEnds_cons hne, hcs]

end Walkthrough.Text
