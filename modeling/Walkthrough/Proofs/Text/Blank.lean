import Mathlib.Data.List.Basic
import Mathlib.Data.List.TakeWhile
import Walkthrough.Text.Blank
/-!
# Trimmed texts

A text is trimmed where it has a blank at neither end (`trim_eq_self_iff`).
So a trimmed text stays trimmed when something that begins with no blank is put
in front of it (`trim_append`), and a gap in front of it is all that trimming
takes away (`trim_gap`).
-/

namespace Walkthrough.Text

variable {front cs : List Char} {c : Char}

/-- No tail is dropped where the last member does not satisfy `p`. -/
theorem dropTail_eq_self {α : Type} {p : α → Bool} {as : List α}
    (h : ∀ a ∈ as.getLast?, p a = false) : dropTail p as = as := by
  induction as with
  | nil => rfl
  | cons a rest ih =>
    cases rest with
    | nil =>
      have ha : p a = false := h a rfl
      simp [dropTail, ha]
    | cons b rest =>
      have hrest : dropTail p (b :: rest) = b :: rest :=
        ih fun d hd => h d (by rwa [List.getLast?_cons_cons])
      unfold dropTail
      rw [hrest]

theorem trimStart_eq_self (h : ∀ c ∈ cs.head?, isBlank c = false) : trimStart cs = cs := by
  cases cs with
  | nil => rfl
  | cons c rest =>
    have hc : isBlank c = false := h c rfl
    exact List.dropWhile_cons_of_neg (by simp [hc])

/-- What is left in front begins with no blank. -/
theorem not_isBlank_of_head?_trimStart (h : (trimStart cs).head? = some c) : isBlank c = false := by
  unfold trimStart at h
  have hnot := List.head?_dropWhile_not isBlank cs
  rw [h] at hnot
  exact hnot

/-- **A text is trimmed** where it has a blank at neither end. -/
theorem trim_eq_self_iff : trim cs = cs ↔
    (∀ c ∈ cs.head?, isBlank c = false) ∧ ∀ c ∈ cs.getLast?, isBlank c = false := by
  constructor
  · intro h
    have hstart : trimStart cs = cs := by
      have hprefix : trim cs <+: trimStart cs := dropTail_isPrefix isBlank _
      rw [h] at hprefix
      exact (List.dropWhile_suffix isBlank).eq_of_length_le hprefix.length_le
    refine ⟨fun c hc => ?_, fun c hc => ?_⟩
    · rw [← hstart] at hc
      exact not_isBlank_of_head?_trimStart hc
    · rw [← h] at hc
      exact not_of_getLast?_dropTail hc
  · rintro ⟨hhead, hlast⟩
    unfold trim
    rw [trimStart_eq_self hhead]
    exact dropTail_eq_self hlast

/-- **A trimmed text stays trimmed** behind something that begins with no
blank. -/
theorem trim_append (hfront : front.head?.any isBlank = false) (hcs : trim cs = cs)
    (hne : cs ≠ []) : trim (front ++ cs) = front ++ cs := by
  obtain ⟨hhead, hlast⟩ := trim_eq_self_iff.1 hcs
  refine trim_eq_self_iff.2 ⟨fun c hc => ?_, fun c hc => ?_⟩
  · cases front with
    | nil => exact hhead c hc
    | cons d rest =>
      cases hc
      exact hfront
  · rw [List.getLast?_append_of_ne_nil front hne] at hc
    exact hlast c hc

/-- The gap in front of a text goes. -/
theorem trimStart_gap (cs : List Char) : trimStart (' ' :: cs) = trimStart cs :=
  List.dropWhile_cons_of_pos rfl

theorem trim_gap (hcs : trim cs = cs) : trim (' ' :: cs) = cs := by
  unfold trim at hcs ⊢
  rw [trimStart_gap, hcs]

theorem mem_of_mem_trimStart (h : c ∈ trimStart cs) : c ∈ cs :=
  (List.dropWhile_suffix isBlank).subset h

theorem mem_of_mem_trim (h : c ∈ trim cs) : c ∈ cs :=
  mem_of_mem_trimStart ((dropTail_isPrefix isBlank _).subset h)

/-! ## Where trimming stops -/

/-- No tail that is dropped reaches a member that does not satisfy `p`. -/
theorem dropTail_append_cons {α : Type} {p : α → Bool} {a : α} (ha : p a = false)
    (front rest : List α) : dropTail p (front ++ a :: rest) = front ++ a :: dropTail p rest := by
  induction front with
  | nil =>
    rw [List.nil_append, List.nil_append, dropTail]
    cases dropTail p rest with
    | nil => simp [ha]
    | cons b kept => rfl
  | cons b front ih =>
    rw [List.cons_append, dropTail, ih]
    cases front <;> rfl

theorem trimEnd_append_cons (hc : isBlank c = false) (front cs : List Char) :
    trimEnd (front ++ c :: cs) = front ++ c :: trimEnd cs := dropTail_append_cons hc front cs

/-- **A text is blank** where nothing is left of it. -/
theorem trimStart_eq_nil_iff : trimStart cs = [] ↔ ∀ c ∈ cs, isBlank c = true :=
  List.dropWhile_eq_nil_iff

theorem trim_eq_nil_iff : trim cs = [] ↔ trimStart cs = [] := by
  constructor
  · intro h
    cases hstart : trimStart cs with
    | nil => rfl
    | cons c rest =>
      -- the first character that is left is no blank, so trimming the end leaves it
      have hc : isBlank c = false := not_isBlank_of_head?_trimStart (by rw [hstart]; rfl)
      have hend := trimEnd_append_cons hc [] rest
      unfold trim at h
      rw [hstart, ← List.nil_append (c :: rest), hend] at h
      cases h
  · intro h
    unfold trim
    rw [h]
    rfl

/-- What stands behind a text that is not blank stays. -/
theorem trimStart_append (h : trimStart front ≠ []) (cs : List Char) :
    trimStart (front ++ cs) = trimStart front ++ cs := by
  unfold trimStart at h ⊢
  rw [List.dropWhile_append, if_neg (by simpa using h)]

/-- What stands behind a blank text is trimmed as it stands alone. -/
theorem trimStart_blank_append (h : trimStart front = []) (cs : List Char) :
    trimStart (front ++ cs) = trimStart cs :=
  List.dropWhile_append_of_pos (trimStart_eq_nil_iff.1 h)

/-- What has been dropped satisfies `p`. -/
theorem exists_dropTail_append {α : Type} (p : α → Bool) (as : List α) :
    ∃ tail, as = dropTail p as ++ tail ∧ ∀ a ∈ tail, p a = true := by
  induction as with
  | nil => exact ⟨[], rfl, nofun⟩
  | cons a rest ih =>
    obtain ⟨tail, hrest, htail⟩ := ih
    unfold dropTail
    split
    · next hnil =>
      rw [hnil] at hrest
      split
      · next ha =>
        refine ⟨a :: tail, by rw [← List.nil_append tail, ← hrest]; rfl, fun b hb => ?_⟩
        rcases List.mem_cons.1 hb with rfl | hb
        · exact ha
        · exact htail b hb
      · exact ⟨tail, congrArg (a :: ·) hrest, htail⟩
    · exact ⟨tail, congrArg (a :: ·) hrest, htail⟩

/-- Blanks behind a text are trimmed away. -/
theorem dropTail_append_of_pos {α : Type} {p : α → Bool} {as : List α} (front : List α)
    (h : ∀ a ∈ as, p a = true) : dropTail p (front ++ as) = dropTail p front := by
  induction front with
  | nil =>
    induction as with
    | nil => rfl
    | cons a as ih =>
      have has : dropTail p as = [] := ih fun b hb => h b (List.mem_cons_of_mem _ hb)
      simp [dropTail, has, h a List.mem_cons_self]
  | cons a front ih =>
    rw [List.cons_append, dropTail, ih]
    rfl

theorem trimEnd_append_blank (front : List Char) (h : trimStart cs = []) :
    trimEnd (front ++ cs) = trimEnd front :=
  dropTail_append_of_pos front (trimStart_eq_nil_iff.1 h)

/-- Blanks are all that trimming takes off the end. -/
theorem exists_trimEnd (cs : List Char) : ∃ gap, cs = trimEnd cs ++ gap ∧ trimStart gap = [] := by
  induction cs with
  | nil => exact ⟨[], rfl, rfl⟩
  | cons c cs ih =>
    obtain ⟨gap, hcs, hgap⟩ := ih
    by_cases hblank : isBlank c = true ∧ trimEnd cs = []
    · refine ⟨c :: cs, ?_, ?_⟩
      · have hnil : trimEnd (c :: cs) = [] := by
          have hcs := hblank.2
          unfold trimEnd at hcs ⊢
          simp [dropTail, hcs, hblank.1]
        rw [hnil, List.nil_append]
      · rw [hblank.2, List.nil_append] at hcs
        rw [hcs]
        exact (List.dropWhile_cons_of_pos hblank.1).trans hgap
    · refine ⟨gap, ?_, hgap⟩
      have hkept : trimEnd (c :: cs) = c :: trimEnd cs := by
        unfold trimEnd at hblank ⊢
        rw [dropTail]
        cases hrest : dropTail isBlank cs with
        | nil =>
          have hc : isBlank c = false := by simpa [hrest] using hblank
          simp [hc]
        | cons d kept => rfl
      rw [hkept, List.cons_append, ← hcs]

theorem trim_trimStart (cs : List Char) : trim (trimStart cs) = trim cs :=
  congrArg trimEnd (trimStart_eq_self fun _ hc => not_isBlank_of_head?_trimStart hc)

theorem trim_append_blank (front : List Char) (h : trimStart cs = []) :
    trim (front ++ cs) = trim front := by
  unfold trim
  by_cases hfront : trimStart front = []
  · rw [trimStart_blank_append hfront, h, hfront]
  · rw [trimStart_append hfront, trimEnd_append_blank _ h]

theorem trim_trimEnd (cs : List Char) : trim (trimEnd cs) = trim cs := by
  obtain ⟨gap, hcs, hgap⟩ := exists_trimEnd cs
  calc trim (trimEnd cs) = trim (trimEnd cs ++ gap) := (trim_append_blank _ hgap).symm
    _ = trim cs := by rw [← hcs]

/-- A trimmed text has nothing more to trim. -/
theorem trim_trim (cs : List Char) : trim (trim cs) = trim cs :=
  (trim_trimEnd (trimStart cs)).trans (trim_trimStart cs)

theorem trim_blank_append (h : trimStart front = []) (cs : List Char) : trim (front ++ cs) = trim cs :=
  congrArg trimEnd (trimStart_blank_append h cs)

/-- Blanks are all that trimming takes off either end. -/
theorem exists_trim (cs : List Char) :
    ∃ front back, cs = front ++ (trim cs ++ back) ∧ (∀ c ∈ front, isBlank c = true) ∧
      ∀ c ∈ back, isBlank c = true := by
  obtain ⟨back, hback, hblank⟩ := exists_trimEnd (trimStart cs)
  refine ⟨cs.takeWhile isBlank, back, ?_, fun c hc => List.mem_takeWhile_imp hc,
    trimStart_eq_nil_iff.1 hblank⟩
  calc cs = cs.takeWhile isBlank ++ trimStart cs := (List.takeWhile_append_dropWhile ..).symm
    _ = _ := congrArg _ hback

/-- Something is left of a text that holds more than blanks. -/
theorem trim_ne_nil (hmem : c ∈ cs) (hc : isBlank c = false) : trim cs ≠ [] := by
  intro h
  have hblank := trimStart_eq_nil_iff.1 (trim_eq_nil_iff.1 h) c hmem
  rw [hc] at hblank
  cases hblank

end Walkthrough.Text
