import Walkthrough.Proofs.Text.Blank
import Walkthrough.Step.Shape
/-!
# The parts of a step

A rule reads a line by cutting it where it must be. What it takes for a path, for a
word in front of a gap and for a value between two gaps is told here by how the text
is put together (`path?_eq_some_iff`, `beforeGap?_eq_some_iff`,
`gaps_of_betweenGaps?`, `betweenGaps?_of_gaps`). Where a text can be cut at several
places, the last cut that fits counts (`findSome?_cuts_eq_some_iff`).
-/

namespace Walkthrough.Shape

open Text

variable {ending text front back word value path gap g g' : List Char}

/-! ## Gaps, words and paths -/

/-- A gap: a blank or more. -/
def Gap (cs : List Char) : Prop := cs ≠ [] ∧ ∀ c ∈ cs, isBlank c = true

instance (cs : List Char) : Decidable (Gap cs) :=
  have := List.decidableBAll (isBlank · = true) cs
  inferInstanceAs (Decidable (_ ∧ _))

/-- A word, as labels, values, captions and phrases are: something, with no blank
around it and no line feed in it. -/
structure IsWord (cs : List Char) : Prop where
  ne_nil : cs ≠ []
  trimmed : trim cs = cs
  unfed : '\n' ∉ cs

/-- A path: a slash and more, and no blank. -/
structure IsPath (cs : List Char) : Prop where
  slash : cs.head? = some '/'
  long : 2 ≤ cs.length
  solid : ∀ c ∈ cs, isBlank c = false

/-- What begins with a word begins with no blank. -/
theorem IsWord.head?_append (h : IsWord word) (back : List Char) :
    ∀ c ∈ (word ++ back).head?, isBlank c = false := by
  intro c hc
  rw [List.head?_append_of_ne_nil _ h.ne_nil] at hc
  exact (trim_eq_self_iff.1 h.trimmed).1 c hc

/-- What stands in front begins with no blank if the whole does not. -/
theorem head?_of_append (h : ∀ c ∈ (front ++ back).head?, isBlank c = false) :
    ∀ c ∈ front.head?, isBlank c = false := by
  intro c hc
  cases front with
  | nil => cases hc
  | cons d front => exact h c hc

/-- A path is a word. -/
theorem IsPath.isWord (h : IsPath path) : IsWord path where
  ne_nil := by
    rintro rfl
    cases h.slash
  trimmed := trim_eq_self_iff.2 ⟨fun c hc => h.solid c (List.mem_of_head? hc),
    fun c hc => h.solid c (List.mem_of_getLast? hc)⟩
  unfed hfeed := nomatch h.solid '\n' hfeed

theorem before?_eq_some_iff : before? ending text = some front ↔ front ++ ending = text :=
  List.isSuffixOf?_eq_some_iff_append_eq

/-- **A path stands** in front of its ending, with nothing but blanks between. -/
theorem path?_eq_some_iff : path? text = some path ↔
    ∃ gap, text = path ++ (gap ++ navigateEnding) ∧ (∀ c ∈ gap, isBlank c = true) ∧ IsPath path := by
  have hread : path? text = some path ↔
      ∃ front, front ++ navigateEnding = text ∧ trimEnd front = path ∧ IsPath path := by
    unfold path?
    simp only [bind, Option.bind_eq_some_iff, before?_eq_some_iff]
    refine exists_congr fun front => and_congr_right fun _ => ?_
    constructor
    · intro h
      split at h
      · next hpath =>
        cases h
        exact ⟨rfl, hpath.1, hpath.2.1, fun c hc => by simpa using List.all_eq_true.1 hpath.2.2 c hc⟩
      · cases h
    · rintro ⟨rfl, hpath⟩
      exact if_pos ⟨hpath.slash, hpath.long, List.all_eq_true.2 fun c hc => by simp [hpath.solid c hc]⟩
  rw [hread]
  constructor
  · rintro ⟨front, rfl, rfl, hpath⟩
    obtain ⟨gap, hfront, hgap⟩ := exists_trimEnd front
    refine ⟨gap, ?_, trimStart_eq_nil_iff.1 hgap, hpath⟩
    rw [← List.append_assoc, ← hfront]
  · rintro ⟨gap, rfl, hgap, hpath⟩
    refine ⟨path ++ gap, List.append_assoc .., ?_, hpath⟩
    rw [trimEnd_append_blank path (trimStart_eq_nil_iff.2 hgap)]
    exact dropTail_eq_self fun c hc => hpath.solid c (List.mem_of_getLast? hc)

/-! ## Blanks at the ends -/

theorem startsBlank_iff : startsBlank text = true ↔ ∃ c rest, text = c :: rest ∧ isBlank c = true := by
  unfold startsBlank
  rw [Option.any_eq_true]
  simp only [List.head?_eq_some_iff]
  exact ⟨fun ⟨c, ⟨rest, h⟩, hc⟩ => ⟨c, rest, h, hc⟩, fun ⟨c, rest, h, hc⟩ => ⟨c, ⟨rest, h⟩, hc⟩⟩

theorem endsBlank_iff :
    endsBlank text = true ↔ ∃ front c, text = front ++ [c] ∧ isBlank c = true := by
  unfold endsBlank
  rw [Option.any_eq_true]
  simp only [List.getLast?_eq_some_iff]
  exact ⟨fun ⟨c, ⟨front, h⟩, hc⟩ => ⟨front, c, h, hc⟩, fun ⟨front, c, h, hc⟩ => ⟨c, ⟨front, h⟩, hc⟩⟩

theorem startsBlank_gap (hgap : Gap gap) (back : List Char) : startsBlank (gap ++ back) = true := by
  cases gap with
  | nil => exact absurd rfl hgap.1
  | cons c gap => exact startsBlank_iff.2 ⟨c, gap ++ back, rfl, hgap.2 c List.mem_cons_self⟩

theorem endsBlank_gap (hgap : Gap gap) (front : List Char) : endsBlank (front ++ gap) = true := by
  obtain ⟨mid, c, rfl⟩ := List.eq_nil_or_concat' gap |>.resolve_left hgap.1
  exact endsBlank_iff.2 ⟨front ++ mid, c, by simp, hgap.2 c (by simp)⟩

/-- What begins with something trimmed begins with no blank, -/
theorem startsBlank_trimmed (hword : trim word = word) (hne : word ≠ []) (back : List Char) :
    startsBlank (word ++ back) = false := by
  cases word with
  | nil => exact absurd rfl hne
  | cons c word => exact (trim_eq_self_iff.1 hword).1 c rfl

/-- and what ends with it ends with none. -/
theorem endsBlank_trimmed (hword : trim word = word) (hne : word ≠ []) (front : List Char) :
    endsBlank (front ++ word) = false := by
  obtain ⟨mid, c, rfl⟩ := List.eq_nil_or_concat' word |>.resolve_left hne
  unfold endsBlank
  rw [← List.append_assoc, List.getLast?_concat]
  exact (trim_eq_self_iff.1 hword).2 c List.getLast?_concat

/-! ## In front of a gap -/

theorem endsBlank_of_beforeGap? (h : beforeGap? text = some word) : endsBlank text = true := by
  unfold beforeGap? at h
  dsimp only at h
  split at h
  · next hread => exact hread.1
  · cases h

/-- **A word stands in front of a gap,** if the text begins with no blank. -/
theorem beforeGap?_eq_some_iff (hstart : ∀ c ∈ text.head?, isBlank c = false) :
    beforeGap? text = some word ↔ ∃ gap, text = word ++ gap ∧ Gap gap ∧ IsWord word := by
  have hread : beforeGap? text = some word ↔
      trim text = word ∧ endsBlank text = true ∧ word ≠ [] ∧ '\n' ∉ word := by
    unfold beforeGap?
    dsimp only
    split
    · next h => exact ⟨fun hw => by cases hw; exact ⟨rfl, h⟩, fun ⟨hw, _⟩ => congrArg some hw⟩
    · next h => exact ⟨nofun, fun ⟨hw, hrest⟩ => by subst hw; exact absurd hrest h⟩
  rw [hread]
  constructor
  · rintro ⟨rfl, hend, hne, hfeed⟩
    obtain ⟨front, gap, htext, hfront, hgap⟩ := exists_trim text
    have hnil : front = [] := by
      cases front with
      | nil => rfl
      | cons c front =>
        have hc := hstart c (by rw [htext]; rfl)
        rw [hfront c List.mem_cons_self] at hc
        cases hc
    rw [hnil, List.nil_append] at htext
    refine ⟨gap, htext, ⟨?_, hgap⟩, hne, trim_trim text, hfeed⟩
    rintro rfl
    have hword := endsBlank_trimmed (trim_trim text) hne []
    rw [List.append_nil] at htext
    rw [List.nil_append, ← htext, hend] at hword
    cases hword
  · rintro ⟨gap, rfl, hgap, hword⟩
    refine ⟨?_, endsBlank_gap hgap word, hword.ne_nil, hword.unfed⟩
    rw [trim_append_blank word (trimStart_eq_nil_iff.2 hgap.2), hword.trimmed]

/-- Something that ends with a blank and is not blank holds a word in front of a gap. -/
theorem isSome_beforeGap? (hend : endsBlank text = true) {c : Char} (hmem : c ∈ text)
    (hc : isBlank c = false) (hfeed : '\n' ∉ text) : (beforeGap? text).isSome := by
  unfold beforeGap?
  rw [if_pos ⟨hend, trim_ne_nil hmem hc, fun h => hfeed (mem_of_mem_trim h)⟩]
  rfl

/-! ## Between two gaps -/

/-- Nothing stands between two gaps where there are three blanks, and one inside that
is no line feed. -/
theorem betweenGaps?_eq_nil_iff : betweenGaps? text = some [] ↔
    (∀ c ∈ text, isBlank c = true) ∧ ∃ c ∈ text.tail.dropLast, c ≠ '\n' := by
  have hinner : (text.tail.dropLast.any (· ≠ '\n')) = true ↔ ∃ c ∈ text.tail.dropLast, c ≠ '\n' := by
    simp
  unfold betweenGaps?
  rw [← trimStart_eq_nil_iff, ← trim_eq_nil_iff, ← hinner]
  split
  · split
    · next hnil => simp [hnil]
    · next word hne =>
      have hword : ¬(trim text = []) := hne
      constructor
      · intro h
        split at h
        · exact absurd (Option.some.inj h) hword
        · cases h
      · exact fun h => absurd h.1 hword
  · next hgaps =>
    refine ⟨nofun, fun ⟨hblank, hany⟩ => absurd ?_ hgaps⟩
    have hgap : Gap text := by
      refine ⟨?_, trimStart_eq_nil_iff.1 (trim_eq_nil_iff.1 hblank)⟩
      rintro rfl
      cases hany
    have hstart := startsBlank_gap hgap []
    rw [List.append_nil] at hstart
    exact ⟨hstart, endsBlank_gap hgap []⟩

/-- **What is read between two gaps** stands between two gaps. -/
theorem gaps_of_betweenGaps? (h : betweenGaps? text = some value) :
    ∃ g g', text = g ++ (value ++ g') ∧ Gap g ∧ Gap g' ∧ trim value = value := by
  by_cases hnil : value = []
  · subst hnil
    obtain ⟨hblank, c, hc, -⟩ := betweenGaps?_eq_nil_iff.1 h
    cases text with
    | nil => cases hc
    | cons d rest =>
      have hne : rest ≠ [] := by
        rintro rfl
        cases hc
      exact ⟨[d], rest, rfl, ⟨List.cons_ne_nil _ _, fun e he => hblank e (by simp_all)⟩,
        ⟨hne, fun e he => hblank e (List.mem_cons_of_mem _ he)⟩, rfl⟩
  · have hword : startsBlank text = true ∧ endsBlank text = true ∧ trim text = value := by
      unfold betweenGaps? at h
      split at h
      · next hgaps =>
        split at h
        · split at h
          · exact absurd (Option.some.inj h).symm hnil
          · cases h
        · split at h
          · cases h
            exact ⟨hgaps.1, hgaps.2, rfl⟩
          · cases h
      · cases h
    obtain ⟨hstart, hend, rfl⟩ := hword
    obtain ⟨front, back, htext, hfront, hback⟩ := exists_trim text
    refine ⟨front, back, htext, ⟨?_, hfront⟩, ⟨?_, hback⟩, trim_trim text⟩
    · rintro rfl
      rw [htext, List.nil_append, startsBlank_trimmed (trim_trim text) hnil] at hstart
      cases hstart
    · rintro rfl
      rw [htext, List.append_nil, endsBlank_trimmed (trim_trim text) hnil] at hend
      cases hend

/-- **A word between two gaps is read.** -/
theorem betweenGaps?_of_gaps (hg : Gap g) (hg' : Gap g') (hvalue : IsWord value) :
    betweenGaps? (g ++ (value ++ g')) = some value := by
  have htrim : trim (g ++ (value ++ g')) = value := by
    rw [trim_blank_append (trimStart_eq_nil_iff.2 hg.2),
      trim_append_blank value (trimStart_eq_nil_iff.2 hg'.2), hvalue.trimmed]
  have hends : endsBlank (g ++ (value ++ g')) = true := by
    rw [← List.append_assoc]
    exact endsBlank_gap hg' _
  unfold betweenGaps?
  rw [if_pos ⟨startsBlank_gap hg _, hends⟩, htrim]
  split
  · exact absurd rfl hvalue.ne_nil
  · exact if_pos hvalue.unfed

/-- Something with a blank at either end that is not blank holds a word between two
gaps. -/
theorem isSome_betweenGaps? (hstart : startsBlank text = true) (hend : endsBlank text = true)
    {c : Char} (hmem : c ∈ text) (hc : isBlank c = false) (hfeed : '\n' ∉ text) :
    (betweenGaps? text).isSome := by
  unfold betweenGaps?
  rw [if_pos ⟨hstart, hend⟩]
  split
  · next h => exact absurd h (trim_ne_nil hmem hc)
  · rw [if_pos fun h => hfeed (mem_of_mem_trim h)]
    rfl

/-! ## Cuts -/

section

variable {α β : Type} [DecidableEq α] {c : α} {cs : List α}

theorem mem_cuts_iff {front back : List α} :
    (front, back) ∈ cuts c cs ↔ cs = front ++ c :: back := by
  induction cs generalizing front with
  | nil => simp [cuts]
  | cons d cs ih =>
    rw [cuts, List.mem_append, List.mem_map]
    cases front with
    | nil => split <;> simp_all [eq_comm]
    | cons e front =>
      have hlast : (e :: front, back) ∉ (if d = c then [([], cs)] else []) := by
        split <;> simp
      rw [or_iff_left hlast, List.cons_append, List.cons.injEq, ← ih]
      constructor
      · rintro ⟨cut, hcut, heq⟩
        cases heq
        exact ⟨rfl, hcut⟩
      · rintro ⟨rfl, hcut⟩
        exact ⟨_, hcut, rfl⟩

/-- **The last cut that fits counts:** none that fits is further back. -/
theorem findSome?_cuts_eq_some_iff {f : List α × List α → Option β} {b : β} :
    (cuts c cs).findSome? f = some b ↔ ∃ front back, cs = front ++ c :: back ∧
      f (front, back) = some b ∧
      ∀ mid rest, back = mid ++ c :: rest → f (front ++ c :: mid, rest) = none := by
  induction cs generalizing f with
  | nil => simp [cuts]
  | cons d cs ih =>
    have hnone : (cuts c cs).findSome? (f ∘ fun cut => (d :: cut.1, cut.2)) = none ↔
        ∀ mid rest, cs = mid ++ c :: rest → f (d :: mid, rest) = none := by
      rw [List.findSome?_eq_none_iff, Prod.forall]
      simp only [mem_cuts_iff, Function.comp_def]
    rw [cuts, List.findSome?_append, List.findSome?_map, Option.or_eq_some_iff, hnone, ih]
    constructor
    · rintro (⟨front, back, rfl, hf, hlater⟩ | ⟨hlater, hf⟩)
      · exact ⟨d :: front, back, rfl, hf, hlater⟩
      · split at hf
        · next hd =>
          subst hd
          rw [List.findSome?_singleton] at hf
          exact ⟨[], cs, rfl, hf, hlater⟩
        · cases hf
    · rintro ⟨front, back, hcs, hf, hlater⟩
      cases front with
      | nil =>
        cases hcs
        refine .inr ⟨hlater, ?_⟩
        rw [if_pos rfl, List.findSome?_singleton, hf]
      | cons e front =>
        cases hcs
        exact .inl ⟨front, back, rfl, hf, hlater⟩

end

end Walkthrough.Shape
