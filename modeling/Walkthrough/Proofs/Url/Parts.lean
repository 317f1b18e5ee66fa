import Walkthrough.Proofs.Text.Letter
import Walkthrough.Url.Split
/-!
# Splitting what was put together

Splitting a text cuts it into parts, whatever it is (`Parts.cut`), and then
looks at the authority alone to see whether it will do (`splitWith_eq`). So a
URL put together from parts can be split if its authority is found again
(`authority_cut_join`), and that hangs on the scheme and the authority and on
nothing behind them: what follows an authority starts with a character that
ends it, whatever the path, the query and the fragment are.
-/

namespace Walkthrough.Url

variable {text assumed : List Char} {p : Parts}

/-! ## Cutting -/

/-- The parts of a text, before anything is checked. -/
def Parts.cut (assumed text : List Char) : Parts :=
  let s := cutScheme assumed (clean text)
  let a := cutAuthority s.2
  let f := cutAt '#' a.2
  let q := cutAt '?' f.1
  ⟨s.1, a.1, q.1, q.2, f.2⟩

/-- What is wrong with an authority, if anything. -/
def checkAuthority (authority : List Char) : Except Error Unit := do
  checkBrackets authority
  checkDelimiters authority

/-- **Splitting is cutting,** and a check of the authority. -/
theorem splitWith_eq (assumed text : List Char) :
    splitWith assumed text =
      (checkAuthority (Parts.cut assumed text).authority).map fun _ => Parts.cut assumed text := by
  have h : splitWith assumed text = (do
      checkBrackets (Parts.cut assumed text).authority
      checkDelimiters (Parts.cut assumed text).authority
      return Parts.cut assumed text) := rfl
  rw [h]
  unfold checkAuthority
  cases checkBrackets (Parts.cut assumed text).authority with
  | error e => rfl
  | ok _ => cases checkDelimiters (Parts.cut assumed text).authority <;> rfl

theorem splitWith_eq_ok_iff :
    splitWith assumed text = .ok p ↔
      p = Parts.cut assumed text ∧ checkAuthority p.authority = .ok () := by
  rw [splitWith_eq]
  constructor
  · intro h
    cases hc : checkAuthority (Parts.cut assumed text).authority with
    | error e => simp [hc, Except.map] at h
    | ok _ =>
      simp only [hc, Except.map, Except.ok.injEq] at h
      exact ⟨h.symm, h ▸ hc⟩
  · rintro ⟨rfl, h⟩
    rw [h]
    rfl

theorem splitWith_eq_error_iff {e : Error} :
    splitWith assumed text = .error e ↔
      checkAuthority (Parts.cut assumed text).authority = .error e := by
  rw [splitWith_eq]
  cases checkAuthority (Parts.cut assumed text).authority <;> simp [Except.map]

/-- Only the scheme hangs on the scheme that is assumed. -/
theorem cut_authority (assumed text : List Char) :
    (Parts.cut assumed text).authority = (Parts.cut [] text).authority := by
  unfold Parts.cut cutScheme
  dsimp only
  split <;> rfl

/-- So whether a text can be split does not hang on it. -/
theorem splitWith_eq_error_iff_split {e : Error} :
    splitWith assumed text = .error e ↔ split text = .error e := by
  rw [split, splitWith_eq_error_iff, splitWith_eq_error_iff, cut_authority]

/-! ## Finding the authority again -/

/-- A character that splitting keeps, wherever it stands. -/
def isKept (c : Char) : Bool := c ≠ '\t' ∧ c ≠ '\r' ∧ c ≠ '\n'

/-- **An authority that can be found again** where it is put in front of a
path: nothing in it ends it, and splitting drops nothing of it. -/
def Placeable (authority : List Char) : Prop :=
  ∀ c ∈ authority, endsAuthority c = false ∧ isKept c = true

/-- Of a cut text nothing is in the piece behind the cut that is not in it. -/
theorem cutAt_snd_subset (c : Char) (l : List Char) : (cutAt c l).2 ⊆ l := fun _ h =>
  (List.dropWhile_sublist _).subset (List.mem_of_mem_drop h)

theorem cutScheme_snd_subset (l : List Char) : (cutScheme assumed l).2 ⊆ l := by
  unfold cutScheme
  dsimp only
  split
  · exact cutAt_snd_subset ':' l
  · exact List.Subset.refl l

theorem mem_cutAuthority_fst {l : List Char} {c : Char} (h : c ∈ (cutAuthority l).1) :
    c ∈ l ∧ endsAuthority c = false := by
  unfold cutAuthority at h
  split at h
  · next rest =>
    have hends := List.all_eq_true.1 List.all_takeWhile c h
    have hmem : c ∈ rest := List.takeWhile_subset _ h
    exact ⟨by simp [hmem], by simpa using hends⟩
  · cases h

/-- Every authority that a text has can be found again. -/
theorem placeable_cut (assumed text : List Char) : Placeable (Parts.cut assumed text).authority := by
  intro c h
  have ⟨hmem, hends⟩ := mem_cutAuthority_fst h
  have hclean : c ∈ clean text := cutScheme_snd_subset _ hmem
  exact ⟨hends, (List.mem_filter.1 hclean).2⟩

/-- And one that splitting has let pass will do. -/
theorem authority_of_splitWith (h : splitWith assumed text = .ok p) :
    Placeable p.authority ∧ checkAuthority p.authority = .ok () := by
  obtain ⟨rfl, hc⟩ := splitWith_eq_ok_iff.1 h
  exact ⟨placeable_cut assumed text, hc⟩

theorem isKept_of_isSchemeChar {c : Char} (h : isSchemeChar c = true) : isKept c = true := by
  unfold isKept
  rw [decide_eq_true_iff]
  refine ⟨?_, ?_, ?_⟩ <;> (rintro rfl; revert h; decide)

/-- The text starts with a character that ends an authority, if with any. -/
def Ending (text : List Char) : Prop :=
  ∀ c, text.head? = some c → endsAuthority c = true ∧ isKept c = true

theorem Ending.append {l m : List Char} (hl : Ending l) (hm : Ending m) : Ending (l ++ m) := by
  intro c h
  cases l with
  | nil => exact hm c h
  | cons d ds => exact hl c h

theorem ending_rooted (path : List Char) : Ending (rooted path) := by
  intro c h
  unfold rooted at h
  split at h
  · cases h
  · cases h
    decide
  · cases h
    decide

theorem ending_marked {d : Char} (hd : endsAuthority d = true ∧ isKept d = true) (l : List Char) :
    Ending (marked d l) := by
  intro c h
  unfold marked at h
  split at h
  · cases h
  · cases h
    exact hd

/-- What stands behind the authority in a URL put together. -/
def Parts.behind (p : Parts) : List Char :=
  rooted p.path ++ marked '?' p.query ++ marked '#' p.fragment

/-- **Whatever it is, it ends the authority.** -/
theorem ending_behind (p : Parts) : Ending p.behind :=
  ((ending_rooted p.path).append (ending_marked (by decide) p.query)).append
    (ending_marked (by decide) p.fragment)

theorem join_eq (hs : p.scheme ≠ []) (ha : p.authority ≠ []) :
    p.join = p.scheme ++ ':' :: '/' :: '/' :: (p.authority ++ p.behind) := by
  unfold Parts.join Parts.behind
  simp [hs, ha]

/-- Splitting finds all that it keeps of a text that starts with a scheme. -/
theorem clean_append {word rest : List Char} (h : isScheme word = true) :
    clean (word ++ rest) = word ++ rest.filter isKept := by
  obtain ⟨hhead, hall⟩ := Bool.and_eq_true_iff.1 h
  have hword : word.filter isKept = word :=
    List.filter_eq_self.2 fun c hc => isKept_of_isSchemeChar (List.all_eq_true.1 hall c hc)
  have hdrop : (word ++ rest).dropWhile (·.toNat ≤ 0x20) = word ++ rest := by
    cases word with
    | nil => cases hhead
    | cons c cs =>
      -- a scheme starts with a letter, so no blank is dropped in front of it
      have hletter := Text.toNat_of_isAlpha (c := c) (by simpa using hhead)
      have hc : ¬c.toNat ≤ 0x20 := by omega
      rw [List.cons_append, List.dropWhile_cons_of_neg (by simpa using hc)]
  have hclean : clean (word ++ rest) = ((word ++ rest).dropWhile (·.toNat ≤ 0x20)).filter isKept :=
    rfl
  rw [hclean, hdrop, List.filter_append, hword]

/-- A scheme is found again in front of its colon. -/
theorem cutScheme_append {word rest : List Char} (h : isScheme word = true) :
    cutScheme assumed (word ++ ':' :: rest) = (word.map Char.toLower, rest) := by
  have hall := (Bool.and_eq_true_iff.1 h).2
  have hne : ∀ c ∈ word, decide (c ≠ ':') = true := by
    intro c hc
    have hs := List.all_eq_true.1 hall c hc
    rw [decide_eq_true_iff]
    rintro rfl
    revert hs
    decide
  have hcut : cutAt ':' (word ++ ':' :: rest) = (word, rest) := by
    unfold cutAt
    rw [List.takeWhile_append_of_pos hne, List.dropWhile_append_of_pos hne]
    simp
  unfold cutScheme
  rw [hcut]
  simp [h]

/-- An authority is found again in front of what ends it. -/
theorem cutAuthority_append {authority rest : List Char}
    (ha : ∀ c ∈ authority, endsAuthority c = false)
    (hr : ∀ c, rest.head? = some c → endsAuthority c = true) :
    cutAuthority ('/' :: '/' :: (authority ++ rest)) = (authority, rest) := by
  have ha : ∀ c ∈ authority, (!endsAuthority c) = true := fun c hc => by rw [ha c hc]; rfl
  show ((authority ++ rest).takeWhile (!endsAuthority ·),
    (authority ++ rest).dropWhile (!endsAuthority ·)) = _
  rw [List.takeWhile_append_of_pos ha, List.dropWhile_append_of_pos ha]
  cases rest with
  | nil => simp
  | cons c cs => simp [hr c rfl]

/-- Splitting drops nothing in front of the path of a URL put together. -/
theorem clean_join (hs : isScheme p.scheme = true) (hne : p.authority ≠ [])
    (ha : Placeable p.authority) :
    clean p.join = p.scheme ++ ':' :: '/' :: '/' :: (p.authority ++ p.behind.filter isKept) := by
  have hsne : p.scheme ≠ [] := by
    intro h
    rw [h] at hs
    cases hs
  have hkept : p.authority.filter isKept = p.authority :=
    List.filter_eq_self.2 fun c hc => (ha c hc).2
  rw [join_eq hsne hne, clean_append hs]
  simp [hkept, isKept]

/-- The character behind the authority is itself one that splitting keeps. -/
theorem endsAuthority_behind (p : Parts) :
    ∀ c, (p.behind.filter isKept).head? = some c → endsAuthority c = true := by
  intro c hc
  cases hb : p.behind with
  | nil => simp [hb] at hc
  | cons d ds =>
    obtain ⟨hends, hkeep⟩ := ending_behind p d (by rw [hb]; rfl)
    rw [hb, List.filter_cons_of_pos hkeep] at hc
    cases hc
    exact hends

/-- **The authority is found again** in a URL put together from a scheme, an
authority and whatever follows. -/
theorem authority_cut_join (hs : isScheme p.scheme = true) (hne : p.authority ≠ [])
    (ha : Placeable p.authority) : (Parts.cut assumed p.join).authority = p.authority := by
  have hcut : (Parts.cut assumed p.join).authority =
      (cutAuthority (cutScheme assumed (clean p.join)).2).1 := rfl
  rw [hcut, clean_join hs hne ha, cutScheme_append hs,
    cutAuthority_append (fun c hc => (ha c hc).1) (endsAuthority_behind p)]

/-- **A URL put together from parts can be split** if its authority will do. -/
theorem exists_split_join (hs : isScheme p.scheme = true) (hne : p.authority ≠ [])
    (ha : Placeable p.authority) (hc : checkAuthority p.authority = .ok ()) :
    ∃ q, split p.join = .ok q := by
  refine ⟨Parts.cut [] p.join, splitWith_eq_ok_iff.2 ⟨rfl, ?_⟩⟩
  rw [authority_cut_join hs hne ha, hc]

end Walkthrough.Url
