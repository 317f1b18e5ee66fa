import Walkthrough.Proofs.Url.Parts
/-!
# Parts put together are split again

A text with a scheme and an authority is cut at the first delimiter of each kind, so
parts that hold none of the delimiters they end at are what the URL put together from
them is cut into (`cut_join`). Such are the parts of every URL that was split
(`settled_of_split`), and to change one of them within these bounds changes no other.
-/

namespace Walkthrough.Url

variable {text assumed l : List Char} {p : Parts} {c d : Char}

/-! ## Parts within their bounds -/

/-- In no part behind the authority there is anything that ends it or that splitting
drops. -/
structure Parts.Bounded (p : Parts) : Prop where
  path : ∀ c ∈ p.path, c ≠ '#' ∧ c ≠ '?' ∧ isKept c = true
  query : ∀ c ∈ p.query, c ≠ '#' ∧ isKept c = true
  fragment : ∀ c ∈ p.fragment, isKept c = true

/-- **Parts as splitting gives them,** of a URL with a scheme and an authority. -/
structure Parts.Settled (p : Parts) : Prop extends p.Bounded where
  scheme : isScheme p.scheme = true
  lower : p.scheme.map Char.toLower = p.scheme
  named : p.authority ≠ []
  placeable : Placeable p.authority
  rooted : rooted p.path = p.path

/-- In front of a cut there is nothing to cut at. -/
theorem mem_cutAt_fst (h : d ∈ (cutAt c l).1) : d ∈ l ∧ d ≠ c :=
  ⟨List.takeWhile_subset _ h, by simpa using List.all_eq_true.1 List.all_takeWhile d h⟩

theorem cutAuthority_snd_subset (l : List Char) : (cutAuthority l).2 ⊆ l := by
  unfold cutAuthority
  split
  · exact fun _ h => List.mem_cons_of_mem _ (List.mem_cons_of_mem _ ((List.dropWhile_sublist _).subset h))
  · exact List.Subset.refl l

/-- What stands behind the authority of a text. -/
def behindAuthority (assumed text : List Char) : List Char :=
  (cutAuthority (cutScheme assumed (clean text)).2).2

theorem cut_path (assumed text : List Char) : (Parts.cut assumed text).path =
    (cutAt '?' (cutAt '#' (behindAuthority assumed text)).1).1 := rfl

/-- **Every text is cut within bounds.** -/
theorem bounded_cut (assumed text : List Char) : (Parts.cut assumed text).Bounded := by
  have hkept : ∀ c ∈ behindAuthority assumed text, isKept c = true := fun c hc =>
    (List.mem_filter.1 (cutScheme_snd_subset _ (cutAuthority_snd_subset _ hc))).2
  refine ⟨fun c hc => ?_, fun c hc => ?_, fun c hc => ?_⟩
  · obtain ⟨hfront, hquery⟩ := mem_cutAt_fst hc
    obtain ⟨hmem, hfragment⟩ := mem_cutAt_fst hfront
    exact ⟨hfragment, hquery, hkept c hmem⟩
  · obtain ⟨hmem, hfragment⟩ := mem_cutAt_fst (cutAt_snd_subset '?' _ hc)
    exact ⟨hfragment, hkept c hmem⟩
  · exact hkept c (cutAt_snd_subset '#' _ hc)

/-! ## Slashes in front -/

theorem rooted_eq_self_iff : rooted l = l ↔ l = [] ∨ l.head? = some '/' := by
  unfold rooted
  split
  · simp
  · simp
  · next hnil hslash =>
    constructor
    · intro h
      exact absurd (congrArg List.length h) (by simp)
    · rintro (rfl | hhead)
      · exact absurd rfl hnil
      · obtain ⟨rest, rfl⟩ := List.head?_eq_some_iff.1 hhead
        exact absurd rfl (hslash rest)

/-- A slash is put in front of a path once. -/
theorem rooted_rooted (l : List Char) : rooted (rooted l) = rooted l := by
  refine rooted_eq_self_iff.2 ?_
  unfold rooted
  split
  · exact .inl rfl
  · exact .inr rfl
  · exact .inr rfl

/-- It is put there whenever a URL with an authority is put together. -/
theorem join_rooted (h : p.authority ≠ []) : p.join = { p with path := rooted p.path }.join := by
  unfold Parts.join
  simp [h, rooted_rooted]

/-! ## Cutting what was put together -/

/-- A part is found again behind its delimiter, and what stands in front of it as
well. -/
theorem cutAt_append_marked (h : ∀ d ∈ l, d ≠ c) (part : List Char) :
    cutAt c (l ++ marked c part) = (l, part) := by
  have hl : ∀ d ∈ l, decide (d ≠ c) = true := fun d hd => decide_eq_true (h d hd)
  unfold cutAt marked
  rw [List.takeWhile_append_of_pos hl, List.dropWhile_append_of_pos hl]
  split
  · next hpart => simp [hpart]
  · simp

/-- There is nothing else in a part with its delimiter. -/
theorem mem_marked (h : d ∈ marked c l) : d = c ∨ d ∈ l := by
  unfold marked at h
  split at h
  · cases h
  · exact List.mem_cons.1 h

/-- Splitting drops nothing behind the authority of a URL put together. -/
theorem filter_behind (h : p.Settled) : p.behind.filter isKept = p.behind := by
  refine List.filter_eq_self.2 fun c hc => ?_
  unfold Parts.behind at hc
  rw [h.rooted] at hc
  rcases List.mem_append.1 hc with hc | hc
  · rcases List.mem_append.1 hc with hc | hc
    · exact (h.path c hc).2.2
    · rcases mem_marked hc with rfl | hc
      · decide
      · exact (h.query c hc).2
  · rcases mem_marked hc with rfl | hc
    · decide
    · exact h.fragment c hc

/-- The path and the query hold no hash, so the fragment is found again. -/
theorem cutAt_behind (h : p.Settled) :
    cutAt '#' p.behind = (p.path ++ marked '?' p.query, p.fragment) := by
  unfold Parts.behind
  rw [h.rooted]
  refine cutAt_append_marked (fun c hc => ?_) p.fragment
  rcases List.mem_append.1 hc with hc | hc
  · exact (h.path c hc).1
  · rcases mem_marked hc with rfl | hc
    · decide
    · exact (h.query c hc).1

/-- **Parts within their bounds are found again.** -/
theorem cut_join (h : p.Settled) : Parts.cut assumed p.join = p := by
  have hends : ∀ c, p.behind.head? = some c → endsAuthority c = true := fun c hc =>
    (ending_behind p c hc).1
  have hbehind : cutAuthority (cutScheme assumed (clean p.join)).2 = (p.authority, p.behind) := by
    rw [clean_join h.scheme h.named h.placeable, filter_behind h, cutScheme_append h.scheme,
      cutAuthority_append (fun c hc => (h.placeable c hc).1) hends]
  have hscheme : (cutScheme assumed (clean p.join)).1 = p.scheme := by
    rw [clean_join h.scheme h.named h.placeable, cutScheme_append h.scheme, h.lower]
  have hpath : cutAt '?' (p.path ++ marked '?' p.query) = (p.path, p.query) :=
    cutAt_append_marked (fun c hc => (h.path c hc).2.1) _
  unfold Parts.cut
  dsimp only
  rw [hbehind, hscheme, cutAt_behind h, hpath]

/-- **So they are what the URL is split into,** if the authority will do. -/
theorem split_join (h : p.Settled) (hc : checkAuthority p.authority = .ok ()) :
    split p.join = .ok p :=
  splitWith_eq_ok_iff.2 ⟨(cut_join h).symm, hc⟩

/-! ## Parts of a URL that was split -/

/-- A character of a scheme is one in lower case too, and stays as it is there. -/
theorem toLower_of_isSchemeChar (h : isSchemeChar c = true) :
    isSchemeChar c.toLower = true ∧ c.toLower.toLower = c.toLower ∧
      (c.isAlpha = true → c.toLower.isAlpha = true) := by
  have hascii : ∀ n < 123, isSchemeChar (Char.ofNat n) = true →
      isSchemeChar (Char.ofNat n).toLower = true ∧
        (Char.ofNat n).toLower.toLower = (Char.ofNat n).toLower ∧
        ((Char.ofNat n).isAlpha = true → (Char.ofNat n).toLower.isAlpha = true) := by decide
  have hc : c.toNat < 123 := by
    simp only [isSchemeChar, Bool.or_eq_true, decide_eq_true_eq] at h
    rcases h with ((h | rfl) | rfl) | rfl
    · exact Nat.lt_succ_of_le (Text.toNat_of_isAlphanum h)
    all_goals decide
  have hall := hascii c.toNat hc
  rw [Char.ofNat_toNat] at hall
  exact hall h

/-- The scheme of a text is a scheme in lower case, unless it is the one assumed. -/
theorem cutScheme_lower (h : (cutScheme assumed text).1 ≠ assumed) :
    isScheme (cutScheme assumed text).1 = true ∧
      (cutScheme assumed text).1.map Char.toLower = (cutScheme assumed text).1 := by
  unfold cutScheme at h ⊢
  dsimp only at h ⊢
  split
  · next hword =>
    obtain ⟨hhead, hall⟩ := Bool.and_eq_true_iff.1 hword.2
    have hchar : ∀ c ∈ (cutAt ':' text).1, isSchemeChar c = true := List.all_eq_true.1 hall
    refine ⟨Bool.and_eq_true_iff.2 ⟨?_, List.all_eq_true.2 fun c hc => ?_⟩, ?_⟩
    · obtain ⟨c, hc, halpha⟩ := (Option.any_eq_true _ _).1 hhead
      rw [List.head?_map, hc]
      exact (toLower_of_isSchemeChar (hchar c (List.mem_of_head? hc))).2.2 halpha
    · obtain ⟨d, hd, rfl⟩ := List.mem_map.1 hc
      exact (toLower_of_isSchemeChar (hchar d hd)).1
    · rw [List.map_map]
      exact List.map_congr_left fun c hc => (toLower_of_isSchemeChar (hchar c hc)).2.1
  · next hword =>
    rw [if_neg hword] at h
    exact absurd rfl h

/-- What stands behind an authority begins with what ends it. -/
theorem cutAuthority_snd (h : (cutAuthority l).1 ≠ []) :
    ∀ c, (cutAuthority l).2.head? = some c → endsAuthority c = true := by
  unfold cutAuthority at h
  split at h
  · next rest =>
    intro c hc
    have hc : (rest.dropWhile (!endsAuthority ·)).head? = some c := hc
    have hhead := List.head?_dropWhile_not (!endsAuthority ·) rest
    rw [hc] at hhead
    simpa using hhead
  · exact absurd rfl h

/-- Behind an authority there is a slash, or no path. -/
theorem rooted_cut (h : (Parts.cut assumed text).authority ≠ []) :
    rooted (Parts.cut assumed text).path = (Parts.cut assumed text).path := by
  have hends := cutAuthority_snd h
  rw [cut_path]
  unfold behindAuthority
  cases hbehind : (cutAuthority (cutScheme assumed (clean text)).2).2 with
  | nil => rfl
  | cons c rest =>
    have hc := hends c (by rw [hbehind]; rfl)
    simp only [endsAuthority, Bool.or_eq_true, decide_eq_true_eq] at hc
    rcases hc with (rfl | rfl) | rfl <;> rfl

/-- **The parts of a URL are within their bounds** if it has a scheme and an
authority. -/
theorem settled_of_split (h : split text = .ok p) (hs : p.scheme ≠ []) (ha : p.authority ≠ []) :
    p.Settled := by
  obtain ⟨rfl, -⟩ := splitWith_eq_ok_iff.1 h
  obtain ⟨hscheme, hlower⟩ := cutScheme_lower hs
  exact { bounded_cut [] text with
    scheme := hscheme, lower := hlower, named := ha, placeable := placeable_cut [] text,
    rooted := rooted_cut ha }

end Walkthrough.Url
