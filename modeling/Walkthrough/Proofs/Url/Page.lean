import Walkthrough.Proofs.Url.Parts
import Walkthrough.Url.Page
/-!
# The page that a target means

A target is read against a base by splitting both, and what comes out is split
again when it shows nothing. The first two splittings decide nothing about the
third in general: a base without a host can lend its scheme to a path that
then reads as a host. Against the URL of a site they do (`page_splits`), for
what comes out has a scheme with a host and the authority of one of the two.
-/

namespace Walkthrough.Url

variable {base target : String} {text assumed : List Char} {p : Parts} {e : Error}

/-- The text can be split as a URL. -/
def Splits (url : String) : Prop := ∃ p, split url.toList = .ok p

/-- **The URL of a site:** it can be split, and names a host by `http` or
`https`. -/
def IsSite (url : String) : Prop :=
  ∃ p, split url.toList = .ok p ∧ p.scheme ∈ ["http".toList, "https".toList] ∧ p.authority ≠ []

/-- What can be split can be split whatever scheme is assumed. -/
theorem exists_splitWith (assumed : List Char) (h : split text = .ok p) :
    ∃ q, splitWith assumed text = .ok q ∧ q.authority = p.authority := by
  obtain ⟨rfl, hc⟩ := splitWith_eq_ok_iff.1 h
  refine ⟨Parts.cut assumed text, splitWith_eq_ok_iff.2 ⟨rfl, ?_⟩, cut_authority assumed text⟩
  rw [cut_authority, hc]

/-- A reference has the scheme and the authority of its text. -/
theorem exists_ofText (h : splitWith assumed text = .ok p) :
    ∃ r, Reference.ofText assumed text = .ok r ∧ r.parts.scheme = p.scheme ∧
      r.parts.authority = p.authority := by
  unfold Reference.ofText
  simp only [h, bind, Except.bind]
  split
  · exact ⟨_, rfl, rfl, rfl⟩
  · exact ⟨_, rfl, rfl, rfl⟩

theorem ofText_eq_error (h : split text = .error e) : Reference.ofText assumed text = .error e := by
  unfold Reference.ofText
  rw [splitWith_eq_error_iff_split.2 h]
  rfl

/-! ## Reading a target against a base -/

/-- What starts with a slash is no web address. -/
theorem isWebAddress_of_slash (h : text.head? = some '/') : isWebAddress text = false := by
  unfold isWebAddress
  split
  · cases h
    -- a slash is no `h`, and the rest does not matter
    have hslash : Char.toLower '/' = '/' := by decide
    simp [hslash]
  · rfl

/-- Where both have been read, reading one against the other gives something:
one of the two as it is, or the reference completed. -/
theorem resolve_cases {b r : Reference} {base : List Char}
    (hb : Reference.ofText [] base = .ok b) (hr : Reference.ofText b.parts.scheme text = .ok r) :
    resolve base text = .ok base ∨ resolve base text = .ok text ∨
      (resolve base text = .ok (r.completed b) ∧ r.parts.scheme = b.parts.scheme) := by
  unfold resolve
  split
  · exact .inr (.inl rfl)
  · split
    · exact .inl rfl
    · simp only [hb, hr, bind, Except.bind]
      split
      · exact .inr (.inl rfl)
      · next hs => exact .inr (.inr ⟨rfl, Decidable.not_not.1 fun h => hs (.inl h)⟩)

/-- Where base and target can be split, the target means a page. -/
theorem exists_page (hb : Splits base) (ht : Splits target) :
    ∃ url, page base target = .ok url := by
  obtain ⟨p, hp⟩ := hb
  obtain ⟨q, hq⟩ := ht
  obtain ⟨b, hb, -, -⟩ := exists_ofText hp
  obtain ⟨s, hs, -⟩ := exists_splitWith b.parts.scheme hq
  obtain ⟨r, hr, -, -⟩ := exists_ofText hs
  unfold page
  split
  · exact ⟨target, rfl⟩
  · rcases resolve_cases hb hr with h | h | ⟨h, -⟩
    · exact ⟨_, by rw [h]; rfl⟩
    · exact ⟨_, by rw [h]; rfl⟩
    · exact ⟨_, by rw [h]; rfl⟩

/-- A target that cannot be split means none, unless it is a web address. -/
theorem page_eq_error (hb : IsSite base) (hw : isWebAddress target.toList = false)
    (ht : split target.toList = .error e) : page base target = .error e := by
  obtain ⟨p, hp, -, hne⟩ := hb
  have hbase : base.toList ≠ [] := by
    intro h
    rw [h] at hp
    cases hp
    exact hne rfl
  have htarget : target.toList ≠ [] := by
    intro h
    rw [h] at ht
    cases ht
  obtain ⟨b, hb, -, -⟩ := exists_ofText hp
  unfold page resolve
  simp only [hw, hbase, htarget, hb, ofText_eq_error ht, bind, Except.bind, Except.map]
  rfl

/-! ## Splitting the page -/

/-- A reference completed against a base of the same scheme is put together
from that scheme and an authority, its own or that of the base. -/
theorem exists_completed {b r : Reference} (ha : isOneOf authoritySchemes r.parts.scheme = true) :
    ∃ p : Parts, r.completed b = p.join ∧ p.scheme = r.parts.scheme ∧
      (p.authority = r.parts.authority ∧ r.parts.authority ≠ [] ∨
        p.authority = b.parts.authority) := by
  unfold Reference.completed Reference.text
  simp only [ha, Bool.true_and, if_true]
  split
  · next h => exact ⟨_, rfl, rfl, .inl ⟨rfl, by simpa using h⟩⟩
  · split
    · exact ⟨_, rfl, rfl, .inr rfl⟩
    · exact ⟨_, rfl, rfl, .inr rfl⟩

/-- **The page of a site can be split.** -/
theorem page_splits (hb : IsSite base) (ht : Splits target) :
    ∃ url, page base target = .ok url ∧ Splits url := by
  obtain ⟨p, hp, hscheme, hne⟩ := hb
  obtain ⟨q, hq⟩ := ht
  obtain ⟨b, hb, hbs, hba⟩ := exists_ofText hp
  obtain ⟨s, hs, -⟩ := exists_splitWith b.parts.scheme hq
  obtain ⟨r, hr, -, hra⟩ := exists_ofText hs
  unfold page
  split
  · exact ⟨target, rfl, q, hq⟩
  · rcases resolve_cases hb hr with h | h | ⟨h, hrs⟩
    · exact ⟨base, by rw [h]; simp [Except.map], p, hp⟩
    · exact ⟨target, by rw [h]; simp [Except.map], q, hq⟩
    · refine ⟨_, by rw [h]; rfl, ?_⟩
      have hrp : r.parts.scheme = p.scheme := hrs.trans hbs
      have hweb : isScheme r.parts.scheme = true ∧
          isOneOf authoritySchemes r.parts.scheme = true := by
        rw [hrp]
        simp only [List.mem_cons, List.not_mem_nil, or_false] at hscheme
        rcases hscheme with h | h <;> rw [h] <;> decide
      -- completed with the scheme of the base: either authority will do
      obtain ⟨c, hc, hcs, hca⟩ := exists_completed (b := b) hweb.2
      have hauth : c.authority ≠ [] ∧ Placeable c.authority ∧
          checkAuthority c.authority = .ok () := by
        rcases hca with ⟨h, hrne⟩ | h
        · rw [h]
          exact ⟨hrne, hra ▸ authority_of_splitWith hs⟩
        · rw [h, hba]
          exact ⟨hne, authority_of_splitWith hp⟩
      unfold Splits
      rw [String.toList_ofList, hc]
      exact exists_split_join (hcs ▸ hweb.1) hauth.1 hauth.2.1 hauth.2.2

/-- Looking for another page to try fails where the page cannot be split, and
for no other reason. -/
theorem alternative?_eq_error_iff {url : String} :
    alternative? url = .error e ↔ split url.toList = .error e := by
  unfold alternative?
  cases hs : split url.toList with
  | error e' =>
    simp [bind, Except.bind]
  | ok p =>
    simp only [bind, Except.bind]
    split <;> simp [pure, Except.pure]

end Walkthrough.Url
