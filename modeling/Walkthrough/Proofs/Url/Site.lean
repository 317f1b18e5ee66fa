import Walkthrough.Proofs.Step.Grammar
import Walkthrough.Proofs.Url.Page
import Walkthrough.Proofs.Url.Segment
/-!
# Pages of a site

A target with one slash in front names neither a scheme nor an authority
(`cut_of_slash`). Read against the URL of a site it takes over both from there, and
its own path, query and fragment come behind them (`resolve_of_slash`). The path may
lose its first slash where two dots lead above the root, and gets it back when the
URL is put together. So a step to a page stays on the site (`page_on_site`).
-/

namespace Walkthrough.Url

variable {text assumed : List Char} {p b : Parts} {base raw target : String}

/-! ## Targets with one slash in front -/

/-- The text starts with a slash, and no second one follows. -/
def OneSlash (text : List Char) : Prop := text.head? = some '/' ∧ text.tail.head? ≠ some '/'

instance (text : List Char) : Decidable (OneSlash text) := inferInstanceAs (Decidable (_ ∧ _))

/-- Path, query and fragment of a text that is nothing else. -/
def Parts.local (scheme text : List Char) : Parts where
  scheme := scheme
  path := (cutAt '?' (cutAt '#' text).1).1
  query := (cutAt '?' (cutAt '#' text).1).2
  fragment := (cutAt '#' text).2

/-- **A target with one slash in front** has no scheme and no authority. -/
theorem cut_of_slash (h : OneSlash text) (hkept : ∀ c ∈ text, isKept c = true)
    (assumed : List Char) : Parts.cut assumed text = Parts.local assumed text := by
  obtain ⟨rest, rfl⟩ := List.head?_eq_some_iff.1 h.1
  have hclean : clean ('/' :: rest) = '/' :: rest := by
    show (('/' :: rest).dropWhile (·.toNat ≤ 0x20)).filter isKept = _
    rw [List.dropWhile_cons_of_neg (by decide), List.filter_eq_self.2 hkept]
  -- a slash begins no scheme
  have hword : isScheme (cutAt ':' ('/' :: rest)).1 = false := by
    unfold cutAt
    rw [List.takeWhile_cons_of_pos (by decide)]
    rfl
  have hscheme : cutScheme assumed ('/' :: rest) = (assumed, '/' :: rest) := by
    unfold cutScheme
    dsimp only
    rw [hword]
    simp
  have hauthority : cutAuthority ('/' :: rest) = ([], '/' :: rest) := by
    unfold cutAuthority
    split
    · next hslashes =>
      rw [hslashes] at h
      exact absurd rfl h.2
    · rfl
  unfold Parts.cut
  dsimp only
  rw [hclean, hscheme, hauthority]
  rfl

/-- Its path starts with that slash. -/
theorem head?_local (scheme : List Char) (h : text.head? = some '/') :
    (Parts.local scheme text).path.head? = some '/' := by
  obtain ⟨rest, rfl⟩ := List.head?_eq_some_iff.1 h
  rfl

/-- So it can be split. -/
theorem splitWith_of_slash (h : OneSlash text) (hkept : ∀ c ∈ text, isKept c = true)
    (assumed : List Char) : splitWith assumed text = .ok (Parts.local assumed text) := by
  rw [splitWith_eq, cut_of_slash h hkept]
  rfl

/-! ## Reading them against a site -/

/-- The schemes of the web have an authority, are read against a base and have
parameters in their paths. -/
theorem isOneOf_of_web {scheme : List Char} (h : scheme ∈ ["http".toList, "https".toList]) :
    isOneOf authoritySchemes scheme = true ∧ isOneOf relativeSchemes scheme = true ∧
      isOneOf parameterSchemes scheme = true := by
  simp only [List.mem_cons, List.not_mem_nil, or_false] at h
  rcases h with rfl | rfl <;> decide

theorem ofText_of_parameters (h : splitWith assumed text = .ok p)
    (hp : isOneOf parameterSchemes p.scheme = true) :
    Reference.ofText assumed text =
      .ok ⟨{ p with path := (cutParameters p.path).1 }, (cutParameters p.path).2⟩ := by
  unfold Reference.ofText
  simp only [h, hp, bind, Except.bind]
  rfl

/-- A reference with a path, and without an authority where there may be one, takes the
authority of the base. -/
theorem completed_of_path {r base : Reference} (hs : isOneOf authoritySchemes r.parts.scheme = true)
    (ha : r.parts.authority = []) (hp : r.parts.path ≠ []) :
    r.completed base = Reference.text
      ⟨{ r.parts with
          authority := base.parts.authority
          path := pathAgainst base.parts.path r.parts.path }, r.parameters⟩ := by
  unfold Reference.completed
  simp [hs, ha, hp]

/-- The parts of the page of a site that a text means, read against a path. -/
def Parts.onSite (site : Parts) (above text : List Char) : Parts :=
  { Parts.local site.scheme text with
    authority := site.authority
    path := sitePath above (Parts.local site.scheme text).path }

/-- Of the site there are the scheme and the authority; the rest comes from the text. -/
theorem onSite_parts (site : Parts) (above text scheme : List Char) :
    (site.onSite above text).scheme = site.scheme ∧
      (site.onSite above text).authority = site.authority ∧
      (site.onSite above text).path = sitePath above (Parts.local scheme text).path ∧
      (site.onSite above text).query = (Parts.local scheme text).query ∧
      (site.onSite above text).fragment = (Parts.local scheme text).fragment := by
  unfold Parts.onSite Parts.local
  exact ⟨rfl, rfl, rfl, rfl, rfl⟩

/-- **Read against a site** such a target is put together with its scheme and its
authority. -/
theorem resolve_of_slash {base : List Char} (hb : split base = .ok b)
    (hscheme : b.scheme ∈ ["http".toList, "https".toList]) (hhost : b.authority ≠ [])
    (h : OneSlash text) (hkept : ∀ c ∈ text, isKept c = true) :
    resolve base text = .ok (b.onSite (cutParameters b.path).1 text).join := by
  obtain ⟨hauthority, hrelative, hparameters⟩ := isOneOf_of_web hscheme
  have hbase : base ≠ [] := by
    rintro rfl
    cases hb
    exact hhost rfl
  have htext : text ≠ [] := by
    rintro rfl
    cases h.1
  have hpath : (cutParameters (Parts.local b.scheme text).path).1 ≠ [] := by
    intro hnil
    have hhead := (cutParameters_spec (head?_local b.scheme h.1)).1
    rw [hnil] at hhead
    cases hhead
  unfold resolve
  rw [if_neg hbase, if_neg htext]
  simp only [ofText_of_parameters hb hparameters,
    ofText_of_parameters (splitWith_of_slash h hkept b.scheme) hparameters, bind, Except.bind]
  have hsame : ¬((Parts.local b.scheme text).scheme ≠ b.scheme ∨
      (!isOneOf relativeSchemes (Parts.local b.scheme text).scheme) = true) := by
    simp [Parts.local, hrelative]
  rw [if_neg hsame, completed_of_path hauthority rfl hpath]
  exact congrArg Except.ok (join_rooted hhost)

/-- **What it is put together from is within its bounds.** -/
theorem settled_onSite (hb : b.Settled) (h : OneSlash text) (hkept : ∀ c ∈ text, isKept c = true)
    (above : List Char) : (b.onSite above text).Settled := by
  obtain ⟨hscheme, hauthority, hpath, hquery, hfragment⟩ := onSite_parts b above text b.scheme
  have hlocal : (Parts.local b.scheme text).Bounded := by
    rw [← cut_of_slash h hkept]
    exact bounded_cut b.scheme text
  have hchar : ∀ c ∈ sitePath above (Parts.local b.scheme text).path,
      c ≠ '#' ∧ c ≠ '?' ∧ isKept c = true := by
    intro c hc
    rcases mem_sitePath (head?_local b.scheme h.1) hc with hc | rfl
    · exact hlocal.path c hc
    · decide
  exact {
    path := by rw [hpath]; exact hchar
    query := by rw [hquery]; exact hlocal.query
    fragment := by rw [hfragment]; exact hlocal.fragment
    scheme := by rw [hscheme]; exact hb.scheme
    lower := by rw [hscheme]; exact hb.lower
    named := by rw [hauthority]; exact hb.named
    placeable := by rw [hauthority]; exact hb.placeable
    rooted := by rw [hpath]; exact rooted_eq_self_iff.2 (.inr (head?_sitePath _ _)) }

/-! ## Steps to a page -/

/-- Splitting drops nothing of what holds no blank. -/
theorem isKept_of_isBlank {c : Char} (h : Text.isBlank c = false) : isKept c = true := by
  unfold isKept
  rw [decide_eq_true_iff]
  refine ⟨?_, ?_, ?_⟩ <;> (rintro rfl; revert h; decide)

theorem isKept_target (ha : (Step.classify raw).action = .navigate target) :
    ∀ c ∈ target.toList, isKept c = true := by
  obtain ⟨-, -, -, hpath⟩ := Shape.path?_eq_some_iff.1 (Step.action_eq_navigate_iff.1 ha)
  exact fun c hc => isKept_of_isBlank (hpath.solid c hc)

/-- **A step to a page stays on the site.** Where its target starts with one slash, and
the base URL names a host by `http` or `https`, the page has the scheme and the
authority of the base and the query and the fragment of the target; and its path starts
with a slash and has no segment of dots, however many the target has. -/
theorem page_on_site (hb : split base.toList = .ok b)
    (hscheme : b.scheme ∈ ["http".toList, "https".toList]) (hhost : b.authority ≠ [])
    (ha : (Step.classify raw).action = .navigate target) (hone : OneSlash target.toList) :
    ∃ url t q, page base target = .ok url ∧ split target.toList = .ok t ∧
      split url.toList = .ok q ∧ q.scheme = b.scheme ∧ q.authority = b.authority ∧
      q.query = t.query ∧ q.fragment = t.fragment ∧ q.path.head? = some '/' ∧ Undotted q.path := by
  have hkept := isKept_target ha
  have hs : b.scheme ≠ [] := by
    intro hnil
    rw [hnil] at hscheme
    revert hscheme
    decide
  have hsettled := settled_onSite (settled_of_split hb hs hhost) hone hkept (cutParameters b.path).1
  obtain ⟨hqs, hqa, hqp, hqq, hqf⟩ := onSite_parts b (cutParameters b.path).1 target.toList []
  have hpage : page base target =
      .ok (String.ofList (b.onSite (cutParameters b.path).1 target.toList).join) := by
    unfold page
    rw [isWebAddress_of_slash hone.1, resolve_of_slash hb hscheme hhost hone hkept]
    rfl
  generalize b.onSite (cutParameters b.path).1 target.toList = q at *
  have hparts : split q.join = .ok q :=
    split_join hsettled (hqa ▸ (authority_of_splitWith hb).2)
  rw [← String.toList_ofList (l := q.join)] at hparts
  refine ⟨_, _, q, hpage, splitWith_of_slash hone hkept [], hparts, hqs, hqa, hqq, hqf, ?_, ?_⟩
  · rw [hqp]
    exact head?_sitePath _ _
  · rw [hqp]
    exact undotted_sitePath (head?_local [] hone.1) _

/-- A base URL with more to it than its site. -/
def shopFront : String := "HTTPS://user@Example.org:8443/shop;v=1/front?of=house#top"

/-- Its parts. -/
def shopFrontParts : Parts where
  scheme := "https".toList
  authority := "user@Example.org:8443".toList
  path := "/shop;v=1/front".toList
  query := "of=house".toList
  fragment := "top".toList

/-- Dots that lead above the root stay on the site, with parameters behind them or not,
and those of the query stay as they are. -/
theorem page_on_site_above :
    split shopFront.toList = .ok shopFrontParts ∧
      shopFrontParts.scheme ∈ ["http".toList, "https".toList] ∧ shopFrontParts.authority ≠ [] ∧
      (Step.classify "/../a/.//..;x?d=/../#e に移動").action = .navigate "/../a/.//..;x?d=/../#e" ∧
      OneSlash "/../a/.//..;x?d=/../#e".toList ∧
      ∃ url t q, page shopFront "/../a/.//..;x?d=/../#e" = .ok url ∧
        split "/../a/.//..;x?d=/../#e".toList = .ok t ∧
        split url.toList = .ok q ∧ q.scheme = "https".toList ∧
        q.authority = "user@Example.org:8443".toList ∧ q.query = t.query ∧
        q.fragment = t.fragment ∧ q.path.head? = some '/' ∧ Undotted q.path := by
  have hb : split shopFront.toList = .ok shopFrontParts := by rfl
  have hscheme : shopFrontParts.scheme ∈ ["http".toList, "https".toList] := by decide
  have hhost : shopFrontParts.authority ≠ [] := by decide
  have ha : (Step.classify "/../a/.//..;x?d=/../#e に移動").action =
      .navigate "/../a/.//..;x?d=/../#e" := by decide
  have hone : OneSlash "/../a/.//..;x?d=/../#e".toList := by decide
  exact ⟨hb, hscheme, hhost, ha, hone, page_on_site hb hscheme hhost ha hone⟩

end Walkthrough.Url
