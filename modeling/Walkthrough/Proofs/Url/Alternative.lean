import Walkthrough.Proofs.Path
import Walkthrough.Proofs.Url.Join
import Walkthrough.Url.Page
/-!
# The page to try next

In place of a page that shows nothing another one is tried, whose path ends in
`.html`. Its URL is put together from the parts of the first one, which are within
their bounds whatever the path ends in, so it is split into the same parts but for
the path (`split_withExtension`). The name of that path then has an extension
(`hasExtension_withExtension`), so no page is tried in place of the second
(`alternative_changes_path`).
-/

namespace Walkthrough.Url

variable {path : List Char} {p : Parts} {url : String}

/-- The parts of the page to try next. -/
def Parts.withExtension (p : Parts) : Parts := { p with path := p.path ++ pageExtension }

/-! ## The path -/

/-- **A path that needs no ending** is empty, ends in a slash or names something with
an extension. -/
theorem lacksExtension_eq_false_iff :
    lacksExtension path = false ↔ path = [] ∨ path.getLast? = some '/' ∨
      Path.HasExtension (Path.name (String.ofList path)).toList := by
  have hextension := Path.extension_eq_empty_iff (String.ofList path)
  unfold lacksExtension
  by_cases hnil : path = []
  · simp [hnil]
  by_cases hslash : path.getLast? = some '/'
  · simp [hslash]
  by_cases hname : Path.HasExtension (Path.name (String.ofList path)).toList
  · simp [hname, mt hextension.1 (not_not_intro hname)]
  · simp [hnil, hslash, hname, hextension.2 hname]

/-- **With the ending it names something with an extension.** -/
theorem hasExtension_withExtension (hne : path ≠ []) (hslash : path.getLast? ≠ some '/') :
    Path.HasExtension (Path.name (String.ofList (path ++ pageExtension))).toList := by
  obtain ⟨front, c, rfl⟩ := List.eq_nil_or_concat path |>.resolve_left hne
  rw [List.concat_eq_append] at hslash ⊢
  have hc : c ≠ '/' := by
    rintro rfl
    exact hslash List.getLast?_concat
  -- the last character of the path stands in the name, so the dot does not come first there
  have hending : '/' ∉ c :: pageExtension := by
    rw [List.mem_cons, not_or]
    exact ⟨hc.symm, by decide⟩
  have hsuffix : (c :: pageExtension) <:+ (String.ofList (front ++ [c] ++ pageExtension)).toList := by
    rw [String.toList_ofList, List.append_assoc]
    exact List.suffix_append _ _
  obtain ⟨above, name, hparts, -, -, pre, hname⟩ :=
    Path.exists_last_part hsuffix hending (Nat.le_add_left 2 4)
  have hlast : Path.name (String.ofList (front ++ [c] ++ pageExtension)) = name := by
    unfold Path.name
    rw [hparts, List.getLast?_concat, Option.getD_some]
  have hdot : pre ++ c :: pageExtension = pre ++ [c] ++ '.' :: "html".toList := by
    rw [List.append_assoc]
    rfl
  rw [hlast, ← hname]
  exact ⟨pre ++ [c], "html".toList, hdot, by decide, by simp, by decide⟩

/-! ## The URL -/

/-- The parts stay within their bounds. -/
theorem Parts.Settled.withExtension (h : p.Settled) (hne : p.path ≠ []) :
    p.withExtension.Settled where
  path c hc := by
    have hending : pageExtension.all (fun c => c ≠ '#' ∧ c ≠ '?' ∧ isKept c = true) = true := by
      decide
    rcases List.mem_append.1 hc with hc | hc
    · exact h.path c hc
    · exact of_decide_eq_true (List.all_eq_true.1 hending c hc)
  query := h.query
  fragment := h.fragment
  scheme := h.scheme
  lower := h.lower
  named := h.named
  placeable := h.placeable
  rooted := by
    rcases rooted_eq_self_iff.1 h.rooted with hnil | hhead
    · exact absurd hnil hne
    · refine rooted_eq_self_iff.2 (.inr ?_)
      show (p.path ++ pageExtension).head? = some '/'
      rw [List.head?_append, hhead]
      rfl

theorem alternative?_of_split (h : split url.toList = .ok p) :
    alternative? url = .ok (if lacksExtension p.path then
      some (String.ofList p.withExtension.join) else none) := by
  unfold alternative?
  rw [h]
  simp only [bind, Except.bind]
  split <;> rfl

/-- The page to try next is split into its own parts. -/
theorem split_withExtension (hsplit : split url.toList = .ok p) (hs : p.scheme ≠ [])
    (ha : p.authority ≠ []) (hne : p.path ≠ []) :
    split p.withExtension.join = .ok p.withExtension :=
  split_join ((settled_of_split hsplit hs ha).withExtension hne) (authority_of_splitWith hsplit).2

/-- **The page to try next differs in its path alone,** and is the last one to try.
For a URL with a scheme and an authority there is one unless the path is empty, ends in
a slash or names something with an extension. -/
theorem alternative_changes_path (hsplit : split url.toList = .ok p) (hs : p.scheme ≠ [])
    (ha : p.authority ≠ []) :
    ∃ found, alternative? url = .ok found ∧
      (found = none ↔ p.path = [] ∨ p.path.getLast? = some '/' ∨
        Path.HasExtension (Path.name (String.ofList p.path)).toList) ∧
      ∀ next, found = some next →
        split next.toList = .ok { p with path := p.path ++ ".html".toList } ∧
          alternative? next = .ok none := by
  refine ⟨_, alternative?_of_split hsplit, ?_, fun next hnext => ?_⟩
  · rw [← lacksExtension_eq_false_iff]
    cases lacksExtension p.path <;> simp
  · obtain ⟨hlacks, hnext⟩ : lacksExtension p.path = true ∧
        String.ofList p.withExtension.join = next := by
      revert hnext
      cases lacksExtension p.path <;> simp
    have hneeds : ¬lacksExtension p.path = false := by simp [hlacks]
    rw [lacksExtension_eq_false_iff, not_or, not_or] at hneeds
    obtain ⟨hne, hslash, -⟩ := hneeds
    have hparts : split next.toList = .ok p.withExtension := by
      rw [← hnext, String.toList_ofList]
      exact split_withExtension hsplit hs ha hne
    have hending : lacksExtension p.withExtension.path = false :=
      lacksExtension_eq_false_iff.2 (.inr (.inr (hasExtension_withExtension hne hslash)))
    refine ⟨hparts, ?_⟩
    rw [alternative?_of_split hparts, hending]
    rfl

/-- A page with dots in every part of its URL. -/
def dotted : String := "HTTP://me.too@Example.org:80/a.b/.c.?q=/x.y#.html"

/-- Its parts. -/
def dottedParts : Parts where
  scheme := "http".toList
  authority := "me.too@Example.org:80".toList
  path := "/a.b/.c.".toList
  query := "q=/x.y".toList
  fragment := ".html".toList

/-- Dots in other parts make no extension, and neither do those at both ends of the
name. -/
theorem alternative_changes_path_dotted :
    split dotted.toList = .ok dottedParts ∧ dottedParts.scheme ≠ [] ∧ dottedParts.authority ≠ [] ∧
      alternative? dotted = .ok (some "http://me.too@Example.org:80/a.b/.c..html?q=/x.y#.html") ∧
      split "http://me.too@Example.org:80/a.b/.c..html?q=/x.y#.html".toList =
        .ok { dottedParts with path := dottedParts.path ++ ".html".toList } ∧
      alternative? "http://me.too@Example.org:80/a.b/.c..html?q=/x.y#.html" = .ok none := by
  have hsplit : split dotted.toList = .ok dottedParts := by rfl
  have hs : dottedParts.scheme ≠ [] := by decide
  have ha : dottedParts.authority ≠ [] := by decide
  obtain ⟨found, hfound, -, hnext⟩ := alternative_changes_path hsplit hs ha
  have hdotted : alternative? dotted =
      .ok (some "http://me.too@Example.org:80/a.b/.c..html?q=/x.y#.html") := by rfl
  rw [hdotted] at hfound
  cases hfound
  obtain ⟨hparts, hlast⟩ := hnext _ rfl
  exact ⟨hsplit, hs, ha, hdotted, hparts, hlast⟩

end Walkthrough.Url
