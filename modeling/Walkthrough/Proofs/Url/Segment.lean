import Walkthrough.Proofs.Text.Piece
import Walkthrough.Proofs.Url.Join
import Walkthrough.Url.Reference
/-!
# Paths without dot segments

Carrying out the segments of dots leaves none (`mem_resolveDots`), so a path that was
read against another has none (`undotted_pathAgainst`). It gets none when a slash is
put in front of it, which adds an empty segment, nor when the parameters come back to
its last segment, which come with a semicolon (`undotted_sitePath`).
-/

namespace Walkthrough.Url

open Text

variable {path parameters base s : List Char} {segments visited : List (List Char)}

/-- A segment that is none of dots. -/
def IsPlain (s : List Char) : Prop := s ≠ oneDot ∧ s ≠ twoDots

instance (s : List Char) : Decidable (IsPlain s) := inferInstanceAs (Decidable (_ ∧ _))

/-- **There is no segment of dots in the path.** -/
def Undotted (path : List Char) : Prop := ∀ s ∈ path.splitOn '/', IsPlain s

instance (path : List Char) : Decidable (Undotted path) := List.decidableBAll _ _

theorem isPlain_nil : IsPlain [] := by decide

/-! ## Carrying out the dots -/

/-- What is visited was there, and is none of dots. -/
theorem mem_walk (h : s ∈ walk visited segments) : s ∈ visited ∨ s ∈ segments ∧ IsPlain s := by
  induction segments generalizing visited with
  | nil => exact .inl h
  | cons next segments ih =>
    have hlater (h : s ∈ segments ∧ IsPlain s) : s ∈ next :: segments ∧ IsPlain s :=
      h.imp_left (List.mem_cons_of_mem _)
    unfold walk at h
    split at h
    · exact (ih h).imp List.mem_of_mem_tail hlater
    split at h
    · exact (ih h).imp_right hlater
    · next htwo hone =>
      rcases ih h with h | h
      · rcases List.mem_cons.1 h with rfl | h
        · exact .inr ⟨List.mem_cons_self, hone, htwo⟩
        · exact .inl h
      · exact .inr (hlater h)

/-- **Of the segments those are left that are none of dots,** and perhaps an empty one
at the end. -/
theorem mem_resolveDots (h : s ∈ resolveDots segments) : s = [] ∨ s ∈ segments ∧ IsPlain s := by
  have hwalk (h : s ∈ (walk [] segments).reverse) : s ∈ segments ∧ IsPlain s :=
    (mem_walk (List.mem_reverse.1 h)).resolve_left List.not_mem_nil
  unfold resolveDots at h
  dsimp only at h
  split at h
  · split at h
    · rcases List.mem_append.1 h with h | h
      · exact .inr (hwalk h)
      · exact .inl (List.mem_singleton.1 h)
    · exact .inr (hwalk h)
  · exact .inr (hwalk h)

/-! ## Paths -/

theorem undotted_intercalate (hslash : ∀ s ∈ segments, '/' ∉ s) (h : ∀ s ∈ segments, IsPlain s) :
    Undotted (['/'].intercalate segments) := by
  by_cases hnil : segments = []
  · subst hnil
    decide
  · unfold Undotted
    rwa [List.splitOn_intercalate '/' hslash hnil]

/-- The segments of a path from the root stand in its text. -/
theorem mem_segmentsAgainst (hpath : path.head? = some '/') (h : s ∈ segmentsAgainst base path) :
    '/' ∉ s ∧ s ⊆ path := by
  unfold segmentsAgainst at h
  rw [if_pos hpath] at h
  exact mem_splitOn h

/-- The path read against another one is not empty. -/
theorem pathAgainst_eq (base path : List Char) :
    pathAgainst base path = ['/'] ∨
      pathAgainst base path ≠ [] ∧
        pathAgainst base path = ['/'].intercalate (resolveDots (segmentsAgainst base path)) := by
  unfold pathAgainst
  split
  · exact .inl rfl
  · next hne => exact .inr ⟨hne, rfl⟩

/-- **A path from the root has no dot segment** once it has been read against
another. -/
theorem undotted_pathAgainst (hpath : path.head? = some '/') (base : List Char) :
    Undotted (pathAgainst base path) := by
  rcases pathAgainst_eq base path with h | ⟨-, h⟩
  · rw [h]
    decide
  · rw [h]
    refine undotted_intercalate (fun s hs => ?_) fun s hs => ?_
    · rcases mem_resolveDots hs with rfl | ⟨hs, -⟩
      · exact List.not_mem_nil
      · exact (mem_segmentsAgainst hpath hs).1
    · rcases mem_resolveDots hs with rfl | ⟨-, hplain⟩
      · exact isPlain_nil
      · exact hplain

/-- There is nothing in it that was not in the path, slashes aside. -/
theorem mem_pathAgainst (hpath : path.head? = some '/') {c : Char}
    (h : c ∈ pathAgainst base path) : c ∈ path := by
  have hslash : '/' ∈ path := List.mem_of_head? hpath
  rcases pathAgainst_eq base path with heq | ⟨-, heq⟩
  · rw [heq] at h
    rwa [List.mem_singleton.1 h]
  · rw [heq] at h
    rcases mem_intercalate h with h | ⟨s, hs, hc⟩
    · rwa [List.mem_singleton.1 h]
    · rcases mem_resolveDots hs with rfl | ⟨hs, -⟩
      · cases hc
      · exact (mem_segmentsAgainst hpath hs).2 hc

/-! ## A slash in front, parameters behind -/

/-- A slash in front adds an empty segment. -/
theorem undotted_rooted (h : Undotted path) : Undotted (rooted path) := by
  unfold rooted
  split
  · exact h
  · exact h
  · intro s hs
    rw [List.splitOn_cons_eq_if_modifyHead, if_pos (beq_self_eq_true _)] at hs
    rcases List.mem_cons.1 hs with rfl | hs
    · exact isPlain_nil
    · exact h s hs

/-- A segment with a semicolon is none of dots. -/
theorem isPlain_of_semicolon (h : ';' ∈ s) : IsPlain s := by
  refine ⟨?_, ?_⟩ <;> (rintro rfl; revert h; decide)

/-- Parameters go to the last segment. -/
theorem undotted_append_marked (h : Undotted path) (hslash : '/' ∉ parameters) :
    Undotted (path ++ marked ';' parameters) := by
  unfold marked
  split
  · rwa [List.append_nil]
  · have hmarked : '/' ∉ ';' :: parameters := by simp [hslash]
    obtain ⟨pieces, last, hpath, hboth⟩ := exists_splitOn_append hmarked path
    intro s hs
    rw [hboth] at hs
    rcases List.mem_append.1 hs with hs | hs
    · exact h s (by rw [hpath]; exact List.mem_append_left _ hs)
    · rw [List.mem_singleton.1 hs]
      exact isPlain_of_semicolon (by simp)

/-! ## The path of a page -/

/-- The path of the page that a path means on the site of another: it is read against
the other without its parameters, which then come back to it. -/
def sitePath (base path : List Char) : List Char :=
  rooted (pathAgainst base (cutParameters path).1 ++ marked ';' (cutParameters path).2)

/-- Parameters stand in the last segment, behind a semicolon. -/
theorem cutParameters_of_slash (h : '/' ∈ path) :
    ∃ front last, path = front ++ '/' :: last ∧ '/' ∉ last ∧
      cutParameters path = (front ++ '/' :: (cutAt ';' last).1, (cutAt ';' last).2) := by
  obtain ⟨front, last, rfl, hlast⟩ := exists_last_cut h
  have hfront : (front ++ '/' :: last).take ((front ++ '/' :: last).length - last.length) =
      front ++ ['/'] := by
    have hlength : (front ++ '/' :: last).length - last.length = (front ++ ['/']).length := by
      simp only [List.length_append, List.length_cons, List.length_nil]
      omega
    have hparts : front ++ '/' :: last = (front ++ ['/']) ++ last := by simp
    rw [hlength, hparts, List.take_left]
  refine ⟨front, last, rfl, hlast, ?_⟩
  unfold cutParameters
  dsimp only
  rw [takeWhile_reverse hlast, hfront, List.append_assoc]
  rfl

/-- A path from the root is one without its parameters too, and these hold no slash. -/
theorem cutParameters_spec (hpath : path.head? = some '/') :
    (cutParameters path).1.head? = some '/' ∧ (cutParameters path).1 ⊆ path ∧
      '/' ∉ (cutParameters path).2 ∧ (cutParameters path).2 ⊆ path := by
  obtain ⟨front, last, rfl, hlast, hcut⟩ := cutParameters_of_slash (List.mem_of_head? hpath)
  rw [hcut]
  refine ⟨?_, fun c hc => ?_, fun hslash => hlast (cutAt_snd_subset _ _ hslash), fun c hc => ?_⟩
  · cases front with
    | nil => rfl
    | cons d front => exact hpath
  · rcases List.mem_append.1 hc with hc | hc
    · exact List.mem_append_left _ hc
    · rcases List.mem_cons.1 hc with rfl | hc
      · exact List.mem_append_right _ List.mem_cons_self
      · exact List.mem_append_right _ (List.mem_cons_of_mem _ (mem_cutAt_fst hc).1)
  · exact List.mem_append_right _ (List.mem_cons_of_mem _ (cutAt_snd_subset _ _ hc))

/-- **There is no dot segment in the path of a page,** -/
theorem undotted_sitePath (hpath : path.head? = some '/') (base : List Char) :
    Undotted (sitePath base path) := by
  obtain ⟨hhead, -, hslash, -⟩ := cutParameters_spec hpath
  exact undotted_rooted (undotted_append_marked (undotted_pathAgainst hhead base) hslash)

/-- which starts with a slash, -/
theorem head?_sitePath (base path : List Char) : (sitePath base path).head? = some '/' := by
  have hne : pathAgainst base (cutParameters path).1 ≠ [] := by
    rcases pathAgainst_eq base (cutParameters path).1 with h | ⟨hne, -⟩
    · rw [h]
      decide
    · exact hne
  unfold sitePath rooted
  split
  · next hnil => exact absurd (List.append_eq_nil_iff.1 hnil).1 hne
  · next hslash => rw [hslash]; rfl
  · rfl

/-- and holds nothing that was not in the path, semicolons aside. -/
theorem mem_sitePath (hpath : path.head? = some '/') {c : Char} (h : c ∈ sitePath base path) :
    c ∈ path ∨ c = ';' := by
  obtain ⟨hhead, hsub, -, hparameters⟩ := cutParameters_spec hpath
  have hwhole (h : c ∈ pathAgainst base (cutParameters path).1 ++ marked ';' (cutParameters path).2) :
      c ∈ path ∨ c = ';' := by
    rcases List.mem_append.1 h with h | h
    · exact .inl (hsub (mem_pathAgainst hhead h))
    · exact (mem_marked h).symm.imp_left fun h => hparameters h
  unfold sitePath rooted at h
  split at h
  · cases h
  · exact hwhole h
  · rcases List.mem_cons.1 h with rfl | h
    · exact .inl (List.mem_of_head? hpath)
    · exact hwhole h

end Walkthrough.Url
