import Walkthrough.Proofs.Path
import Walkthrough.Proofs.Text.Letter
import Walkthrough.Slug
/-!
# Slugs as names

A slug consists of letters, digits and dashes, so it can stand as one name in a
path, and it is short enough for one.
-/

namespace Walkthrough.Slug

open Walkthrough.Text

variable {c : Char} {name : String}

/-! ## The characters of a slug -/

/-- A character that can stand in a slug. -/
def isSlugChar (c : Char) : Bool := isKept c || c = '-'

theorem isSlugChar_of_mem_dashed {inRun : Bool} {cs : List Char} (h : c ∈ dashed inRun cs) :
    isSlugChar c = true := by
  -- whether a dash has just been written changes on the way
  induction cs generalizing inRun with
  | nil => cases h
  | cons d rest ih =>
    unfold dashed at h
    split at h
    · next hd =>
      rcases List.mem_cons.1 h with rfl | h
      · simp [isSlugChar, hd]
      · exact ih h
    · split at h
      · exact ih h
      · rcases List.mem_cons.1 h with rfl | h
        · decide
        · exact ih h

theorem mem_of_mem_cut {cs : List Char} {limit : Int} (h : c ∈ cut cs limit) : c ∈ cs := by
  unfold cut at h
  split at h
  · exact List.mem_of_mem_take h
  · exact List.mem_of_mem_take h

/-- **A slug consists of slug characters.** -/
theorem isSlugChar_of_mem_ofText {limit : Int} (h : c ∈ (ofText name limit).toList) :
    isSlugChar c = true := by
  unfold ofText at h
  rw [String.toList_ofList] at h
  have hwhole : c ∈ whole name.toList := mem_of_mem_cut h
  have hdrop := (dropTail_isPrefix _ _).subset hwhole
  exact isSlugChar_of_mem_dashed ((List.dropWhile_sublist _).subset hdrop)

theorem length_ofText (name : String) : (ofText name defaultLimit).toList.length ≤ 80 := by
  have hcut : cut (whole name.toList) defaultLimit = (whole name.toList).take 80 := rfl
  rw [ofText, String.toList_ofList, hcut]
  exact List.length_take_le 80 _

/-! ## A slug is a name -/

/-- A short text of slug characters that is not empty, as a name in a path. -/
structure IsShortName (part : String) : Prop where
  chars : ∀ c ∈ part.toList, isSlugChar c = true
  short : part.toList.length ≤ 80
  nonempty : part ≠ ""

theorem isShortName_nameOr {fallback : String} (h : IsShortName fallback) :
    IsShortName (nameOr name fallback) := by
  unfold nameOr
  dsimp only
  split
  · exact h
  · next hne => exact ⟨fun c => isSlugChar_of_mem_ofText, length_ofText name, hne⟩

/-- A slug character is neither a slash nor a dot nor zero, and takes at most
three bytes. -/
theorem of_isSlugChar (h : isSlugChar c = true) :
    c ≠ '/' ∧ c ≠ '.' ∧ c ≠ Char.ofNat 0 ∧ c.utf8Size ≤ 3 := by
  refine ⟨?_, ?_, ?_, ?_⟩
  · rintro rfl
    revert h
    decide
  · rintro rfl
    revert h
    decide
  · rintro rfl
    revert h
    decide
  · -- beyond the letters there are only those that fold into one
    have hval : c.toNat ≤ 0xFFFF := by
      simp only [isSlugChar, isKept, foldsToLetter, Bool.or_eq_true, decide_eq_true_eq] at h
      rcases h with (h | ((h | h) | h) | h) | rfl
      · have hletter := toNat_of_isAlphanum h
        omega
      · omega
      · omega
      · omega
      · omega
      · decide
    rcases Char.utf8Size_eq c with h | h | h | h
    · omega
    · omega
    · omega
    · have hbig : (0xFFFF : Nat) < c.val.toNat := Char.utf8Size_eq_four_iff.1 h
      have hc : c.toNat = c.val.toNat := rfl
      omega

theorem isName_of_isShortName {part : String} (h : IsShortName part) : Path.IsName part := by
  refine ⟨fun hs => (of_isSlugChar (h.chars _ hs)).1 rfl, ?_⟩
  have hdot : part ≠ "." := by
    rintro rfl
    exact (of_isSlugChar (h.chars '.' (by decide))).2.1 rfl
  simp [Path.isPart, h.nonempty, hdot]

/-- A text takes as many bytes as its characters take together. -/
theorem utf8ByteSize_le {n : Nat} {s : String} (h : ∀ c ∈ s.toList, c.utf8Size ≤ n) :
    s.utf8ByteSize ≤ n * s.toList.length := by
  obtain ⟨cs, rfl⟩ : ∃ cs, s = String.ofList cs := ⟨s.toList, (String.ofList_toList).symm⟩
  rw [String.toList_ofList] at *
  induction cs with
  | nil => simp
  | cons d rest ih =>
    have happ : String.ofList (d :: rest) = String.singleton d ++ String.ofList rest := by
      rw [← String.toList_inj]
      simp
    have hd := h d List.mem_cons_self
    have hrest := ih fun c hc => h c (List.mem_cons_of_mem _ hc)
    rw [happ, String.utf8ByteSize_append, String.utf8ByteSize_singleton, List.length_cons,
      Nat.mul_succ]
    omega

/-- **A slug is short enough for a name.** -/
theorem utf8ByteSize_of_isShortName {part : String} (h : IsShortName part) :
    part.utf8ByteSize ≤ 240 := by
  have hbytes := utf8ByteSize_le fun c hc => (of_isSlugChar (h.chars c hc)).2.2.2
  have hlen := h.short
  omega

end Walkthrough.Slug
