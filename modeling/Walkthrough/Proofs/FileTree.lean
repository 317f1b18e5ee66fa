import Walkthrough.FileTree
import Walkthrough.Proofs.Path
/-!
# Paths that lead somewhere

A path put together from short names leads to the place that these names are,
as long as everything on the way there is a directory (`find_join`). There a
directory that exists can be made again without any change, and a file can be
written unless a directory is in the way.
-/

namespace Walkthrough.FileTree

variable {t : FileTree} {ps : List String}

/-- A name that can be looked up. -/
structure Fits (part : String) : Prop where
  name : Path.IsName part
  notUp : part ≠ ".."
  short : part.utf8ByteSize ≤ nameLimit
  noZero : Char.ofNat 0 ∉ part.toList

instance (part : String) : Decidable (Fits part) :=
  decidable_of_iff (('/' ∉ part.toList ∧ Path.isPart part = true) ∧ part ≠ ".." ∧
      part.utf8ByteSize ≤ nameLimit ∧ Char.ofNat 0 ∉ part.toList)
    ⟨fun ⟨name, notUp, short, noZero⟩ => ⟨name, notUp, short, noZero⟩,
      fun h => ⟨h.name, h.notUp, h.short, h.noZero⟩⟩

/-- Everything on the way to a place is a directory. -/
def Reaches (t : FileTree) (ps : List String) : Prop :=
  ∀ k < ps.length, t.node? (ps.take k) = some .directory

/-- Names are followed one by one, through directories. -/
theorem locate_names (start : Location) (h : ∀ p ∈ ps, Fits p)
    (hd : ∀ k < ps.length, t.node? (start ++ ps.take k) = some .directory) :
    t.locate start ps = .ok (start ++ ps) := by
  -- on the names that are left, with the place that has been reached
  induction ps generalizing start with
  | nil => simp [locate]
  | cons p rest ih =>
    have hp := h p List.mem_cons_self
    have hstart : t.node? start = some .directory := by
      have := hd 0 (by simp)
      simpa using this
    unfold locate
    rw [hstart]
    dsimp only
    rw [if_neg hp.notUp, if_neg (by have := hp.short; omega)]
    rw [ih _ (fun q hq => h q (List.mem_cons_of_mem _ hq)) fun k hk => ?_]
    · simp
    · have := hd (k + 1) (by simpa using hk)
      simpa using this

theorem zero_notMem_join (h : ∀ p ∈ ps, Fits p) : Char.ofNat 0 ∉ (Path.join ps).toList := by
  unfold Path.join
  induction ps with
  | nil => simp
  | cons p rest ih =>
    have hp := (h p List.mem_cons_self).noZero
    have hrest := ih fun q hq => h q (List.mem_cons_of_mem _ hq)
    by_cases hne : rest = []
    · subst hne
      simpa using hp
    · rw [String.intercalate_cons_of_ne_nil hne, String.toList_append, String.toList_append]
      simp only [List.mem_append, not_or]
      exact ⟨⟨hp, by decide⟩, hrest⟩

theorem utf8ByteSize_join_le (h : ∀ p ∈ ps, Fits p) :
    (Path.join ps).utf8ByteSize ≤ 256 * ps.length := by
  unfold Path.join
  induction ps with
  | nil => simp
  | cons p rest ih =>
    have hp : p.utf8ByteSize ≤ 255 := (h p List.mem_cons_self).short
    have hrest := ih fun q hq => h q (List.mem_cons_of_mem _ hq)
    by_cases hne : rest = []
    · subst hne
      simp
      omega
    · have hslash : "/".utf8ByteSize = 1 := by decide
      rw [String.intercalate_cons_of_ne_nil hne, String.utf8ByteSize_append,
        String.utf8ByteSize_append, hslash, List.length_cons, Nat.mul_succ]
      omega

/-- **A path put together from short names leads to the place they are.** -/
theorem find_join (h : ∀ p ∈ ps, Fits p) (hne : ps ≠ []) (hlen : ps.length ≤ 15)
    (hd : t.Reaches ps) : t.find (Path.join ps) = .ok ps := by
  have hnames : ∀ p ∈ ps, Path.IsName p := fun p hp => (h p hp).name
  have hempty : Path.join ps ≠ "" := by
    intro hj
    have := Path.parts_join hnames hne
    rw [hj] at this
    exact hne this.symm
  -- fifteen names with their slashes stay below the limit of a path
  have hsize := utf8ByteSize_join_le h
  have hlimit : ¬pathLimit < (Path.join ps).utf8ByteSize := by
    unfold pathLimit
    omega
  unfold find
  rw [if_neg (zero_notMem_join h), if_neg hempty, if_neg hlimit, if_pos (Path.root_join hnames hne),
    Path.parts_join hnames hne]
  exact locate_names [] h hd

/-- A directory that is there need not be made. -/
theorem makeDirectories_of_directory (h : ∀ p ∈ ps, Fits p) (hne : ps ≠ [])
    (hlen : ps.length ≤ 15) (hd : t.Reaches ps) (hdir : t.node? ps = some .directory) :
    t.makeDirectories (Path.join ps) = (.ok (), t) := by
  have hnames : ∀ p ∈ ps, Path.IsName p := fun p hp => (h p hp).name
  have hfind := find_join h hne hlen hd
  have hone : t.makeOne (Path.join ps) = .error .taken := by
    unfold makeOne
    rw [hfind]
    simp [hdir]
  have hhas : t.hasDirectory (Path.join ps) = true := by
    unfold hasDirectory
    rw [hfind]
    simp [hdir]
  unfold makeDirectories
  rw [Path.root_join hnames hne, Path.parts_join hnames hne]
  cases hr : ps.reverse with
  | nil => exact absurd (List.reverse_eq_nil_iff.1 hr) hne
  | cons last above =>
    -- the whole path is tried before any part of it
    have hpath : "" ++ Path.join (last :: above).reverse = Path.join ps := by
      rw [← hr, List.reverse_reverse]
      simp
    unfold makeAll
    simp only [hpath, hone, hhas, if_true]

/-- A file can be written where no directory is. -/
theorem write_join (h : ∀ p ∈ ps, Fits p) (hne : ps ≠ []) (hlen : ps.length ≤ 15)
    (hd : t.Reaches ps) (hdir : t.node? ps ≠ some .directory) (bytes : List UInt8) :
    t.write (Path.join ps) bytes = .ok (t.put ps (.file bytes)) := by
  unfold write
  rw [find_join h hne hlen hd]
  dsimp only
  split
  · next heq => exact absurd heq hdir
  · rfl

end Walkthrough.FileTree
