import Walkthrough.Proofs.FileTree
import Walkthrough.Proofs.FileTree.Alters
import Mathlib.Data.List.Nodup
/-!
# Proper trees

In a proper tree no place is entered twice, and every place is one that names
can lead to from a place that is always there. Trees made of paths and what
stands there are proper (`proper_ofList`), and files and directories that are
added keep a tree proper, since where a path leads is such a place
(`isPlace_of_find`). The names in a directory of a proper tree are those below
which something is held (`mem_namesIn`), each once, and each can be looked up
there (`find_child_eq`).
-/

namespace Walkthrough

namespace FileTree

variable {t t' : FileTree} {l base : Location} {path name : String} {ps : List String}
  {bytes : List UInt8}

/-- A place that names lead to from one that is always there. -/
inductive IsPlace : Location → Prop
  | top {l : Location} (h : Location.isTop l = true) : IsPlace l
  | named {l : Location} {name : String} (h : IsPlace l) (hname : Fits name) : IsPlace (l ++ [name])

/-- **Every entry stands for itself:** places are entered once, and they are
places which are not there anyway. -/
structure Proper (t : FileTree) : Prop where
  once : (t.entries.map (·.1)).Nodup
  place : ∀ e ∈ t.entries, IsPlace e.1 ∧ Location.isTop e.1 = false

/-- Below a name nothing is there anyway. -/
theorem isTop_concat (l : Location) (hslash : name ≠ "/") (hup : name ≠ "..") :
    Location.isTop (l ++ [name]) = false := by
  have hroot : l ++ [name] ≠ Location.root := by
    intro hl
    have hlast : (l ++ [name]).getLast? = Location.root.getLast? := by rw [hl]
    rw [List.getLast?_concat] at hlast
    exact hslash (Option.some.inj hlast)
  simp [Location.isTop, hroot, hup]

theorem Fits.isTop_concat (h : Fits name) (l : Location) : Location.isTop (l ++ [name]) = false :=
  FileTree.isTop_concat l (fun hslash => h.name.1 (by rw [hslash]; decide)) h.notUp

theorem IsPlace.names (h : ∀ p ∈ ps, Fits p) (hl : IsPlace l) : IsPlace (l ++ ps) := by
  induction ps generalizing l with
  | nil => simpa using hl
  | cons p rest ih =>
    have hrest := ih (fun q hq => h q (List.mem_cons_of_mem _ hq))
      (hl.named (h p List.mem_cons_self))
    simpa using hrest

/-- Names alone lead below the directory that a run works in. -/
theorem isPlace_names (h : ∀ p ∈ ps, Fits p) : IsPlace ps := by
  have hstart : IsPlace [] := .top (by decide)
  simpa using hstart.names h

/-- The way up stays among the places. -/
theorem IsPlace.above (h : IsPlace l) : IsPlace (Location.above l) := by
  cases h with
  | top h => exact .top (Location.isTop_above h)
  | @named k name h hname =>
    have htop := hname.isTop_concat k
    rw [Location.isTop, Bool.or_eq_false_iff, decide_eq_false_iff_not] at htop
    unfold Location.above
    rw [if_neg htop.1, htop.2, if_neg (by decide), List.dropLast_concat]
    exact h

/-- What ends a place that is not there anyway is a name. -/
theorem IsPlace.fits (h : IsPlace (l ++ [name])) (htop : Location.isTop (l ++ [name]) = false) :
    Fits name := by
  generalize hk : l ++ [name] = k at h htop
  cases h with
  | top h =>
    rw [h] at htop
    cases htop
  | @named above last _ hname =>
    have hlast : [name] = [last] := (List.append_inj' hk rfl).2
    rw [List.singleton_inj.1 hlast]
    exact hname

/-! ## Proper trees stay proper -/

theorem proper_empty : Proper {} := ⟨List.nodup_nil, by simp⟩

/-- **What is put in a place that was empty keeps a tree proper,** and so does
what replaces another thing. -/
theorem Proper.put (h : t.Proper) (hl : IsPlace l) (htop : Location.isTop l = false) (n : Node) :
    (t.put l n).Proper := by
  unfold FileTree.put
  split
  · -- the places are those of before
    have hplaces : ((t.entries.map fun e => if e.1 = l then (l, n) else e).map (·.1)) =
        t.entries.map (·.1) := by
      rw [List.map_map]
      refine List.map_congr_left fun e _ => ?_
      by_cases he : e.1 = l
      · simp [he]
      · simp [he]
    refine ⟨hplaces ▸ h.once, fun e he => ?_⟩
    obtain ⟨e', he', rfl⟩ := List.mem_map.1 he
    by_cases hsame : e'.1 = l
    · rw [if_pos hsame]
      exact ⟨hl, htop⟩
    · rw [if_neg hsame]
      exact h.place e' he'
  · next hnew =>
    constructor
    · rw [List.map_append, List.nodup_append]
      refine ⟨h.once, List.nodup_singleton _, ?_⟩
      intro k hk k' hk' heq
      obtain ⟨e, he, rfl⟩ := List.mem_map.1 hk
      rw [List.map_singleton, List.mem_singleton] at hk'
      exact hnew (List.any_eq_true.2 ⟨e, he, by simpa using heq.trans hk'⟩)
    · intro e he
      rcases List.mem_append.1 he with he | he
      · exact h.place e he
      · rw [List.mem_singleton.1 he]
        exact ⟨hl, htop⟩

/-- What a path leads to, read off the steps it takes. -/
theorem find_eq_ok_iff : t.find path = .ok l ↔
    Char.ofNat 0 ∉ path.toList ∧ path ≠ "" ∧ path.utf8ByteSize ≤ pathLimit ∧
      t.locate (if Path.root path = "" then [] else Location.root) (Path.parts path) = .ok l := by
  unfold find
  split
  · next h => simp [h]
  · next hzero =>
    split
    · next h => simp [h]
    · next hempty =>
      split
      · next h => simp [Nat.not_le.2 h]
      · next h => simp [hzero, hempty, Nat.not_lt.1 h]

/-- The parts of a path are names. -/
theorem isName_of_mem_parts (h : name ∈ Path.parts path) : Path.IsName name := by
  obtain ⟨hsplit, hpart⟩ := List.mem_filter.1 h
  obtain ⟨piece, hpiece, rfl⟩ := List.mem_map.1 hsplit
  refine ⟨?_, hpart⟩
  rw [String.toList_ofList]
  exact (Text.mem_splitOn hpiece).1

theorem subset_of_mem_parts (h : name ∈ Path.parts path) : name.toList ⊆ path.toList := by
  obtain ⟨piece, hpiece, rfl⟩ := List.mem_map.1 (List.mem_filter.1 h).1
  rw [String.toList_ofList]
  exact (Text.mem_splitOn hpiece).2

/-- Each step leads to a place: up, or to a name that is short enough. -/
theorem isPlace_of_locate {start : Location} (hstart : IsPlace start)
    (h : ∀ p ∈ ps, Path.IsName p ∧ Char.ofNat 0 ∉ p.toList) (hl : t.locate start ps = .ok l) :
    IsPlace l := by
  induction ps generalizing start with
  | nil =>
    cases hl
    exact hstart
  | cons p rest ih =>
    have hrest (q : String) (hq : q ∈ rest) := h q (List.mem_cons_of_mem _ hq)
    obtain ⟨hname, hzero⟩ := h p List.mem_cons_self
    unfold locate at hl
    split at hl
    · cases hl
    · cases hl
    · split at hl
      · exact ih hstart.above hrest hl
      · next hup =>
        split at hl
        · cases hl
        · next hlong => exact ih (hstart.named ⟨hname, hup, Nat.not_lt.1 hlong, hzero⟩) hrest hl

/-- **Where a path leads is a place.** -/
theorem isPlace_of_find (hl : t.find path = .ok l) : IsPlace l := by
  obtain ⟨hzero, -, -, hlocate⟩ := find_eq_ok_iff.1 hl
  refine isPlace_of_locate ?_ (fun p hp => ?_) hlocate
  · split
    · exact .top (by decide)
    · exact .top (by decide)
  · exact ⟨isName_of_mem_parts hp, fun hmem => hzero (subset_of_mem_parts hp hmem)⟩

/-- **A file that is written keeps a tree proper.** -/
theorem Proper.write (h : t.Proper) (hw : t.write path bytes = .ok t') : t'.Proper := by
  obtain ⟨l, hl, hne, rfl⟩ := write_eq_ok hw
  exact h.put (isPlace_of_find hl) (isTop_eq_false hne) _

theorem Proper.makeOne (h : t.Proper) (hm : t.makeOne path = .ok t') : t'.Proper := by
  unfold FileTree.makeOne at hm
  split at hm
  · cases hm
  · next l hl =>
    split at hm
    · cases hm
    · next hnone =>
      cases hm
      rw [Bool.not_eq_true, Option.isSome_eq_false_iff, Option.isNone_iff_eq_none] at hnone
      have hne : t.node? l ≠ some .directory := by simp [hnone]
      exact h.put (isPlace_of_find hl) (isTop_eq_false hne) _

/-- **So do directories that are made.** -/
theorem Proper.makeAll (h : t.Proper) (root : String) (ps : List String) :
    (FileTree.makeAll root t ps).2.Proper := by
  induction ps generalizing t with
  | nil => exact h
  | cons last above ih =>
    unfold FileTree.makeAll
    dsimp only
    split
    · next made hmade => exact h.makeOne hmade
    · have habove := ih h
      split
      · next t₁ hall =>
        rw [hall] at habove
        exact habove
      · next t₁ hall =>
        rw [hall] at habove
        split
        · next made hmade => exact habove.makeOne hmade
        · exact habove
    · exact h

theorem Proper.makeDirectories (h : t.Proper) (path : String) :
    (t.makeDirectories path).2.Proper := h.makeAll _ _

/-- Names and what stands there, with the directories above it. -/
theorem Proper.plant (h : t.Proper) (hp : ∀ p ∈ ps, Fits p) (hne : ps ≠ []) (n : Node) :
    (t.plant ps n).Proper := by
  have hput {t : FileTree} (h : t.Proper) {qs : List String} (hq : qs ≠ []) (hqs : qs ⊆ ps)
      (n : Node) : (t.put qs n).Proper := by
    have hfits (q : String) (hq : q ∈ qs) : Fits q := hp q (hqs hq)
    refine h.put (isPlace_names hfits) ?_ n
    rw [← List.dropLast_append_getLast hq]
    exact (hfits _ (List.getLast_mem hq)).isTop_concat _
  unfold FileTree.plant
  refine hput ?_ hne (List.Subset.refl ps) n
  refine List.foldlRecOn _ _ h fun t ht a ha => ?_
  split
  · exact ht
  · obtain ⟨k, hk, hak⟩ := List.mem_filterMap.1 ha
    split at hak
    · cases hak
    · next hpos =>
      cases hak
      refine hput ht ?_ (List.take_subset k ps) _
      simp [hpos, hne]

/-- **The tree of some paths is proper,** if these are put together from names. -/
theorem proper_ofList {contents : List (String × Node)}
    (h : ∀ c ∈ contents, Path.parts c.1 ≠ [] ∧ ∀ p ∈ Path.parts c.1, Fits p) :
    (ofList contents).Proper := by
  unfold ofList
  refine List.foldlRecOn _ _ proper_empty fun t ht c hc => ?_
  exact ht.plant (h c hc).2 (h c hc).1 c.2

/-! ## What a directory holds -/

/-- What is held where is what is entered there. -/
theorem isSome_node?_iff (htop : Location.isTop l = false) :
    (t.node? l).isSome = true ↔ l ∈ t.entries.map (·.1) := by
  unfold node?
  rw [htop, if_neg (by decide), Option.isSome_map, List.find?_isSome, List.mem_map]
  simp

/-- The name under which a place is held in a directory. -/
theorem nameIn_eq_some_iff :
    (if l.dropLast = base then l.getLast? else none) = some name ↔ l = base ++ [name] := by
  constructor
  · intro h
    split at h
    · next hbase =>
      obtain ⟨above, rfl⟩ := List.getLast?_eq_some_iff.1 h
      rw [List.dropLast_concat] at hbase
      rw [hbase]
    · cases h
  · rintro rfl
    rw [List.dropLast_concat, if_pos rfl, List.getLast?_concat]

/-- What is held below a place is held under a name that can be looked up. -/
theorem Proper.fits (h : t.Proper) (htop : Location.isTop (base ++ [name]) = false)
    (hsome : (t.node? (base ++ [name])).isSome = true) : Fits name := by
  obtain ⟨e, he, hplace⟩ := List.mem_map.1 ((isSome_node?_iff htop).1 hsome)
  have hp := (h.place e he).1
  rw [hplace] at hp
  exact hp.fits htop

/-- **The names in a directory** are those below which something is held. -/
theorem Proper.mem_namesIn (h : t.Proper) : name ∈ t.namesIn base ↔
    Location.isTop (base ++ [name]) = false ∧ (t.node? (base ++ [name])).isSome = true := by
  unfold namesIn
  rw [List.mem_filterMap]
  simp only [nameIn_eq_some_iff]
  constructor
  · rintro ⟨e, he, hplace⟩
    have htop := (h.place e he).2
    rw [hplace] at htop
    exact ⟨htop, (isSome_node?_iff htop).2 (List.mem_map.2 ⟨e, he, hplace⟩)⟩
  · rintro ⟨htop, hsome⟩
    obtain ⟨e, he, hplace⟩ := List.mem_map.1 ((isSome_node?_iff htop).1 hsome)
    exact ⟨e, he, hplace⟩

/-- **Each name stands in its directory once.** -/
theorem Proper.nodup_namesIn (h : t.Proper) (base : Location) : (t.namesIn base).Nodup := by
  have hnames : t.namesIn base =
      (t.entries.map (·.1)).filterMap fun l => if l.dropLast = base then l.getLast? else none := by
    rw [List.filterMap_map]
    rfl
  rw [hnames]
  refine h.once.filterMap fun l l' n hl hl' => ?_
  rw [Option.mem_def, nameIn_eq_some_iff] at hl hl'
  rw [hl, hl']

/-! ## A name in a directory -/

theorem locate_append {start : Location} (hl : t.locate start ps = .ok base) (qs : List String) :
    t.locate start (ps ++ qs) = t.locate base qs := by
  induction ps generalizing start with
  | nil =>
    cases hl
    rfl
  | cons p rest ih =>
    rw [List.cons_append, locate]
    rw [locate] at hl
    split at hl
    · cases hl
    · cases hl
    · split at hl
      · next hup =>
        rw [if_pos hup]
        exact ih hl
      · next hup =>
        rw [if_neg hup]
        split at hl
        · cases hl
        · next hlong =>
          rw [if_neg hlong]
          exact ih hl

/-- **A name can be looked up in a directory,** as long as the path is not too
long. -/
theorem find_child_eq (hl : t.find path = .ok base) (hdir : t.node? base = some .directory)
    (h : Fits name) (hsize : (Path.child path name).utf8ByteSize ≤ pathLimit) :
    t.find (Path.child path name) = .ok (base ++ [name]) := by
  obtain ⟨hzero, hne, -, hlocate⟩ := find_eq_ok_iff.1 hl
  have hparts := Path.parts_child path h.name
  refine find_eq_ok_iff.2 ⟨?_, ?_, hsize, ?_⟩
  · unfold Path.child
    split
    · exact h.noZero
    · split
      · simp [String.toList_append, hzero, h.noZero]
      · have hslash : Char.ofNat 0 ∉ "/".toList := by decide
        simp [String.toList_append, hzero, h.noZero]
  · intro hempty
    rw [hempty] at hparts
    exact List.cons_ne_nil _ _ (List.append_eq_nil_iff.1 hparts.symm).2
  · have hroot := Path.root_child hne h.name
    rw [hparts]
    simp only [hroot]
    rw [locate_append hlocate]
    unfold locate
    rw [hdir]
    dsimp only
    rw [if_neg h.notUp, if_neg (Nat.not_lt.2 h.short)]
    rfl

end FileTree

end Walkthrough
