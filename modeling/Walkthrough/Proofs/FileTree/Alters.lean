import Walkthrough.Proofs.Path
import Walkthrough.FileTree
/-!
# What becomes of files

Making directories and writing files alter a tree in two ways only: a directory
can appear where nothing was, and some places can hold a file, or another one,
afterwards. `Alters S` says that the latter are among `S`. So whatever path led
somewhere leads there afterwards, and a file that is not among `S` can be read
as before (`Alters.read`). Which places a path can lead to is known by the
names at its end (`isSuffix_of_find`).
-/

namespace Walkthrough.FileTree

variable {S R : Location → Prop} {t t' t'' : FileTree} {l m : Location} {path : String}
  {bytes : List UInt8} {names : List String}

/-- **Nothing is altered but what may be:** each place holds what it held, or a
directory where nothing was, or it is one of some places and holds a file. -/
def Alters (S : Location → Prop) (t t' : FileTree) : Prop :=
  ∀ l, t'.node? l = t.node? l ∨ (t.node? l = none ∧ t'.node? l = some .directory) ∨
    (S l ∧ t.node? l ≠ some .directory ∧ ∃ bytes, t'.node? l = some (.file bytes))

namespace Alters

theorem refl (S : Location → Prop) (t : FileTree) : Alters S t t := fun _ => .inl rfl

theorem mono (h : Alters S t t') (hS : ∀ l, S l → R l) : Alters R t t' := by
  intro l
  rcases h l with h | h | ⟨hl, h⟩
  · exact .inl h
  · exact .inr (.inl h)
  · exact .inr (.inr ⟨hS l hl, h⟩)

theorem trans (h₁ : Alters S t t') (h₂ : Alters S t' t'') : Alters S t t'' := by
  intro l
  rcases h₂ l with h₂ | ⟨hnone, hdir⟩ | ⟨hl, hne, hfile⟩
  · rw [h₂]
    exact h₁ l
  · -- a directory has appeared where nothing was: nothing was there before either
    rcases h₁ l with h₁ | ⟨-, h₁⟩ | ⟨-, -, _, h₁⟩
    · exact .inr (.inl ⟨h₁.symm.trans hnone, hdir⟩)
    · rw [h₁] at hnone
      cases hnone
    · rw [h₁] at hnone
      cases hnone
  · refine .inr (.inr ⟨hl, ?_, hfile⟩)
    rcases h₁ l with h₁ | ⟨h₁, -⟩ | ⟨-, h₁, -⟩
    · rwa [h₁] at hne
    · simp [h₁]
    · exact h₁

/-- Directories stay. -/
theorem directory (h : Alters S t t') (hl : t.node? l = some .directory) :
    t'.node? l = some .directory := by
  rcases h l with h | ⟨h, -⟩ | ⟨-, h, -⟩
  · rw [h, hl]
  · rw [h] at hl
    cases hl
  · exact absurd hl h

/-- So do files that may not be altered. -/
theorem file (h : Alters S t t') (hS : ¬S l) (hl : t.node? l = some (.file bytes)) :
    t'.node? l = some (.file bytes) := by
  rcases h l with h | ⟨h, -⟩ | ⟨h, -⟩
  · rw [h, hl]
  · rw [h] at hl
    cases hl
  · exact absurd h hS

/-- **No other file changes,** or comes to be. -/
theorem file_iff (h : Alters S t t') (hS : ¬S l) :
    t'.node? l = some (.file bytes) ↔ t.node? l = some (.file bytes) := by
  refine ⟨fun hl => ?_, h.file hS⟩
  rcases h l with h | ⟨-, h⟩ | ⟨h, -⟩
  · rw [← h, hl]
  · rw [h] at hl
    cases hl
  · exact absurd h hS

/-- **Parts lead where they led before.** -/
theorem locate (h : Alters S t t') {start : Location} {ps : List String}
    (hl : t.locate start ps = .ok l) : t'.locate start ps = .ok l := by
  -- on the parts, with the place that has been reached
  induction ps generalizing start with
  | nil => exact hl
  | cons p rest ih =>
    unfold FileTree.locate at hl ⊢
    cases hstart : t.node? start with
    | none =>
      rw [hstart] at hl
      cases hl
    | some node =>
      cases node with
      | file bytes =>
        rw [hstart] at hl
        cases hl
      | directory =>
        rw [hstart] at hl
        rw [h.directory hstart]
        dsimp only at hl ⊢
        split at hl
        · next hup =>
          rw [if_pos hup]
          exact ih hl
        · next hup =>
          rw [if_neg hup]
          split at hl
          · cases hl
          · next hlong =>
            rw [if_neg hlong]
            exact ih hl

/-- So do paths. -/
theorem find (h : Alters S t t') (hl : t.find path = .ok l) : t'.find path = .ok l := by
  unfold FileTree.find at hl ⊢
  split at hl
  · cases hl
  · next hzero =>
    rw [if_neg hzero]
    split at hl
    · cases hl
    · next hempty =>
      rw [if_neg hempty]
      split at hl
      · cases hl
      · next hlong =>
        rw [if_neg hlong]
        exact h.locate hl

end Alters

/-- What can be read is the file to which the path leads. -/
theorem read_eq_ok (h : t.read path = .ok bytes) :
    ∃ l, t.find path = .ok l ∧ t.node? l = some (.file bytes) ∧ asksForDirectory path = false := by
  unfold read at h
  split at h
  · cases h
  · next l hl =>
    split at h
    · cases h
    · cases h
    · next b hb =>
      split at h
      · cases h
      · next hasks =>
        cases h
        exact ⟨l, hl, hb, by simpa using hasks⟩

theorem read_of_file (hl : t.find path = .ok l) (hn : t.node? l = some (.file bytes))
    (hasks : asksForDirectory path = false) : t.read path = .ok bytes := by
  unfold read
  rw [hl]
  dsimp only
  rw [hn]
  dsimp only
  rw [hasks, if_neg (by decide)]

/-- **A file that may not be altered is read as before.** -/
theorem Alters.read (h : Alters S t t') (hS : ∀ l, t.find path = .ok l → ¬S l)
    (hr : t.read path = .ok bytes) : t'.read path = .ok bytes := by
  obtain ⟨l, hl, hn, hasks⟩ := read_eq_ok hr
  exact read_of_file (h.find hl) (h.file (hS l hl) hn) hasks

/-! ## What alters a tree -/

theorem isTop_eq_false (h : t.node? l ≠ some .directory) : Location.isTop l = false := by
  cases htop : Location.isTop l with
  | false => rfl
  | true => exact absurd (by simp [node?, htop]) h

/-- A file is put where no directory is. -/
theorem alters_put_file (h : t.node? l ≠ some .directory) (hS : S l) (bytes : List UInt8) :
    Alters S t (t.put l (.file bytes)) := by
  intro k
  rw [node?_put t _ (isTop_eq_false h)]
  by_cases hk : k = l
  · rw [if_pos hk, hk]
    exact .inr (.inr ⟨hS, h, bytes, rfl⟩)
  · rw [if_neg hk]
    exact .inl rfl

/-- A directory is put where nothing is. -/
theorem alters_put_directory (h : t.node? l = none) : Alters S t (t.put l .directory) := by
  have hne : t.node? l ≠ some .directory := by simp [h]
  intro k
  rw [node?_put t _ (isTop_eq_false hne)]
  by_cases hk : k = l
  · rw [if_pos hk, hk]
    exact .inr (.inl ⟨h, rfl⟩)
  · rw [if_neg hk]
    exact .inl rfl

theorem alters_makeOne (h : t.makeOne path = .ok t') : Alters S t t' := by
  unfold makeOne at h
  split at h
  · cases h
  · next l hl =>
    split at h
    · cases h
    · next hnone =>
      cases h
      exact alters_put_directory (by simpa using hnone)

/-- Each attempt at a directory, and those at the ones above it, only adds
directories. -/
theorem alters_makeAll (root : String) (t : FileTree) (ps : List String) :
    Alters S t (makeAll root t ps).2 := by
  induction ps generalizing t with
  | nil => exact Alters.refl S t
  | cons last above ih =>
    unfold makeAll
    dsimp only
    split
    · next made hmade => exact alters_makeOne hmade
    · -- the directory above is made first, and this one is tried again
      have habove := ih t
      split
      · next t₁ hall =>
        rw [hall] at habove
        exact habove
      · next t₁ hall =>
        rw [hall] at habove
        split
        · next made hmade => exact habove.trans (alters_makeOne hmade)
        · exact habove
    · exact Alters.refl S t

/-- **Making directories alters no file.** -/
theorem alters_makeDirectories (t : FileTree) (path : String) :
    Alters S t (t.makeDirectories path).2 := alters_makeAll _ t _

/-- What is written is written where the path leads, and no directory is there. -/
theorem write_eq_ok (h : t.write path bytes = .ok t') :
    ∃ l, t.find path = .ok l ∧ t.node? l ≠ some .directory ∧ t' = t.put l (.file bytes) := by
  unfold write at h
  split at h
  · cases h
  · next l hl =>
    split at h
    · cases h
    · next hne =>
      cases h
      exact ⟨l, hl, hne, rfl⟩

/-- **Writing a file alters the place where its path leads.** -/
theorem alters_write (h : t.write path bytes = .ok t') (hS : ∀ l, t.find path = .ok l → S l) :
    Alters S t t' := by
  obtain ⟨l, hl, hne, rfl⟩ := write_eq_ok h
  exact alters_put_file hne (hS l hl) bytes

/-- **What was written can be read.** -/
theorem read_of_write (h : t.write path bytes = .ok t') (hasks : asksForDirectory path = false) :
    t'.read path = .ok bytes := by
  have halters : Alters (fun _ => True) t t' := alters_write h fun _ _ => trivial
  obtain ⟨l, hl, hne, rfl⟩ := write_eq_ok h
  refine read_of_file (halters.find hl) ?_ hasks
  rw [node?_put t _ (isTop_eq_false hne), if_pos rfl]

/-- **A file that holds the same bytes** can be read as before, wherever they were
written. -/
theorem read_of_write_same {other : String} (h : t.write path bytes = .ok t')
    (hr : t.read other = .ok bytes) : t'.read other = .ok bytes := by
  have halters : Alters (fun _ => True) t t' := alters_write h fun _ _ => trivial
  obtain ⟨l, hl, hn, hasks⟩ := read_eq_ok hr
  obtain ⟨m, -, hne, rfl⟩ := write_eq_ok h
  refine read_of_file (halters.find hl) ?_ hasks
  rw [node?_put t _ (isTop_eq_false hne)]
  split
  · rfl
  · exact hn

/-! ## Where a path leads -/

/-- Names add themselves to the place that has been reached. -/
theorem eq_append_of_locate {start : Location} (h : ∀ n ∈ names, n ≠ "..")
    (hl : t.locate start names = .ok l) : l = start ++ names := by
  induction names generalizing start with
  | nil =>
    unfold locate at hl
    cases hl
    simp
  | cons n rest ih =>
    unfold locate at hl
    split at hl
    · cases hl
    · cases hl
    · rw [if_neg (h n List.mem_cons_self)] at hl
      split at hl
      · cases hl
      · rw [ih (fun k hk => h k (List.mem_cons_of_mem _ hk)) hl]
        simp

/-- **The names at the end of a path** are those at the end of the place. -/
theorem isSuffix_of_locate {start : Location} {ps : List String} (h : ∀ n ∈ names, n ≠ "..")
    (hl : t.locate start (ps ++ names) = .ok l) : names <:+ l := by
  induction ps generalizing start with
  | nil => exact ⟨start, (eq_append_of_locate h hl).symm⟩
  | cons p rest ih =>
    rw [List.cons_append] at hl
    unfold locate at hl
    split at hl
    · cases hl
    · cases hl
    · split at hl
      · exact ih hl
      · split at hl
        · cases hl
        · exact ih hl

theorem isSuffix_of_find {ps : List String} (hp : Path.parts path = ps ++ names)
    (h : ∀ n ∈ names, n ≠ "..") (hl : t.find path = .ok l) : names <:+ l := by
  unfold find at hl
  split at hl
  · cases hl
  · split at hl
    · cases hl
    · split at hl
      · cases hl
      · rw [hp] at hl
        exact isSuffix_of_locate h hl

/-! ## Below a place -/

theorem locate_concat {start : Location} {ps : List String} {part : String} (hup : part ≠ "..")
    (hl : t.locate start (ps ++ [part]) = .ok l) :
    ∃ base, t.locate start ps = .ok base ∧ l = base ++ [part] := by
  induction ps generalizing start with
  | nil => exact ⟨start, rfl, eq_append_of_locate (by simpa using hup) hl⟩
  | cons p rest ih =>
    rw [List.cons_append] at hl
    unfold locate at hl ⊢
    split at hl
    · cases hl
    · cases hl
    · split at hl
      · next habove =>
        rw [if_pos habove]
        exact ih hl
      · next habove =>
        rw [if_neg habove]
        split at hl
        · cases hl
        · next hlong =>
          rw [if_neg hlong]
          exact ih hl

/-- **A name below a path leads below the place** to which the path leads. -/
theorem find_child {part : String} (hne : path ≠ "") (h : Path.IsName part) (hup : part ≠ "..")
    (hl : t.find (Path.child path part) = .ok l) :
    ∃ base, t.find path = .ok base ∧ l = base ++ [part] := by
  unfold find at hl ⊢
  split at hl
  · cases hl
  · next hzero =>
    split at hl
    · cases hl
    · split at hl
      · cases hl
      · next hlong =>
        have hroot := Path.root_child hne h
        have hstart : (if Path.root (Path.child path part) = "" then [] else Location.root) =
            if Path.root path = "" then [] else Location.root := by
          simp only [hroot]
        rw [hstart, Path.parts_child path h] at hl
        have hfits : Char.ofNat 0 ∉ path.toList ∧ ¬pathLimit < path.utf8ByteSize := by
          by_cases hdot : path = "."
          · rw [hdot]
            decide
          · obtain ⟨back, hback⟩ := Path.exists_child_eq hdot part
            rw [hback, String.toList_append, List.mem_append] at hzero
            rw [hback, String.utf8ByteSize_append] at hlong
            exact ⟨fun hmem => hzero (.inl hmem), by omega⟩
        rw [if_neg hfits.1, if_neg hne, if_neg hfits.2]
        exact locate_concat hup hl

/-- **So do several names.** -/
theorem find_below (hne : path ≠ "") (h : ∀ n ∈ names, Path.IsName n ∧ n ≠ "..")
    (hl : t.find (Path.below path names) = .ok l) :
    ∃ base, t.find path = .ok base ∧ l = base ++ names := by
  induction names generalizing path with
  | nil => exact ⟨l, hl, by simp⟩
  | cons n rest ih =>
    obtain ⟨hname, hup⟩ := h n List.mem_cons_self
    have hchild : Path.child path n ≠ "" := by
      intro hempty
      have hparts := Path.parts_child path hname
      rw [hempty] at hparts
      exact List.cons_ne_nil _ _ (List.append_eq_nil_iff.1 hparts.symm).2
    obtain ⟨base, hbase, rfl⟩ := ih hchild (fun m hm => h m (List.mem_cons_of_mem _ hm)) hl
    obtain ⟨above, habove, rfl⟩ := find_child hne hname hup hbase
    exact ⟨above, habove, by simp⟩

end Walkthrough.FileTree
