import Walkthrough.Proofs.FileTree.Proper
import Walkthrough.Proofs.Run.Documents
import Mathlib.Data.String.Basic
/-!
# The documents of a directory

Where no documents are named, those of a directory are found. A name ending in
`.md` is all that is asked of one: a directory with such a name is found as well
(`mem_documents_iff`), and no document can be read from it. So the documents are
the files with such names, each once and in order, and all of them can be read,
just where no directory has such a name and no path is too long
(`discovers_iff`).
-/

namespace Walkthrough

namespace FileTree

/-- What a directory holds under a name. Nothing holds anything under any name
but a directory. -/
def lookIn (t : FileTree) (directory name : String) : Option Node :=
  match t.find (Path.plain directory) with
  | .ok place => if t.node? place = some .directory then t.node? (place ++ [name]) else none
  | .error _ => none

end FileTree

namespace Run

open FileTree

variable {t : FileTree} {directory name path : String} {paths : List String} {place : Location}

/-- **The documents of a directory are found:** the files with the names of
documents and nothing else, each once, in the order of their paths, and each
reads as it is held there. Where there is no directory there are none. -/
structure Discovers (t : FileTree) (directory : String) (paths : List String) : Prop where
  listed : ∀ path, path ∈ paths ↔ ∃ name bytes, isDocumentName name = true ∧
    t.lookIn directory name = some (.file bytes) ∧ path = Path.child (Path.plain directory) name
  ascending : paths.Pairwise (· < ·)
  read : ∀ name bytes, isDocumentName name = true → t.lookIn directory name = some (.file bytes) →
    t.read (Path.child (Path.plain directory) name) = .ok bytes
  absent : t.hasDirectory (Path.plain directory) = false → paths = []

/-! ## What is found -/

theorem lookIn_eq (hl : t.find (Path.plain directory) = .ok place)
    (hdir : t.node? place = some .directory) (name : String) :
    t.lookIn directory name = t.node? (place ++ [name]) := by
  unfold lookIn
  rw [hl]
  exact if_pos hdir

theorem lookIn_eq_none (h : t.hasDirectory (Path.plain directory) = false) (name : String) :
    t.lookIn directory name = none := by
  unfold hasDirectory at h
  unfold lookIn
  split
  · next place hl =>
    rw [hl] at h
    exact if_neg (by simpa using h)
  · rfl

/-- What is there or not, in one of three ways. -/
theorem documents_eq (t : FileTree) (directory : String) :
    t.find (Path.plain directory) = .error .tooLong ∧
      documents t directory [] = .error ⟨.tooLong, Path.plain directory⟩ ∨
    t.find (Path.plain directory) ≠ .error .tooLong ∧
      t.hasDirectory (Path.plain directory) = false ∧ documents t directory [] = .ok [] ∨
    ∃ place, t.find (Path.plain directory) = .ok place ∧ t.node? place = some .directory ∧
      documents t directory [] = .ok ((((t.namesIn place).filter isDocumentName).map
        (Path.child (Path.plain directory))).mergeSort fun p q => decide (p ≤ q)) := by
  have hdocuments : documents t directory [] = documentsIn t directory := rfl
  rw [hdocuments]
  unfold documentsIn FileTree.isDirectory hasDirectory
  cases hfind : t.find (Path.plain directory) with
  | error e =>
    by_cases he : e = .tooLong
    · exact .inl ⟨by rw [he], by rw [he]; rfl⟩
    · refine .inr (.inl ⟨by simpa using he, rfl, ?_⟩)
      cases e <;> first | rfl | exact absurd rfl he
  | ok place =>
    by_cases hdir : t.node? place = some .directory
    · refine .inr (.inr ⟨place, rfl, hdir, ?_⟩)
      simp only [hdir, decide_true]
      rfl
    · refine .inr (.inl ⟨nofun, by simpa using hdir, ?_⟩)
      simp only [hdir, decide_false]
      rfl

/-- **Documents are looked for** unless the path of the directory is too long. -/
theorem exists_documents_iff : (∃ paths, documents t directory [] = .ok paths) ↔
    t.find (Path.plain directory) ≠ .error .tooLong := by
  rcases documents_eq t directory with ⟨hl, heq⟩ | ⟨hne, -, heq⟩ | ⟨place, hl, -, heq⟩
  · simp [hl, heq]
  · simp [hne, heq]
  · simp [hl, heq]

/-- Where there is no directory there are none. -/
theorem documents_of_absent (habsent : t.hasDirectory (Path.plain directory) = false)
    (h : documents t directory [] = .ok paths) : paths = [] := by
  rcases documents_eq t directory with ⟨-, heq⟩ | ⟨-, -, heq⟩ | ⟨place, hl, hdir, -⟩
  · rw [heq] at h
    cases h
  · rw [heq] at h
    cases h
    rfl
  · unfold hasDirectory at habsent
    rw [hl] at habsent
    simp [hdir] at habsent

/-- The name of a document is no way up, and not the root. -/
theorem isTop_document (hname : isDocumentName name = true) (l : Location) :
    Location.isTop (l ++ [name]) = false := by
  refine isTop_concat l ?_ ?_
  · rintro rfl
    exact absurd hname (by decide)
  · rintro rfl
    exact absurd hname (by decide)

/-- Different paths are in strictly ascending order once they are sorted. -/
theorem ascending_mergeSort (h : paths.Nodup) :
    (paths.mergeSort fun p q => decide (p ≤ q)).Pairwise (· < ·) := by
  have hsorted : (paths.mergeSort fun p q => decide (p ≤ q)).Pairwise (· ≤ ·) := by
    have htrans (p q r : String) (hpq : decide (p ≤ q) = true) (hqr : decide (q ≤ r) = true) :
        decide (p ≤ r) = true :=
      decide_eq_true (le_trans (of_decide_eq_true hpq) (of_decide_eq_true hqr))
    have htotal (p q : String) : (decide (p ≤ q) || decide (q ≤ p)) = true := by
      simpa using le_total p q
    exact (List.pairwise_mergeSort htrans htotal paths).imp of_decide_eq_true
  have hnodup : (paths.mergeSort fun p q => decide (p ≤ q)).Nodup :=
    (List.mergeSort_perm paths _).nodup_iff.2 h
  exact hsorted.imp₂ (fun _ _ => lt_of_le_of_ne) hnodup

/-- **Whatever has the name of a document is found,** be it a file or a
directory, once and in order. -/
theorem mem_documents_iff (ht : t.Proper) (h : documents t directory [] = .ok paths) :
    (∀ path, path ∈ paths ↔ ∃ name, isDocumentName name = true ∧
      (t.lookIn directory name).isSome = true ∧ path = Path.child (Path.plain directory) name) ∧
    paths.Pairwise (· < ·) := by
  rcases documents_eq t directory with ⟨-, heq⟩ | ⟨-, hnone, heq⟩ | ⟨place, hl, hdir, heq⟩
  · rw [heq] at h
    cases h
  · rw [heq] at h
    cases h
    simp [lookIn_eq_none hnone]
  · rw [heq] at h
    cases h
    constructor
    · intro path
      simp only [List.mem_mergeSort, List.mem_map, List.mem_filter, ht.mem_namesIn,
        lookIn_eq hl hdir]
      constructor
      · rintro ⟨name, ⟨⟨-, hsome⟩, hname⟩, rfl⟩
        exact ⟨name, hname, hsome, rfl⟩
      · rintro ⟨name, hname, hsome, rfl⟩
        exact ⟨name, ⟨⟨isTop_document hname place, hsome⟩, hname⟩, rfl⟩
    · have hnodup : (((t.namesIn place).filter isDocumentName).map
          (Path.child (Path.plain directory))).Nodup :=
        ((ht.nodup_namesIn place).filter _).map fun _ _ => Path.child_inj.1
      exact ascending_mergeSort hnodup

/-! ## What can be read -/

theorem exists_place_of_lookIn {n : Node} (h : t.lookIn directory name = some n) :
    ∃ place, t.find (Path.plain directory) = .ok place ∧ t.node? place = some .directory ∧
      t.node? (place ++ [name]) = some n := by
  unfold lookIn at h
  split at h
  · next place hl =>
    split at h
    · next hdir => exact ⟨place, hl, hdir, h⟩
    · cases h
  · cases h

/-- **A document in a directory can be read** just where its path is not too
long. -/
theorem read_document_iff (ht : t.Proper) {bytes : List UInt8} (hname : isDocumentName name = true)
    (hfile : t.lookIn directory name = some (.file bytes)) :
    t.read (Path.child (Path.plain directory) name) = .ok bytes ↔
      (Path.child (Path.plain directory) name).utf8ByteSize ≤ pathLimit := by
  obtain ⟨place, hl, hdir, hnode⟩ := exists_place_of_lookIn hfile
  have hfits : Fits name := ht.fits (isTop_document hname place) (by rw [hnode]; rfl)
  constructor
  · intro hread
    obtain ⟨l, hfind, -⟩ := read_eq_ok hread
    exact (find_eq_ok_iff.1 hfind).2.2.1
  · intro hsize
    have hlen : 3 ≤ name.toList.length := (List.isSuffixOf_iff_suffix.1 hname).length_le
    exact read_of_file (find_child_eq hl hdir hfits hsize) hnode
      (Report.asksForDirectory_child hfits.name.1 (by omega))

/-- Where the documents are found, no directory has the name of one. -/
theorem Discovers.lookIn_ne_directory (h : Discovers t directory paths) (ht : t.Proper)
    (hpaths : documents t directory [] = .ok paths) (hname : isDocumentName name = true) :
    t.lookIn directory name ≠ some .directory := by
  intro hdir
  have hmem : Path.child (Path.plain directory) name ∈ paths :=
    ((mem_documents_iff ht hpaths).1 _).2 ⟨name, hname, by rw [hdir]; rfl, rfl⟩
  obtain ⟨name', bytes, -, hfile, hchild⟩ := (h.listed _).1 hmem
  rw [← Path.child_inj.1 hchild, hdir] at hfile
  cases hfile

/-- **The documents of a directory are found** just where no directory has the
name of one and no path is too long: the list is that of the files with such
names, each once and in order, all of them can be read, and it is empty where
there is no directory. -/
theorem discovers_iff (ht : t.Proper) :
    (∃ paths, documents t directory [] = .ok paths ∧ Discovers t directory paths) ↔
      t.find (Path.plain directory) ≠ .error .tooLong ∧
      ∀ name, isDocumentName name = true → t.lookIn directory name ≠ some .directory ∧
        ∀ bytes, t.lookIn directory name = some (.file bytes) →
          (Path.child (Path.plain directory) name).utf8ByteSize ≤ pathLimit := by
  rw [← exists_documents_iff]
  constructor
  · rintro ⟨paths, hpaths, h⟩
    refine ⟨⟨paths, hpaths⟩, fun name hname => ⟨h.lookIn_ne_directory ht hpaths hname, ?_⟩⟩
    intro bytes hfile
    exact (read_document_iff ht hname hfile).1 (h.read name bytes hname hfile)
  · rintro ⟨⟨paths, hpaths⟩, hall⟩
    obtain ⟨hmem, hascending⟩ := mem_documents_iff ht hpaths
    refine ⟨paths, hpaths, fun path => ?_, hascending, ?_, fun hnone =>
      documents_of_absent hnone hpaths⟩
    · rw [hmem]
      constructor
      · rintro ⟨name, hname, hsome, rfl⟩
        -- what is there is no directory, so it is a file
        obtain ⟨n, hn⟩ := Option.isSome_iff_exists.1 hsome
        cases n with
        | file bytes => exact ⟨name, bytes, hname, hn, rfl⟩
        | directory => exact absurd hn (hall name hname).1
      · rintro ⟨name, bytes, hname, hfile, rfl⟩
        exact ⟨name, hname, by rw [hfile]; rfl, rfl⟩
    · intro name bytes hname hfile
      exact (read_document_iff ht hname hfile).2 ((hall name hname).2 bytes hfile)

/-- A directory for documents with two of them, out of order, and with what is
none: another file, and a directory with a document of its own. -/
def shelf : FileTree := FileTree.ofList
  [("tests/md/b.md", .file [45]), ("tests/md/B.md", .file []), ("tests/md/b.txt", .file []),
    ("tests/md/old/a.md", .file [])]

/-- One with a directory that has the name of a document. -/
def cluttered : FileTree := FileTree.ofList
  [("tests/md/a.md", .file []), ("tests/md/notes.md", .directory)]

/-- What stands on the shelf under the name of a document. -/
theorem name_of_shelf {n : Node} (ht : shelf.Proper) (hname : isDocumentName name = true)
    (h : shelf.lookIn "tests/md" name = some n) : name = "b.md" ∨ name = "B.md" := by
  have hplace : shelf.find (Path.plain "tests/md") = .ok ["tests", "md"] := by decide +kernel
  have hdir : shelf.node? ["tests", "md"] = some .directory := by decide +kernel
  rw [lookIn_eq hplace hdir] at h
  have hmem : name ∈ (shelf.namesIn ["tests", "md"]).filter isDocumentName :=
    List.mem_filter.2 ⟨ht.mem_namesIn.2 ⟨isTop_document hname _, by rw [h]; rfl⟩, hname⟩
  have hnames : (shelf.namesIn ["tests", "md"]).filter isDocumentName = ["b.md", "B.md"] := by
    decide +kernel
  rw [hnames] at hmem
  simpa using hmem

/-- Its two documents are found. -/
theorem discovers_shelf : shelf.Proper ∧
    ∃ paths, documents shelf "tests/md" [] = .ok paths ∧ Discovers shelf "tests/md" paths := by
  have ht : shelf.Proper := proper_ofList (by decide +kernel)
  refine ⟨ht, (discovers_iff ht).2 ⟨by decide +kernel, fun name hname => ⟨fun hdir => ?_, ?_⟩⟩⟩
  · rcases name_of_shelf ht hname hdir with rfl | rfl
    · exact absurd hdir (by decide +kernel)
    · exact absurd hdir (by decide +kernel)
  · intro bytes hfile
    rcases name_of_shelf ht hname hfile with rfl | rfl
    · decide
    · decide

/-- **Not all that is found is a document:** a directory is among it, from which
nothing can be read. -/
theorem undiscovered :
    ¬∀ (t : FileTree) (directory : String), t.Proper →
      ∃ paths, documents t directory [] = .ok paths ∧ Discovers t directory paths := by
  intro hall
  have ht : cluttered.Proper := proper_ofList (by decide +kernel)
  obtain ⟨paths, hpaths, h⟩ := hall cluttered "tests/md" ht
  have hname : isDocumentName "notes.md" = true := by decide
  exact h.lookIn_ne_directory ht hpaths hname (by decide +kernel)

end Run

end Walkthrough
