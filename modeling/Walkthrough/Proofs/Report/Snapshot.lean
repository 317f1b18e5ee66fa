import Walkthrough.Proofs.Report.Files
/-!
# What a snapshot leaves

A snapshot is a picture and the markup of a page, and either may be missing. The
picture goes to one file and the markup to two, one of which is that of the last
page. What there is can be read from its files afterwards, the files of what is
missing are spared, and no others are touched (`snapshot_of_writeSnapshot`).
-/

namespace Walkthrough

open FileTree Text

variable {w w' : World} {l : Location} {t t' t₁ t₂ t₃ : FileTree} {path artifacts : String}
  {bytes : List UInt8} {found : Option (List UInt8)} {image : Option (List UInt8)}
  {markup : Option String} {c : Classification}

namespace FileTree

/-- A file is written, if there is something to write. -/
inductive Puts (t : FileTree) (path : String) : Option (List UInt8) → FileTree → Prop
  | nothing : Puts t path none t
  | file {bytes : List UInt8} {t' : FileTree} (h : t.write path bytes = .ok t') :
    Puts t path (some bytes) t'

namespace Puts

/-- The place of the file is altered, and only if there is something to write. -/
theorem alters (h : Puts t path found t') :
    Alters (fun l => found ≠ none ∧ t.find path = .ok l) t t' := by
  cases h with
  | nothing => exact Alters.refl _ _
  | file h => exact alters_write h fun l hl => ⟨nofun, hl⟩

theorem read (h : Puts t path (some bytes) t') (hasks : asksForDirectory path = false) :
    t'.read path = .ok bytes := by
  cases h with
  | file h => exact read_of_write h hasks

/-- The same bytes in another file stay readable. -/
theorem read_same {other : String} (h : Puts t path (some bytes) t')
    (hr : t.read other = .ok bytes) : t'.read other = .ok bytes := by
  cases h with
  | file h => exact read_of_write_same h hr

end Puts

/-- **A path is spared:** where it leads there is the file that was there, or still
none. -/
def Spares (path : String) (t t' : FileTree) : Prop :=
  ∀ l, t'.find path = .ok l → ∀ bytes,
    t'.node? l = some (.file bytes) ↔ t.node? l = some (.file bytes)

end FileTree

namespace Report

/-- Where the snapshot of a step is, but for the ending. -/
def snapshotPath (artifacts : String) (c : Classification) : String :=
  Path.child (snapshotDirectory artifacts) (snapshotName c)

/-- Where the markup of the last page is. -/
def lastPagePath (artifacts : String) : String :=
  Path.child (snapshotDirectory artifacts) "last-page.html"

/-- **A snapshot is kept.** A picture and markup that there are can be read; where
there are none their files are spared; and no other file is touched. -/
structure Snapshot (artifacts : String) (c : Classification) (image : Option (List UInt8))
    (markup : Option String) (t t' : FileTree) : Prop where
  picture : ∀ bytes, image = some bytes →
    t'.read (snapshotPath artifacts c ++ ".png") = .ok bytes
  page : ∀ text, markup = some text →
    t'.read (snapshotPath artifacts c ++ ".html") = .ok (toBytes text) ∧
      t'.read (lastPagePath artifacts) = .ok (toBytes text)
  noPicture : image = none → Spares (snapshotPath artifacts c ++ ".png") t t'
  noPage : markup = none → Spares (snapshotPath artifacts c ++ ".html") t t' ∧
    Spares (lastPagePath artifacts) t t'
  others : Alters (fun l => t'.find (snapshotPath artifacts c ++ ".png") = .ok l ∨
    t'.find (snapshotPath artifacts c ++ ".html") = .ok l ∨
      t'.find (lastPagePath artifacts) = .ok l) t t'

/-! ## Pictures and pages are apart -/

theorem isSuffix_lastPagePath (artifacts : String) :
    ".html".toList <:+ (lastPagePath artifacts).toList :=
  (isSuffix_append "last-page" ".html").trans (Path.isSuffix_child _ "last-page.html")

/-- **The place of a picture is none of a page.** -/
theorem find_page_ne {picture page : String} (hpicture : ".png".toList <:+ picture.toList)
    (hpage : ".html".toList <:+ page.toList) (hl : t.find picture = .ok l) :
    t'.find page ≠ .ok l := by
  intro hl'
  have hends := (endsIn_of_find hpicture (by decide) (by decide) hl).suffix_or_suffix
    (endsIn_of_find hpage (by decide) (by decide) hl')
  revert hends
  decide

/-! ## What is written -/

/-- An image with nothing in it is none. -/
theorem writeImage_eq_ok (h : writeImage path image w = (.ok (), w')) :
    Puts w.files path (image.filter (!·.isEmpty)) w'.files := by
  unfold writeImage at h
  split at h
  · cases h
    exact .nothing
  · cases h
    exact .nothing
  · next bytes hne =>
    have hbytes : bytes ≠ [] := fun hnil => hne (by rw [hnil])
    rw [Option.filter_some_pos (by simpa using hbytes)]
    exact .file (Update.writeFile_eq_ok h).2

/-- **What writing a snapshot does:** after a directory is made, three files are
written, each if there is something to write. -/
theorem writeSnapshot_eq_ok (h : writeSnapshot c image markup w = (.ok path, w')) :
    ∃ t₁ t₂ t₃, Alters (fun _ => False) w.files t₁ ∧
      Puts t₁ (snapshotPath w.desk.artifacts c ++ ".png") (image.filter (!·.isEmpty)) t₂ ∧
      Puts t₂ (snapshotPath w.desk.artifacts c ++ ".html") (markup.map toBytes) t₃ ∧
      Puts t₃ (lastPagePath w.desk.artifacts) (markup.map toBytes) w'.files := by
  unfold writeSnapshot at h
  rw [Update.read_bind] at h
  dsimp only at h
  obtain ⟨_, w₁, hmake, h⟩ := Update.bind_eq_ok h
  obtain ⟨_, w₂, himage, h⟩ := Update.bind_eq_ok h
  refine ⟨w₁.files, w₂.files, ?_⟩
  have hmade : Alters (fun _ => False) w.files w₁.files := by
    rw [Update.makeDirectory_eq_ok hmake]
    exact alters_makeDirectories _ _
  cases markup with
  | none =>
    cases h
    exact ⟨w₂.files, hmade, writeImage_eq_ok himage, .nothing, .nothing⟩
  | some text =>
    obtain ⟨_, w₃, hpage, h⟩ := Update.bind_eq_ok h
    obtain ⟨_, w₄, hlast, h⟩ := Update.bind_eq_ok h
    cases h
    exact ⟨w₃.files, hmade, writeImage_eq_ok himage, .file (Update.writeFile_eq_ok hpage).2,
      .file (Update.writeFile_eq_ok hlast).2⟩

/-- The places that are altered by a picture and by markup, if there are any. -/
def Touched (artifacts : String) (c : Classification) (image : Option (List UInt8))
    (markup : Option String) (t : FileTree) (l : Location) : Prop :=
  image ≠ none ∧ t.find (snapshotPath artifacts c ++ ".png") = .ok l ∨
    markup ≠ none ∧ (t.find (snapshotPath artifacts c ++ ".html") = .ok l ∨
      t.find (lastPagePath artifacts) = .ok l)

theorem alters_of_puts (hmade : Alters (fun _ => False) t t₁)
    (himage : Puts t₁ (snapshotPath artifacts c ++ ".png") image t₂)
    (hpage : Puts t₂ (snapshotPath artifacts c ++ ".html") (markup.map toBytes) t₃)
    (hlast : Puts t₃ (lastPagePath artifacts) (markup.map toBytes) t') :
    Alters (Touched artifacts c image markup t') t t' := by
  have hsome : markup.map toBytes ≠ none → markup ≠ none := by
    rintro h rfl
    exact h rfl
  have h₁ : Alters (Touched artifacts c image markup t') t₁ t₂ :=
    himage.alters.mono fun l hl =>
      .inl ⟨hl.1, hlast.alters.find (hpage.alters.find (himage.alters.find hl.2))⟩
  have h₂ : Alters (Touched artifacts c image markup t') t₂ t₃ :=
    hpage.alters.mono fun l hl =>
      .inr ⟨hsome hl.1, .inl (hlast.alters.find (hpage.alters.find hl.2))⟩
  have h₃ : Alters (Touched artifacts c image markup t') t₃ t' :=
    hlast.alters.mono fun l hl => .inr ⟨hsome hl.1, .inr (hlast.alters.find hl.2)⟩
  exact (((hmade.mono fun _ h => h.elim).trans h₁).trans h₂).trans h₃

/-- **What was written is a snapshot.** -/
theorem snapshot_of_puts (hmade : Alters (fun _ => False) t t₁)
    (himage : Puts t₁ (snapshotPath artifacts c ++ ".png") image t₂)
    (hpage : Puts t₂ (snapshotPath artifacts c ++ ".html") (markup.map toBytes) t₃)
    (hlast : Puts t₃ (lastPagePath artifacts) (markup.map toBytes) t') :
    Snapshot artifacts c image markup t t' := by
  have hpng : ".png".toList <:+ (snapshotPath artifacts c ++ ".png").toList := isSuffix_append _ _
  have hhtml : ".html".toList <:+ (snapshotPath artifacts c ++ ".html").toList :=
    isSuffix_append _ _
  have hpages := isSuffix_lastPagePath artifacts
  have halters := alters_of_puts hmade himage hpage hlast
  constructor
  · rintro bytes rfl
    have hread := himage.read (asksForDirectory_of_ending hpng (by decide) (by decide))
    have hread := hpage.alters.read (fun l hl hS => find_page_ne hpng hhtml hl hS.2) hread
    exact hlast.alters.read (fun l hl hS => find_page_ne hpng hpages hl hS.2) hread
  · rintro text rfl
    have hread := hpage.read (asksForDirectory_of_ending hhtml (by decide) (by decide))
    exact ⟨hlast.read_same hread,
      hlast.read (asksForDirectory_of_ending hpages (by decide) (by decide))⟩
  · rintro rfl l hl bytes
    refine halters.file_iff ?_
    rintro (⟨hne, -⟩ | ⟨-, hl' | hl'⟩)
    · exact hne rfl
    · exact find_page_ne hpng hhtml hl hl'
    · exact find_page_ne hpng hpages hl hl'
  · rintro rfl
    -- where there is no markup only the place of the picture may be altered
    have hspares {page : String} (hpage : ".html".toList <:+ page.toList) : Spares page t t' := by
      refine fun l hl bytes => halters.file_iff ?_
      rintro (⟨-, hl'⟩ | ⟨hne, -⟩)
      · exact find_page_ne hpng hpage hl' hl
      · exact hne rfl
    exact ⟨hspares hhtml, hspares hpages⟩
  · exact halters.mono fun l hl => hl.imp (·.2) (·.2)

/-- **What writing a snapshot leaves,** if it goes well. -/
theorem snapshot_of_writeSnapshot (h : writeSnapshot c image markup w = (.ok path, w')) :
    Snapshot w.desk.artifacts c (image.filter (!·.isEmpty)) markup w.files w'.files := by
  obtain ⟨t₁, t₂, t₃, hmade, himage, hpage, hlast⟩ := writeSnapshot_eq_ok h
  exact snapshot_of_puts hmade himage hpage hlast

end Report

end Walkthrough
