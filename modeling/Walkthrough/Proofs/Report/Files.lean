import Walkthrough.Proofs.FileTree.Alters
import Walkthrough.Proofs.Json.Text
import Walkthrough.Proofs.Report
import Walkthrough.Proofs.Slug
/-!
# The files of a report

Where the plan and the result of a document are written, and what else a report
writes. The place of either ends with the slug of the document and the name of
the file (`place_of_planPath`, `place_of_resultPath`), whatever directory the
reports are in; all that is written in between ends in another extension
(`IsView`). So the plan and the result of one document are altered by no other
document with another slug.
-/

namespace Walkthrough

open FileTree

variable {α β : Type} {w w' : World} {l : Location} {t : FileTree}

namespace Update

/-- A sequence that goes well consists of two changes that do. -/
theorem bind_eq_ok {u : Update α} {f : α → Update β} {b : β}
    (h : (u >>= f) w = (.ok b, w')) : ∃ a w₁, u w = (.ok a, w₁) ∧ f a w₁ = (.ok b, w') := by
  have h : Update.bind u f w = (.ok b, w') := h
  unfold Update.bind at h
  rcases hu : u w with ⟨r, w₁⟩
  rw [hu] at h
  cases r with
  | ok a => exact ⟨a, w₁, rfl, h⟩
  | error e => cases h

/-- A sequence that faults does so in one of its parts. -/
theorem bind_eq_error {u : Update α} {f : α → Update β} {e : Fault}
    (h : (u >>= f) w = (.error e, w')) :
    u w = (.error e, w') ∨ ∃ a w₁, u w = (.ok a, w₁) ∧ f a w₁ = (.error e, w') := by
  have h : Update.bind u f w = (.error e, w') := h
  unfold Update.bind at h
  rcases hu : u w with ⟨r, w₁⟩
  rw [hu] at h
  cases r with
  | ok a => exact .inr ⟨a, w₁, rfl, h⟩
  | error e =>
    cases h
    exact .inl rfl

/-- A file that cannot be written leaves everything as it is. -/
theorem writeFile_eq_error {path : String} {bytes : List UInt8} {e : Fault}
    (h : writeFile path bytes w = (.error e, w')) : w' = w := by
  unfold writeFile at h
  cases hwrite : w.files.write path bytes with
  | ok files =>
    rw [hwrite] at h
    cases h
  | error e =>
    rw [hwrite] at h
    cases h
    rfl

theorem writeFile_eq_ok {path : String} {bytes : List UInt8}
    (h : writeFile path bytes w = (.ok (), w')) :
    w' = { w with files := w'.files }.record (.wrote path bytes) ∧
      w.files.write path bytes = .ok w'.files := by
  unfold writeFile at h
  cases hwrite : w.files.write path bytes with
  | error e =>
    rw [hwrite] at h
    cases h
  | ok files =>
    rw [hwrite] at h
    cases h
    exact ⟨rfl, rfl⟩

theorem readFile_eq_ok {path : String} {bytes : List UInt8}
    (h : readFile path w = (.ok bytes, w')) : w.files.read path = .ok bytes ∧ w' = w := by
  rw [readFile_eq] at h
  cases hread : w.files.read path with
  | error e =>
    rw [hread] at h
    cases h
  | ok _ =>
    rw [hread] at h
    cases h
    exact ⟨rfl, rfl⟩

/-- **Making directories changes the files only,** whether or not it comes to an end. -/
theorem makeDirectory_snd (path : String) (w : World) :
    (makeDirectory path w).2 = { w with files := (w.files.makeDirectories path).2 } := by
  unfold makeDirectory
  split
  · next hmake => rw [hmake]
  · next hmake => rw [hmake]

theorem makeDirectory_eq_ok {path : String} (h : makeDirectory path w = (.ok (), w')) :
    w' = { w with files := (w.files.makeDirectories path).2 } := by
  rw [← makeDirectory_snd, h]

/-- **A change keeps a relation** between the world before and after it. -/
def Keeps (R : World → World → Prop) (u : Update α) : Prop := ∀ w, R w (u w).2

theorem Keeps.bind {R : World → World → Prop} (hR : ∀ {w₁ w₂ w₃}, R w₁ w₂ → R w₂ w₃ → R w₁ w₃)
    {u : Update α} {f : α → Update β} (hu : u.Keeps R) (hf : ∀ a, (f a).Keeps R) :
    (u >>= f).Keeps R := by
  intro w
  have h := hu w
  show R w (Update.bind u f w).2
  unfold Update.bind
  rcases hres : u w with ⟨r, w₁⟩
  rw [hres] at h
  cases r with
  | ok a => exact hR h (hf a w₁)
  | error e => exact h

end Update

namespace Report

/-! ## Paths -/

/-- The name of the directory of a document's reports. -/
def slugOf (source : Option String) : String :=
  Slug.nameOr (match source with
    | some path => if path = "" then unnamedDocument else Path.stem path
    | none => unnamedDocument) unnamedDocument

theorem documentDirectory_eq (artifacts : String) (source : Option String) :
    documentDirectory artifacts source =
      Path.child (Path.child artifacts "exec") (slugOf source) := rfl

/-- Where the plan of a document is. -/
def planPath (artifacts : String) (source : Option String) : String :=
  Path.child (documentDirectory artifacts source) "meta.json"

/-- Where its result is. -/
def resultPath (artifacts : String) (source : Option String) : String :=
  Path.child (documentDirectory artifacts source) "result.json"

theorem isShortName_slugOf (source : Option String) : Slug.IsShortName (slugOf source) :=
  Slug.isShortName_nameOr ⟨List.all_eq_true.1 (by decide), by decide, by decide⟩

theorem isName_slugOf (source : Option String) : Path.IsName (slugOf source) :=
  Slug.isName_of_isShortName (isShortName_slugOf source)

theorem slugOf_ne_up (source : Option String) : slugOf source ≠ ".." := by
  intro h
  have hchar := (isShortName_slugOf source).chars '.' (by rw [h]; decide)
  exact (Slug.of_isSlugChar hchar).2.1 rfl

/-- **A file in the directory of a document** is at a place that ends with the
slug of the document and the name of the file. -/
theorem isSuffix_of_find_child {artifacts file : String} {source : Option String}
    (hfile : Path.IsName file) (hup : file ≠ "..")
    (hl : t.find (Path.child (documentDirectory artifacts source) file) = .ok l) :
    [slugOf source, file] <:+ l := by
  rw [documentDirectory_eq] at hl
  obtain ⟨front, hfront⟩ :=
    Path.exists_parts_child_child (Path.child artifacts "exec") (isName_slugOf source) hfile
  refine isSuffix_of_find hfront (fun n hn => ?_) hl
  rcases List.mem_cons.1 hn with rfl | hn
  · exact slugOf_ne_up source
  · rw [List.mem_singleton.1 hn]
    exact hup

theorem place_of_planPath {artifacts : String} {source : Option String}
    (hl : t.find (planPath artifacts source) = .ok l) : [slugOf source, "meta.json"] <:+ l :=
  isSuffix_of_find_child ⟨by decide, by decide⟩ (by decide) hl

theorem place_of_resultPath {artifacts : String} {source : Option String}
    (hl : t.find (resultPath artifacts source) = .ok l) : [slugOf source, "result.json"] <:+ l :=
  isSuffix_of_find_child ⟨by decide, by decide⟩ (by decide) hl

/-- **Two documents share a directory** just where they share a slug. -/
theorem documentDirectory_inj {artifacts : String} {source source' : Option String} :
    documentDirectory artifacts source = documentDirectory artifacts source' ↔
      slugOf source = slugOf source' := by
  constructor
  · intro h
    obtain ⟨front, hfront⟩ :=
      Path.exists_parts_child (Path.child artifacts "exec") (isName_slugOf source)
    obtain ⟨front', hfront'⟩ :=
      Path.exists_parts_child (Path.child artifacts "exec") (isName_slugOf source')
    rw [documentDirectory_eq, documentDirectory_eq] at h
    have hlast := congrArg List.getLast? hfront
    rw [h, hfront', List.getLast?_concat, List.getLast?_concat] at hlast
    exact (Option.some.inj hlast).symm
  · intro h
    rw [documentDirectory_eq, documentDirectory_eq, h]

theorem planPath_congr {artifacts : String} {source source' : Option String}
    (h : slugOf source = slugOf source') :
    planPath artifacts source = planPath artifacts source' := by
  unfold planPath
  rw [documentDirectory_inj.2 h]

/-! ## Where a path leads by its ending -/

/-- The name of a place ends in some way. -/
def EndsIn (ending : String) (l : Location) : Prop :=
  ∃ name, l.getLast? = some name ∧ ending.toList <:+ name.toList

/-- **The name of a place ends as the path does** that leads there. -/
theorem endsIn_of_find {path ending : String} (h : ending.toList <:+ path.toList)
    (hslash : '/' ∉ ending.toList) (hlen : 3 ≤ ending.toList.length)
    (hl : t.find path = .ok l) : EndsIn ending l := by
  obtain ⟨front, name, hparts, -, -, hname⟩ :=
    Path.exists_last_part h hslash (Nat.le_of_succ_le hlen)
  have hup : name ≠ ".." := by
    rintro rfl
    have hle := hname.length_le
    have htwo : "..".toList.length = 2 := rfl
    omega
  obtain ⟨above, rfl⟩ := isSuffix_of_find hparts (by simpa using hup) hl
  exact ⟨name, by simp, hname⟩

theorem asksForDirectory_of_ending {path ending : String} (h : ending.toList <:+ path.toList)
    (hslash : '/' ∉ ending.toList) (hlen : 2 ≤ ending.toList.length) :
    asksForDirectory path = false := by
  obtain ⟨_, name, -, hlast, hpart, -⟩ := Path.exists_last_part h hslash hlen
  unfold asksForDirectory
  rw [hlast, Option.any_some, hpart]
  rfl

/-- The place of a page or a picture. -/
def IsView (l : Location) : Prop := EndsIn ".html" l ∨ EndsIn ".png" l

theorem not_endsIn {ending name : String} (hl : l.getLast? = some name)
    (h : ¬ending.toList <:+ name.toList) : ¬EndsIn ending l := by
  rintro ⟨name', hlast, hending⟩
  rw [hl] at hlast
  rw [← Option.some.inj hlast] at hending
  exact h hending

/-- Of two ways in which a name ends one is the end of the other. -/
theorem EndsIn.suffix_or_suffix {ending ending' : String} (h : EndsIn ending l)
    (h' : EndsIn ending' l) :
    ending.toList <:+ ending'.toList ∨ ending'.toList <:+ ending.toList := by
  obtain ⟨name, hlast, hname⟩ := h
  obtain ⟨name', hlast', hname'⟩ := h'
  rw [hlast] at hlast'
  rw [← Option.some.inj hlast'] at hname'
  exact List.suffix_or_suffix_of_suffix hname hname'

theorem not_isView {name : String} (hl : l.getLast? = some name)
    (hhtml : ¬".html".toList <:+ name.toList) (hpng : ¬".png".toList <:+ name.toList) :
    ¬IsView l := by
  rintro (h | h)
  · exact not_endsIn hl hhtml h
  · exact not_endsIn hl hpng h

/-! ## What is seen on the way

Pages that are kept and what was seen when a target was not found are made of
the same few things: directories, files with the names of views, the number of
pages, and a record in the log. `ViewKept` names them, and so the text of both
is gone through once for every relation that they keep. -/

/-- The path of a page or a picture. -/
def IsViewPath (path : String) : Prop :=
  ".html".toList <:+ path.toList ∨ ".png".toList <:+ path.toList

/-- **What is called a page or a picture is a view.** -/
theorem isView_of_isViewPath {path : String} (h : IsViewPath path) (t : FileTree) (l : Location)
    (hl : t.find path = .ok l) : IsView l := by
  rcases h with h | h
  · exact .inl (endsIn_of_find h (by decide) (by decide) hl)
  · exact .inr (endsIn_of_find h (by decide) (by decide) hl)

theorem isSuffix_append (name ending : String) : ending.toList <:+ (name ++ ending).toList := by
  rw [String.toList_append]
  exact List.suffix_append _ _

theorem isViewPath_child (path name : String) : IsViewPath (Path.child path (name ++ ".html")) :=
  .inl ((isSuffix_append name ".html").trans (Path.isSuffix_child path _))

/-- **What views are made of keeps a relation** between the world before and
after. -/
structure ViewKept (R : World → World → Prop) : Prop where
  refl (w : World) : R w w
  trans {w₁ w₂ w₃ : World} (h₁ : R w₁ w₂) (h₂ : R w₂ w₃) : R w₁ w₃
  pages (w : World) (n : Nat) : R w { w with desk := { w.desk with pages := n } }
  directory (path : String) : (Update.makeDirectory path).Keeps R
  view {path : String} (bytes : List UInt8) (h : IsViewPath path) :
    (Update.writeFile path bytes).Keeps R
  log (l : LogEntry) : (Update.log l).Keeps R

namespace ViewKept

variable {R : World → World → Prop} (h : ViewKept R)
include h

theorem bind {u : Update α} {f : α → Update β} (hu : u.Keeps R) (hf : ∀ a, (f a).Keeps R) :
    (u >>= f).Keeps R := Update.Keeps.bind (R := R) h.trans hu hf

theorem pure (a : α) : (Pure.pure a : Update α).Keeps R := fun w => h.refl w

theorem read (f : World → α) : (Update.read f).Keeps R := fun w => h.refl w

theorem writeImage {path : String} (image : Option (List UInt8)) (hpath : IsViewPath path) :
    (writeImage path image).Keeps R := by
  unfold Report.writeImage
  split
  · exact h.pure ()
  · exact h.pure ()
  · exact h.view _ hpath

/-- **A page that is kept keeps it.** -/
theorem keepPage (markup : String) : (keepPage markup).Keeps R := by
  refine h.bind (h.read _) fun current => ?_
  cases current with
  | none => exact h.pure none
  | some directory =>
    refine h.bind (fun w => h.pages w _) fun _ => ?_
    refine h.bind (h.directory _) fun _ => ?_
    refine h.bind (h.read _) fun pages => ?_
    exact h.bind (h.view _ (isViewPath_child _ _)) fun _ => h.pure _

/-- **So does what was seen when a target was not found.** -/
theorem writeSnapshot (k : Classification) (image : Option (List UInt8))
    (markup : Option String) : (writeSnapshot k image markup).Keeps R := by
  have hsaved (path : String) :
      (Update.log (.snapshotSaved path) >>= fun _ => Pure.pure path).Keeps R :=
    h.bind (h.log _) fun _ => h.pure path
  refine h.bind (h.read _) fun artifacts => ?_
  refine h.bind (h.directory _) fun _ => ?_
  refine h.bind (h.writeImage image (.inr (isSuffix_append _ _))) fun _ => ?_
  cases markup with
  | none => exact h.bind (h.pure ()) fun _ => hsaved _
  | some text =>
    refine h.bind (h.view _ (.inl (isSuffix_append _ _))) fun _ => ?_
    exact h.bind (h.view _ (isViewPath_child _ "last-page")) fun _ => hsaved _

/-- What keeps two relations keeps both at once. -/
theorem and {S : World → World → Prop} (h' : ViewKept S) :
    ViewKept fun w w' => R w w' ∧ S w w' where
  refl w := ⟨h.refl w, h'.refl w⟩
  trans h₁ h₂ := ⟨h.trans h₁.1 h₂.1, h'.trans h₁.2 h₂.2⟩
  pages w n := ⟨h.pages w n, h'.pages w n⟩
  directory path w := ⟨h.directory path w, h'.directory path w⟩
  view bytes hview w := ⟨h.view bytes hview w, h'.view bytes hview w⟩
  log l w := ⟨h.log l w, h'.log l w⟩

end ViewKept

/-- **Nothing is written but views,** and the desk stays with its document. -/
def Views (w w' : World) : Prop :=
  w'.desk.artifacts = w.desk.artifacts ∧ w'.desk.current = w.desk.current ∧
    Alters IsView w.files w'.files

theorem Views.refl (w : World) : Views w w := ⟨rfl, rfl, Alters.refl _ _⟩

theorem Views.trans {w₁ w₂ w₃ : World} (h₁ : Views w₁ w₂) (h₂ : Views w₂ w₃) : Views w₁ w₃ :=
  ⟨h₂.1.trans h₁.1, h₂.2.1.trans h₁.2.1, h₁.2.2.trans h₂.2.2⟩

theorem views_makeDirectory (path : String) : (Update.makeDirectory path).Keeps Views := by
  intro w
  rw [Update.makeDirectory_snd]
  exact ⟨rfl, rfl, alters_makeDirectories w.files path⟩

theorem views_writeFile {path : String} {bytes : List UInt8} (h : IsViewPath path) :
    (Update.writeFile path bytes).Keeps Views := by
  intro w
  unfold Update.writeFile
  split
  · next files hwrite => exact ⟨rfl, rfl, alters_write hwrite (isView_of_isViewPath h w.files)⟩
  · exact Views.refl w

theorem viewKept_views : ViewKept Views where
  refl := Views.refl
  trans := Views.trans
  pages _ _ := ⟨rfl, rfl, Alters.refl _ _⟩
  directory := views_makeDirectory
  view _ := views_writeFile
  log _ w := Views.refl w

/-! ## The plan and the result -/

/-- **What writing the plan of a document leaves:** its directory is the current
one, and the plan stands there. Nothing else has changed but for directories. -/
theorem writePlan_eq_ok {s : Suite} {path : String} (h : writePlan s w = (.ok path, w')) :
    path = planPath w.desk.artifacts s.source ∧
      w' = { w with
        desk := ⟨w.desk.artifacts, some (documentDirectory w.desk.artifacts s.source), 0⟩
        files := w'.files
        chronicle := w.chronicle ++ [.wrote path (Text.toBytes s.plan.toIndented)] } ∧
      ∃ t, Alters (fun _ => False) w.files t ∧
        t.write path (Text.toBytes s.plan.toIndented) = .ok w'.files := by
  unfold writePlan at h
  rw [Update.read_bind] at h
  dsimp only at h
  rw [Update.change_bind] at h
  obtain ⟨_, w₁, hmake, h⟩ := Update.bind_eq_ok h
  have hw₁ := Update.makeDirectory_eq_ok hmake
  rw [Update.change_bind] at h
  obtain ⟨_, w₂, hwrite, h⟩ := Update.bind_eq_ok h
  obtain ⟨hw₂, hwrite⟩ := Update.writeFile_eq_ok hwrite
  cases h
  refine ⟨rfl, ?_, w₁.files, ?_, hwrite⟩
  · rw [hw₂, hw₁]
    rfl
  · rw [hw₁]
    exact alters_makeDirectories _ _

/-- **What writing the result leaves,** if there is a current directory. -/
theorem writeResult_eq_ok {r : SuiteResult} {found : Option String} {directory : String}
    (h : writeResult r w = (.ok found, w')) (hw : w.desk.current = some directory) :
    found = some (Path.child directory "result.json") ∧
      w' = { w with files := w'.files }.record
        (.wrote (Path.child directory "result.json") (Text.toBytes r.toValue.toIndented)) ∧
      w.files.write (Path.child directory "result.json") (Text.toBytes r.toValue.toIndented) =
        .ok w'.files := by
  unfold writeResult at h
  rw [Update.read_bind, hw] at h
  obtain ⟨_, w₁, hwrite, h⟩ := Update.bind_eq_ok h
  cases h
  exact ⟨rfl, Update.writeFile_eq_ok hwrite⟩

/-- Without one there is nowhere to write it. -/
theorem writeResult_of_none (r : SuiteResult) (hw : w.desk.current = none) :
    writeResult r w = (.ok none, w) := by
  unfold writeResult
  rw [Update.read_bind, hw]
  rfl

/-- **What finishing a suite leaves.** The result is announced behind it. -/
theorem suiteFinished_eq_ok {r : SuiteResult} {directory : String}
    (h : suiteFinished r w = (.ok (), w')) (hw : w.desk.current = some directory) :
    w' = { w with
        files := w'.files
        chronicle := w.chronicle ++
          [.wrote (Path.child directory "result.json") (Text.toBytes r.toValue.toIndented),
            .printed (.suiteFinished r.source r.passed r.failed)] } ∧
      w.files.write (Path.child directory "result.json") (Text.toBytes r.toValue.toIndented) =
        .ok w'.files := by
  unfold suiteFinished at h
  obtain ⟨_, w₁, hresult, h⟩ := Update.bind_eq_ok h
  cases h
  obtain ⟨-, hw₁, hfiles⟩ := writeResult_eq_ok hresult hw
  refine ⟨?_, hfiles⟩
  rw [hw₁]
  simp [World.record]

/-- A result that cannot be written leaves everything as it is. -/
theorem suiteFinished_eq_error {r : SuiteResult} {e : Fault} {directory : String}
    (h : suiteFinished r w = (.error e, w')) (hw : w.desk.current = some directory) : w' = w := by
  unfold suiteFinished at h
  rcases Update.bind_eq_error h with hresult | ⟨_, w₁, -, hprint⟩
  · unfold writeResult at hresult
    rw [Update.read_bind, hw] at hresult
    rcases Update.bind_eq_error hresult with hwrite | ⟨_, w₁, -, hpure⟩
    · exact Update.writeFile_eq_error hwrite
    · cases hpure
  · cases hprint

theorem asksForDirectory_child {path file : String} (hslash : '/' ∉ file.toList)
    (hlen : 2 ≤ file.toList.length) : asksForDirectory (Path.child path file) = false :=
  asksForDirectory_of_ending (Path.isSuffix_child path file) hslash hlen

/-- **Plans of documents at different paths differ.** -/
theorem source_of_plan {s s' : Suite} {path path' : String} (hs : s.source = some path)
    (hs' : s'.source = some path')
    (h : Text.toBytes s.plan.toIndented = Text.toBytes s'.plan.toIndented) : path = path' := by
  have hrecord := String.ofList_injective (Text.toBytes_injective h)
  unfold Suite.plan at hrecord
  rw [hs, hs'] at hrecord
  exact (Json.front_texts_inj hrecord).2

end Report

end Walkthrough
