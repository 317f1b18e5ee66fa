import Walkthrough.Proofs.Chronicle
import Walkthrough.Proofs.Decimal.Notation
import Walkthrough.Proofs.Report.Files
/-!
# Reports stay where they belong

Each file of a report stands below the directory of all reports, in one of a few
places (`ReportFile`), whatever it is called after: a source, a target or an address
enters its name as a slug alone. `Stays` says so of one change of the world, and of
the desk that it leaves, since the directory of the current document is remembered
from one report to the next. So it holds of all that is reported, one thing after
the other (`filed_within`).
-/

namespace Walkthrough.Report

open FileTree

variable {α β : Type} {w w' : World} {artifacts name : String} {parts : List String}

/-! ## The files of reports -/

/-- A name in one part without dots. -/
structure IsPlain (name : String) : Prop where
  nonempty : name ≠ ""
  slash : '/' ∉ name.toList
  dot : '.' ∉ name.toList

/-- **The places of the files of reports** below the directory of all reports. -/
inductive ReportFile : List String → Prop
  | plan {name : String} (h : IsPlain name) : ReportFile ["exec", name, "meta.json"]
  | result {name : String} (h : IsPlain name) : ReportFile ["exec", name, "result.json"]
  | page {name : String} {digits : List Char} (h : IsPlain name) (hdigits : Double.AllDigits digits)
      (hne : digits ≠ []) : ReportFile ["exec", name, "pages", String.ofList digits ++ ".html"]
  | sight {directory name ending : String} (h : IsPlain name)
      (hdirectory : directory = "exec-debug" ∨ directory = "probe")
      (hending : ending = ".png" ∨ ending = ".html") : ReportFile [directory, name ++ ending]

theorem isPlain_of_isShortName (h : Slug.IsShortName name) : IsPlain name where
  nonempty := h.nonempty
  slash hmem := (Slug.of_isSlugChar (h.chars _ hmem)).1 rfl
  dot hmem := (Slug.of_isSlugChar (h.chars _ hmem)).2.1 rfl

theorem isPlain_nameOr {fallback : String} (h : Slug.IsShortName fallback) (name : String) :
    IsPlain (Slug.nameOr name fallback) := isPlain_of_isShortName (Slug.isShortName_nameOr h)

theorem isPlain_slugOf (source : Option String) : IsPlain (slugOf source) :=
  isPlain_of_isShortName (isShortName_slugOf source)

/-- What was seen at a step is called after the kind of the step and a slug. -/
theorem isPlain_snapshotName (c : Classification) : IsPlain (snapshotName c) := by
  have hslug : IsPlain (Slug.nameOr c.subject "step") :=
    isPlain_nameOr ⟨List.all_eq_true.1 (by decide), by decide, by decide⟩ _
  have hall : (c.kind.name ++ "-").toList.all (fun d => d != '/' && d != '.') = true := by
    cases c.kind <;> rfl
  have hkind : ∀ d ∈ (c.kind.name ++ "-").toList, d ≠ '/' ∧ d ≠ '.' := by
    simpa only [Bool.and_eq_true, bne_iff_ne] using List.all_eq_true.1 hall
  unfold snapshotName
  refine ⟨?_, ?_, ?_⟩
  · intro hempty
    have hlen := congrArg String.length hempty
    simp at hlen
  · rw [String.toList_append, List.mem_append]
    rintro (hmem | hmem)
    · exact (hkind _ hmem).1 rfl
    · exact hslug.slash hmem
  · rw [String.toList_append, List.mem_append]
    rintro (hmem | hmem)
    · exact (hkind _ hmem).2 rfl
    · exact hslug.dot hmem

/-- Pages are numbered. -/
theorem allDigits_threeDigits (n : Nat) : ∃ digits, threeDigits n = String.ofList digits ∧
    Double.AllDigits digits ∧ digits ≠ [] := by
  refine ⟨_, rfl, (Double.AllDigits.zeros _).append (Double.allDigits_toDigits n), fun hnil => ?_⟩
  -- what the number lacks of three digits is filled up
  have hlen := congrArg List.length hnil
  rw [List.length_append, List.length_replicate, List.length_nil] at hlen
  omega

/-- A plain name can stand in a path, -/
theorem IsPlain.isName (h : IsPlain name) : Path.IsName name ∧ name ≠ ".." := by
  have hdot : name ≠ "." := by
    rintro rfl
    exact h.dot (by decide)
  have hup : name ≠ ".." := by
    rintro rfl
    exact h.dot (by decide)
  exact ⟨⟨h.slash, by simp [Path.isPart, h.nonempty, hdot]⟩, hup⟩

/-- and so can any longer text without a slash. -/
theorem isName_of_long {part : String} (hslash : '/' ∉ part.toList)
    (hlen : 3 ≤ part.toList.length) : Path.IsName part ∧ part ≠ ".." := by
  have hshort {short : String} (h : short.toList.length < 3) : part ≠ short := by
    rintro rfl
    omega
  have hempty : part ≠ "" := hshort (by decide)
  have hdot : part ≠ "." := hshort (by decide)
  exact ⟨⟨hslash, by simp [Path.isPart, hempty, hdot]⟩, hshort (by decide)⟩

theorem isName_append {front ending : String} (hfront : '/' ∉ front.toList)
    (hending : '/' ∉ ending.toList) (hlen : 3 ≤ ending.toList.length) :
    Path.IsName (front ++ ending) ∧ front ++ ending ≠ ".." := by
  refine isName_of_long ?_ ?_
  · rw [String.toList_append, List.mem_append]
    exact fun hmem => hmem.elim hfront hending
  · rw [String.toList_append, List.length_append]
    omega

/-- **Where a report goes all parts are names.** -/
theorem ReportFile.isName (h : ReportFile parts) :
    ∀ part ∈ parts, Path.IsName part ∧ part ≠ ".." := by
  have hfixed : ∀ part ∈ ["exec", "meta.json", "result.json", "pages", "exec-debug", "probe"],
      Path.IsName part ∧ part ≠ ".." := by
    intro part hpart
    exact isName_of_long (by revert part; decide) (by revert part; decide)
  cases h with
  | plan h =>
    rw [List.forall_mem_cons, List.forall_mem_cons, List.forall_mem_singleton]
    exact ⟨hfixed "exec" (by decide), h.isName, hfixed "meta.json" (by decide)⟩
  | result h =>
    rw [List.forall_mem_cons, List.forall_mem_cons, List.forall_mem_singleton]
    exact ⟨hfixed "exec" (by decide), h.isName, hfixed "result.json" (by decide)⟩
  | @page name digits h hdigits hne =>
    have hslash : '/' ∉ (String.ofList digits).toList := by
      rw [String.toList_ofList]
      intro hmem
      cases hdigits _ hmem
    rw [List.forall_mem_cons, List.forall_mem_cons, List.forall_mem_cons, List.forall_mem_singleton]
    exact ⟨hfixed "exec" (by decide), h.isName, hfixed "pages" (by decide),
      isName_append hslash (by decide) (by decide)⟩
  | @sight directory name ending h hdirectory hending =>
    rw [List.forall_mem_cons, List.forall_mem_singleton]
    constructor
    · rcases hdirectory with rfl | rfl
      · exact hfixed "exec-debug" (by decide)
      · exact hfixed "probe" (by decide)
    · rcases hending with rfl | rfl
      · exact isName_append h.slash (by decide) (by decide)
      · exact isName_append h.slash (by decide) (by decide)

/-! ## What is seen

What was seen at a step or at an address goes to a directory of its own, as a picture
and a page under plain names. `SightKept` names what that is made of, and so both texts
are gone through once, whatever is known of the directory of all reports. -/

/-- **What a sight is made of keeps a relation** between the world before and after,
where the directory of all reports is one of those in question. -/
structure SightKept (known : String → Prop) (R : World → World → Prop) : Prop where
  refl (w : World) : R w w
  trans {w₁ w₂ w₃ : World} (h₁ : R w₁ w₂) (h₂ : R w₂ w₃) : R w₁ w₃
  read {f : String → Update String} (hf : ∀ a, known a → (f a).Keeps R) :
    (Update.read (·.desk.artifacts) >>= f).Keeps R
  directory (path : String) : (Update.makeDirectory path).Keeps R
  sight {artifacts directory name ending : String} (ha : known artifacts) (h : IsPlain name)
    (hdirectory : directory = "exec-debug" ∨ directory = "probe")
    (hending : ending = ".png" ∨ ending = ".html") (bytes : List UInt8) :
    (Update.writeFile (Path.child (Path.child artifacts directory) name ++ ending) bytes).Keeps R
  log (l : LogEntry) : (Update.log l).Keeps R
  print (n : Notice) : (Update.print n).Keeps R

namespace SightKept

variable {known : String → Prop} {R : World → World → Prop} (h : SightKept known R)
include h

theorem bind {u : Update α} {f : α → Update β} (hu : u.Keeps R) (hf : ∀ a, (f a).Keeps R) :
    (u >>= f).Keeps R := Update.Keeps.bind (R := R) h.trans hu hf

theorem pure (a : α) : (Pure.pure a : Update α).Keeps R := fun w => h.refl w

theorem writeImage {directory : String} (ha : known artifacts) (hname : IsPlain name)
    (hdirectory : directory = "exec-debug" ∨ directory = "probe") (image : Option (List UInt8)) :
    (writeImage (Path.child (Path.child artifacts directory) name ++ ".png") image).Keeps R := by
  unfold Report.writeImage
  split
  · exact h.pure ()
  · exact h.pure ()
  · exact h.sight ha hname hdirectory (.inl rfl) _

theorem writeSnapshot (c : Classification) (image : Option (List UInt8))
    (markup : Option String) : (writeSnapshot c image markup).Keeps R := by
  refine h.read fun artifacts ha => ?_
  have hname := isPlain_snapshotName c
  have hsaved (path : String) :
      (Update.log (.snapshotSaved path) >>= fun _ => Pure.pure path).Keeps R :=
    h.bind (h.log _) fun _ => h.pure path
  refine h.bind (h.directory _) fun _ => ?_
  refine h.bind (h.writeImage ha hname (.inl rfl) image) fun _ => ?_
  cases markup with
  | none => exact h.bind (h.pure ()) fun _ => hsaved _
  | some text =>
    refine h.bind (h.sight ha hname (.inl rfl) (.inr rfl) _) fun _ => ?_
    have hlast : IsPlain "last-page" := ⟨by decide, by decide, by decide⟩
    have hwrite := h.sight ha hlast (.inl rfl) (.inr rfl) (Text.toBytes text)
    rw [Path.child_append] at hwrite
    exact h.bind hwrite fun _ => hsaved _

theorem writeProbe (url : String) (image : Option (List UInt8)) (markup : Option String) :
    (writeProbe url image markup).Keeps R := by
  refine h.read fun artifacts ha => ?_
  have hname : IsPlain (Slug.nameOr url "page") :=
    isPlain_nameOr ⟨List.all_eq_true.1 (by decide), by decide, by decide⟩ url
  have hprinted (path : String) :
      (Update.print (.probed url path) >>= fun _ => Pure.pure path).Keeps R :=
    h.bind (h.print _) fun _ => h.pure path
  refine h.bind (h.directory _) fun _ => ?_
  refine h.bind (h.writeImage ha hname (.inr rfl) image) fun _ => ?_
  cases markup with
  | none => exact h.bind (h.pure ()) fun _ => hprinted _
  | some text => exact h.bind (h.sight ha hname (.inr rfl) (.inr rfl) _) fun _ => hprinted _

end SightKept

/-! ## What one change does -/

/-- What is remembered as the current directory is one of a document. -/
def IsCurrent (artifacts : String) (current : Option String) : Prop :=
  ∀ directory, current = some directory →
    ∃ name, IsPlain name ∧ directory = Path.below artifacts ["exec", name]

/-- A desk whose reports go below a directory. -/
structure Tidy (artifacts : String) (w : World) : Prop where
  root : w.desk.artifacts = artifacts
  current : IsCurrent artifacts w.desk.current

/-- The place of a file of a report, below that to which a directory leads. -/
def Under (artifacts : String) (t : FileTree) (l : Location) : Prop :=
  ∃ base parts, t.find artifacts = .ok base ∧ ReportFile parts ∧ l = base ++ parts

/-- **No file is touched but those of reports,** and those are written at their
paths. -/
structure Touches (artifacts : String) (w w' : World) : Prop where
  files : Alters (Under artifacts w'.files) w.files w'.files
  written : ∃ more, Chronicle.written w'.chronicle = Chronicle.written w.chronicle ++ more ∧
    ∀ e ∈ more, ∃ parts, ReportFile parts ∧ e.1 = Path.below artifacts parts

theorem Touches.of_eq {w w' : World} (hfiles : w'.files = w.files)
    (hwritten : Chronicle.written w'.chronicle = Chronicle.written w.chronicle) :
    Touches artifacts w w' where
  files := hfiles ▸ Alters.refl _ _
  written := ⟨[], by simp [hwritten], nofun⟩

theorem Touches.trans {w₁ w₂ w₃ : World} (h₁ : Touches artifacts w₁ w₂)
    (h₂ : Touches artifacts w₂ w₃) : Touches artifacts w₁ w₃ where
  files := by
    refine (h₁.files.mono ?_).trans h₂.files
    rintro l ⟨base, parts, hbase, hparts, hl⟩
    exact ⟨base, parts, h₂.files.find hbase, hparts, hl⟩
  written := by
    obtain ⟨more₁, hmore₁, hpaths₁⟩ := h₁.written
    obtain ⟨more₂, hmore₂, hpaths₂⟩ := h₂.written
    refine ⟨more₁ ++ more₂, by rw [hmore₂, hmore₁, List.append_assoc], fun e he => ?_⟩
    exact (List.mem_append.1 he).elim (hpaths₁ e) (hpaths₂ e)

/-- **The files of reports stay where they belong,** and the desk goes on so. -/
def Stays (artifacts : String) (w w' : World) : Prop :=
  Tidy artifacts w → Tidy artifacts w' ∧ Touches artifacts w w'

theorem Stays.trans {w₁ w₂ w₃ : World} (h₁ : Stays artifacts w₁ w₂) (h₂ : Stays artifacts w₂ w₃) :
    Stays artifacts w₁ w₃ := fun h =>
  have h₁ := h₁ h
  have h₂ := h₂ h₁.1
  ⟨h₂.1, h₁.2.trans h₂.2⟩

theorem stays_of_eq (hdesk : w'.desk = w.desk) (hfiles : w'.files = w.files)
    (hwritten : Chronicle.written w'.chronicle = Chronicle.written w.chronicle) :
    Stays artifacts w w' :=
  fun h => ⟨⟨hdesk ▸ h.root, hdesk ▸ h.current⟩, .of_eq hfiles hwritten⟩

theorem keeps_pure (a : α) : (Pure.pure a : Update α).Keeps (Stays artifacts) :=
  fun _ => stays_of_eq rfl rfl rfl

theorem Keeps.bind {u : Update α} {f : α → Update β} (hu : u.Keeps (Stays artifacts))
    (hf : ∀ a, (f a).Keeps (Stays artifacts)) : (u >>= f).Keeps (Stays artifacts) :=
  Update.Keeps.bind (R := Stays artifacts) Stays.trans hu hf

/-- What is read off a tidy desk is known as such. -/
theorem keeps_read {γ : Type} {g : World → γ} {f : γ → Update α} (P : γ → Prop)
    (hg : ∀ w, Tidy artifacts w → P (g w)) (hf : ∀ a, P a → (f a).Keeps (Stays artifacts)) :
    (Update.read g >>= f).Keeps (Stays artifacts) := fun w h => hf (g w) (hg w h) w h

/-- An entry that writes no file changes none. -/
theorem keeps_record {h : Happening} (hwritten : Chronicle.written [h] = []) :
    (Update.record h).Keeps (Stays artifacts) := by
  intro w
  refine stays_of_eq rfl rfl ?_
  show Chronicle.written (w.chronicle ++ [h]) = _
  rw [Chronicle.written_append, hwritten, List.append_nil]

/-- Making directories touches no file. -/
theorem keeps_makeDirectory (path : String) :
    (Update.makeDirectory path).Keeps (Stays artifacts) := by
  intro w htidy
  rw [Update.makeDirectory_snd]
  exact ⟨⟨htidy.root, htidy.current⟩, alters_makeDirectories w.files path, [],
    (List.append_nil _).symm, nofun⟩

/-- **A file of a report is written where it belongs,** or not at all. -/
theorem keeps_writeFile (hne : artifacts ≠ "") (h : ReportFile parts) (bytes : List UInt8) :
    (Update.writeFile (Path.below artifacts parts) bytes).Keeps (Stays artifacts) := by
  intro w htidy
  unfold Update.writeFile
  split
  · next files hwrite =>
    have hunder (l : Location) (hl : w.files.find (Path.below artifacts parts) = .ok l) :
        Under artifacts files l := by
      obtain ⟨base, hbase, rfl⟩ := find_below hne h.isName hl
      have halters : Alters (fun _ => True) w.files files := alters_write hwrite fun _ _ => trivial
      exact ⟨base, parts, halters.find hbase, h, rfl⟩
    refine ⟨⟨htidy.root, htidy.current⟩, alters_write hwrite hunder,
      [(Path.below artifacts parts, bytes)], ?_, fun e he => ⟨parts, h, ?_⟩⟩
    · exact Chronicle.written_append
    · rw [List.mem_singleton.1 he]
  · exact stays_of_eq rfl rfl rfl htidy

/-! ## What each report does -/

variable (hne : artifacts ≠ "")
include hne

theorem stays_writePlan (s : Suite) : (writePlan s).Keeps (Stays artifacts) := by
  refine keeps_read (· = artifacts) (fun w h => h.root) fun a ha => ?_
  subst ha
  have hname := isPlain_slugOf s.source
  refine Keeps.bind (fun w h => ⟨⟨h.root, ?_⟩, .of_eq rfl rfl⟩) fun _ => ?_
  · rintro directory ⟨⟩
    exact ⟨_, hname, rfl⟩
  refine Keeps.bind (keeps_makeDirectory _) fun _ => ?_
  refine Keeps.bind (fun w h => ⟨⟨h.root, h.current⟩, .of_eq rfl rfl⟩) fun _ => ?_
  exact Keeps.bind (keeps_writeFile hne (.plan hname) _) fun _ => keeps_pure _

theorem stays_writeResult (r : SuiteResult) : (writeResult r).Keeps (Stays artifacts) := by
  refine keeps_read (IsCurrent artifacts) (fun w h => h.current) fun current hcurrent => ?_
  cases current with
  | none => exact keeps_pure none
  | some directory =>
    obtain ⟨name, hname, rfl⟩ := hcurrent directory rfl
    exact Keeps.bind (keeps_writeFile hne (.result hname) _) fun _ => keeps_pure _

theorem stays_keepPage (markup : String) : (keepPage markup).Keeps (Stays artifacts) := by
  refine keeps_read (IsCurrent artifacts) (fun w h => h.current) fun current hcurrent => ?_
  cases current with
  | none => exact keeps_pure none
  | some directory =>
    obtain ⟨name, hname, rfl⟩ := hcurrent directory rfl
    refine Keeps.bind (fun w h => ⟨⟨h.root, h.current⟩, .of_eq rfl rfl⟩) fun _ => ?_
    refine Keeps.bind (keeps_makeDirectory _) fun _ => ?_
    refine keeps_read (fun _ => True) (fun _ _ => trivial) fun pages _ => ?_
    obtain ⟨digits, hpages, hdigits, hfilled⟩ := allDigits_threeDigits pages
    have hwrite := keeps_writeFile hne (.page hname hdigits hfilled) (Text.toBytes markup)
    rw [← hpages] at hwrite
    exact Keeps.bind hwrite fun _ => keeps_pure _

/-- **What is seen stays where it belongs.** -/
theorem sightKept_stays : SightKept (· = artifacts) (Stays artifacts) where
  refl _ := stays_of_eq rfl rfl rfl
  trans := Stays.trans
  read hf := keeps_read (· = artifacts) (fun _ h => h.root) hf
  directory := keeps_makeDirectory
  sight ha h hdirectory hending bytes := by
    rw [ha, Path.child_append]
    exact keeps_writeFile hne (.sight h hdirectory hending) bytes
  log _ := keeps_record rfl
  print _ := keeps_record rfl

/-! ## All that is reported -/

omit hne

/-- What can be reported. -/
inductive Filing where
  | plan (s : Suite)
  | result (r : SuiteResult)
  | page (markup : String)
  | snapshot (c : Classification) (image : Option (List UInt8)) (markup : Option String)
  | probe (url : String) (image : Option (List UInt8)) (markup : Option String)
  | finished (r : SuiteResult)
  | notice (n : Notice)

/-- The world once something has been reported, or could not be. -/
def Filing.after (w : World) : Filing → World
  | plan s => (writePlan s w).2
  | result r => (writeResult r w).2
  | page markup => (keepPage markup w).2
  | snapshot c image markup => (writeSnapshot c image markup w).2
  | probe url image markup => (writeProbe url image markup w).2
  | finished r => (suiteFinished r w).2
  | notice n => (Update.print n w).2

/-- The world once several things have been reported, whatever each came to. -/
def filed (w : World) (fs : List Filing) : World := fs.foldl Filing.after w

theorem stays_after (hne : artifacts ≠ "") (w : World) (f : Filing) :
    Stays artifacts w (f.after w) := by
  cases f with
  | plan s => exact stays_writePlan hne s w
  | result r => exact stays_writeResult hne r w
  | page markup => exact stays_keepPage hne markup w
  | snapshot c image markup => exact (sightKept_stays hne).writeSnapshot c image markup w
  | probe url image markup => exact (sightKept_stays hne).writeProbe url image markup w
  | finished r => exact Keeps.bind (stays_writeResult hne r) (fun _ => keeps_record rfl) w
  | notice n => exact keeps_record rfl w

theorem stays_filed (hne : artifacts ≠ "") (fs : List Filing) (w : World) :
    Stays artifacts w (filed w fs) := by
  induction fs generalizing w with
  | nil => exact stays_of_eq rfl rfl rfl
  | cons f fs ih => exact (stays_after hne w f).trans (ih (f.after w))

/-- **Whatever is reported stays below the directory of all reports,** in any order
and whatever each report comes to. A place holds afterwards what it held, or a
directory where nothing was, or it is that of a file of a report; and each path that
was written is that of such a file. -/
theorem filed_within (w : World) (directory : String) (hdesk : w.desk = Desk.at directory)
    (fs : List Filing) : Touches (Path.plain directory) w (filed w fs) := by
  have htidy : Tidy (Path.plain directory) w := by
    refine ⟨by rw [hdesk]; rfl, fun current hcurrent => ?_⟩
    rw [hdesk] at hcurrent
    cases hcurrent
  exact (stays_filed (Path.plain_ne_empty directory) fs w htidy).2

/-- A world whose reports go to a directory that is not there yet. -/
def unreported : World := { World.start {} {} with desk := .at "./out//reports" }

/-- Reports called after what would lead elsewhere. -/
def intruders : List Filing := [
  .page "before any document",
  .plan { name := "a", source := some "/../.." },
  .page "<html>",
  .snapshot { kind := .click, raw := "", target := some "../x.y" } none (some "<html>"),
  .probe "../.." (some [1]) none]

/-- They stay where they belong. -/
theorem filed_within_intruders :
    unreported.desk = Desk.at "./out//reports" ∧
      Touches "out/reports" unreported (filed unreported intruders) ∧
      (filed unreported intruders).files.files.map (·.1) =
        ["out/reports/exec/document/meta.json", "out/reports/exec/document/pages/001.html",
          "out/reports/exec-debug/click-x-y.html", "out/reports/exec-debug/last-page.html",
          "out/reports/probe/page.png"] := by
  have htouches := filed_within unreported "./out//reports" rfl intruders
  have hplain : Path.plain "./out//reports" = "out/reports" := by decide
  rw [hplain] at htouches
  exact ⟨rfl, htouches, by decide +kernel⟩

end Walkthrough.Report
