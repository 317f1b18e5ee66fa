import Walkthrough.Proofs.Report.Within
/-!
# Kept pages

The pages of a document are numbered from its plan on, and each stands in a file
called after its number. No two numbers have the same name, however many digits they
have, and no other report goes to the directory of the pages. So a page that has been
kept is there until the next plan at least, whatever else is reported
(`pages_numbered`); and without a plan there is nowhere to keep one.
-/

namespace Walkthrough.Report

open FileTree

variable {α β : Type} {w w' : World} {l : Location} {t : FileTree} {path directory name : String}
  {bytes : List UInt8} {j k : Nat} {f : Filing} {fs : List Filing}

/-! ## Numbers in names -/

/-- **A number with zeros in front,** as many as it lacks of three digits. -/
structure Padded (k : Nat) (name : String) : Prop where
  digits : Double.AllDigits name.toList
  value : Double.digitsValue name.toList = k
  length : 3 ≤ name.toList.length
  head : 3 < name.toList.length → name.toList.head? ≠ some '0'

theorem padded_threeDigits (k : Nat) : Padded k (threeDigits k) := by
  unfold threeDigits
  dsimp only
  constructor <;> rw [String.toList_ofList]
  · exact (Double.AllDigits.zeros _).append (Double.allDigits_toDigits k)
  · rw [Double.digitsValue_zeros_append, Double.digitsValue_toDigits]
  · rw [List.length_append, List.length_replicate]
    omega
  · intro hlong
    -- where there are more than three digits there is no zero in front
    have hnone : 3 - (Nat.toDigits 10 k).length = 0 := by
      rw [List.length_append, List.length_replicate] at hlong
      omega
    rw [hnone, List.replicate_zero, List.nil_append]
    refine Double.head?_toDigits fun hzero => ?_
    rw [hzero] at hnone
    cases hnone

/-- **Different numbers have different names.** -/
theorem threeDigits_injective : Function.Injective threeDigits := by
  intro j k h
  rw [← (padded_threeDigits j).value, h, (padded_threeDigits k).value]

/-- The name of the page of a number. -/
def pageName (k : Nat) : String := threeDigits k ++ ".html"

/-- Where the page of a number is, in the directory of a document. -/
def pagePath (directory : String) (k : Nat) : String :=
  Path.child (Path.child directory "pages") (pageName k)

theorem pageName_inj : pageName j = pageName k ↔ j = k := by
  unfold pageName
  rw [String.append_left_inj]
  exact threeDigits_injective.eq_iff

/-- **No two pages of a document share a path.** -/
theorem pagePath_injective (directory : String) : Function.Injective (pagePath directory) :=
  fun _ _ h => pageName_inj.1 (Path.child_inj.1 h)

theorem isName_pageName (k : Nat) : Path.IsName (pageName k) ∧ pageName k ≠ ".." := by
  refine isName_append (fun hmem => ?_) (by decide) (by decide)
  cases (padded_threeDigits k).digits _ hmem

/-! ## The places of pages -/

/-- The place of the page of a number, in any directory of pages. -/
def IsPage (k : Nat) (l : Location) : Prop := ["pages", pageName k] <:+ l

/-- The place of a report that is no page: a JSON file, or one in a directory of
another name. -/
def Beside (l : Location) : Prop :=
  EndsIn ".json" l ∨ ∃ parent name, parent ≠ "pages" ∧ [parent, name] <:+ l

/-- The last two names of a place are what they are. -/
theorem pair_inj {a b a' b' : String} (h : [a, b] <:+ l) (h' : [a', b'] <:+ l) :
    a = a' ∧ b = b' := by
  have hsame := (List.suffix_of_suffix_length_le h h' (le_refl 2)).eq_of_length rfl
  simpa using hsame

theorem isPage_inj (h : IsPage j l) (h' : IsPage k l) : j = k := pageName_inj.1 (pair_inj h h').2

theorem Beside.not_isPage (h : Beside l) : ¬IsPage k l := by
  intro hpage
  rcases h with hjson | ⟨parent, name, hne, hl⟩
  · -- the name of a page ends in another way
    have hhtml : EndsIn ".html" l := by
      obtain ⟨above, rfl⟩ := hpage
      exact ⟨pageName k, by simp, isSuffix_append _ _⟩
    have hends := hjson.suffix_or_suffix hhtml
    revert hends
    decide
  · exact hne (pair_inj hl hpage).1

/-- A path leads to the place of the last two names in it. -/
theorem isSuffix_of_find_child_child {parent : String}
    (hparent : Path.IsName parent ∧ parent ≠ "..") (hname : Path.IsName name ∧ name ≠ "..")
    (hl : t.find (Path.child (Path.child path parent) name) = .ok l) : [parent, name] <:+ l := by
  obtain ⟨front, hfront⟩ := Path.exists_parts_child_child path hparent.1 hname.1
  refine isSuffix_of_find hfront (fun n hn => ?_) hl
  rcases List.mem_cons.1 hn with rfl | hn
  · exact hparent.2
  · rw [List.mem_singleton.1 hn]
    exact hname.2

theorem isPage_of_find (hl : t.find (pagePath directory k) = .ok l) : IsPage k l :=
  isSuffix_of_find_child_child ⟨⟨by decide, by decide⟩, by decide⟩ (isName_pageName k) hl

/-! ## What a report does -/

/-- **The desk is left as it is, and no files are altered** but some, which may depend
on the desk. -/
def Alone (S : Desk → Location → Prop) (w w' : World) : Prop :=
  w'.desk = w.desk ∧ Alters (S w.desk) w.files w'.files

namespace Alone

variable {S : Desk → Location → Prop}

theorem of_eq (hdesk : w'.desk = w.desk) (hfiles : w'.files = w.files) : Alone S w w' :=
  ⟨hdesk, hfiles ▸ Alters.refl _ _⟩

theorem trans {w₁ w₂ w₃ : World} (h₁ : Alone S w₁ w₂) (h₂ : Alone S w₂ w₃) : Alone S w₁ w₃ := by
  refine ⟨h₂.1.trans h₁.1, h₁.2.trans ?_⟩
  rw [← h₁.1]
  exact h₂.2

theorem bind {u : Update α} {g : α → Update β} (hu : u.Keeps (Alone S))
    (hg : ∀ a, (g a).Keeps (Alone S)) : (u >>= g).Keeps (Alone S) :=
  Update.Keeps.bind (R := Alone S) trans hu hg

theorem makeDirectory (path : String) : (Update.makeDirectory path).Keeps (Alone S) := by
  intro w
  rw [Update.makeDirectory_snd]
  exact ⟨rfl, alters_makeDirectories w.files path⟩

theorem writeFile (h : ∀ l, w.files.find path = .ok l → S w.desk l) (bytes : List UInt8) :
    Alone S w (Update.writeFile path bytes w).2 := by
  unfold Update.writeFile
  split
  · next files hwrite => exact ⟨rfl, alters_write hwrite h⟩
  · exact of_eq rfl rfl

end Alone

/-- A report that is no page goes beside the pages. -/
def Aside : World → World → Prop := Alone fun _ => Beside

theorem aside_writeResult (r : SuiteResult) : (writeResult r).Keeps Aside := by
  refine Alone.bind (fun w => .of_eq rfl rfl) fun current => ?_
  cases current with
  | none => exact fun w => .of_eq rfl rfl
  | some directory =>
    refine Alone.bind (fun w => Alone.writeFile (fun l hl => .inl ?_) _) fun _ w => .of_eq rfl rfl
    have hending : ".json".toList <:+ (Path.child directory "result.json").toList :=
      (isSuffix_append "result" ".json").trans (Path.isSuffix_child _ "result.json")
    exact endsIn_of_find hending (by decide) (by decide) hl

/-- What was seen goes to a directory of its own. -/
theorem sightKept_aside : SightKept (fun _ => True) Aside where
  refl _ := .of_eq rfl rfl
  trans := Alone.trans
  read hf w := hf w.desk.artifacts trivial w
  directory := Alone.makeDirectory
  sight {artifacts directory name ending} _ h hdirectory hending bytes := by
    have hparent : directory ≠ "pages" ∧ Path.IsName directory ∧ directory ≠ ".." := by
      rcases hdirectory with rfl | rfl
      · exact ⟨by decide, ⟨by decide, by decide⟩, by decide⟩
      · exact ⟨by decide, ⟨by decide, by decide⟩, by decide⟩
    have hname : Path.IsName (name ++ ending) ∧ name ++ ending ≠ ".." := by
      rcases hending with rfl | rfl
      · exact isName_append h.slash (by decide) (by decide)
      · exact isName_append h.slash (by decide) (by decide)
    have hbeside {t : FileTree} {l : Location}
        (hl : t.find (Path.child (Path.child artifacts directory) name ++ ending) = .ok l) :
        Beside l := by
      rw [Path.child_append] at hl
      exact .inr ⟨directory, name ++ ending, hparent.1,
        isSuffix_of_find_child_child hparent.2 hname hl⟩
    exact fun w => Alone.writeFile (fun l hl => hbeside hl) bytes
  log _ _ := .of_eq rfl rfl
  print _ _ := .of_eq rfl rfl

/-- A page goes to the file of the number that the desk shows. -/
def storePage (directory markup : String) : Update (Option String) := do
  .makeDirectory (Path.child directory "pages")
  let path := pagePath directory (← .read (·.desk.pages))
  writeText path markup
  return some path

/-- **Keeping a page** counts it first. -/
theorem keepPage_eq (markup : String) (hw : w.desk.current = some directory) :
    keepPage markup w =
      storePage directory markup { w with desk := { w.desk with pages := w.desk.pages + 1 } } := by
  unfold keepPage
  rw [Update.read_bind, hw]
  dsimp only
  rw [Update.change_bind]
  rfl

/-- Without a current directory there is nowhere to keep it. -/
theorem keepPage_of_none (markup : String) (hw : w.desk.current = none) :
    keepPage markup w = (.ok none, w) := by
  unfold keepPage
  rw [Update.read_bind, hw]
  rfl

theorem alone_storePage (directory markup : String) :
    (storePage directory markup).Keeps (Alone fun desk => IsPage desk.pages) := by
  refine Alone.bind (Alone.makeDirectory _) fun _ w => ?_
  -- the number is read off the desk, so the world it is read in is kept in sight
  have hwrite : Alone (fun desk => IsPage desk.pages) w
      (writeText (pagePath directory w.desk.pages) markup w).2 :=
    Alone.writeFile (fun l hl => isPage_of_find hl) _
  rw [Update.read_bind]
  show Alone _ w (Update.bind _ _ w).2
  unfold Update.bind
  rcases hresult : writeText (pagePath directory w.desk.pages) markup w with ⟨r, w'⟩
  rw [hresult] at hwrite
  cases r <;> exact hwrite

/-- **A page that was kept** can be read under its number. -/
theorem storePage_eq_ok {markup : String} {found : Option String}
    (h : storePage directory markup w = (.ok found, w')) :
    found = some (pagePath directory w.desk.pages) ∧
      w'.files.read (pagePath directory w.desk.pages) = .ok (Text.toBytes markup) := by
  unfold storePage at h
  obtain ⟨_, w₁, hmake, h⟩ := Update.bind_eq_ok h
  have hpages : w₁.desk.pages = w.desk.pages := by rw [Update.makeDirectory_eq_ok hmake]
  rw [Update.read_bind] at h
  obtain ⟨_, w₂, hwrite, h⟩ := Update.bind_eq_ok h
  cases h
  rw [← hpages]
  refine ⟨rfl, read_of_write (Update.writeFile_eq_ok hwrite).2 ?_⟩
  have hending : ".html".toList <:+ (pagePath directory w₁.desk.pages).toList :=
    (isSuffix_append _ ".html").trans (Path.isSuffix_child _ _)
  exact asksForDirectory_of_ending hending (by decide) (by decide)

/-! ## Reports between two plans -/

/-- What is reported is a plan. -/
def Filing.isPlan : Filing → Bool
  | plan _ => true
  | _ => false

/-- What is reported is a page. -/
def Filing.isPage : Filing → Bool
  | page _ => true
  | _ => false

/-- **What a report that is no plan does** to the world, if it is no page, and if it
is one. -/
inductive Effect (w w' : World) : Bool → Prop
  | beside (h : Aside w w') : Effect w w' false
  | nowhere (hw : w.desk.current = none) (h : w' = w) : Effect w w' true
  | page {directory : String} (hw : w.desk.current = some directory)
    (hdesk : w'.desk = { w.desk with pages := w.desk.pages + 1 })
    (hfiles : Alters (IsPage (w.desk.pages + 1)) w.files w'.files) : Effect w w' true

theorem effect_keepPage (w : World) (markup : String) : Effect w (keepPage markup w).2 true := by
  cases hw : w.desk.current with
  | none => exact .nowhere hw (by rw [keepPage_of_none markup hw])
  | some directory =>
    rw [keepPage_eq markup hw]
    have halone := alone_storePage directory markup
      { w with desk := { w.desk with pages := w.desk.pages + 1 } }
    generalize storePage directory markup _ = result at halone ⊢
    exact .page hw halone.1 halone.2

/-- **The effect of a report,** whatever it comes to. -/
theorem effect_after (w : World) (hplan : f.isPlan = false) : Effect w (f.after w) f.isPage := by
  cases f with
  | plan s => cases hplan
  | page markup => exact effect_keepPage w markup
  | result r => exact .beside (aside_writeResult r w)
  | snapshot c image markup => exact .beside (sightKept_aside.writeSnapshot c image markup w)
  | probe url image markup => exact .beside (sightKept_aside.writeProbe url image markup w)
  | finished r =>
    exact .beside (Alone.bind (aside_writeResult r) (fun _ w => .of_eq rfl rfl) w)
  | notice n => exact .beside (.of_eq rfl rfl)

/-- A directory is the current one, and so many pages have been counted. -/
structure Counts (directory : String) (n : Nat) (w : World) : Prop where
  current : w.desk.current = some directory
  pages : w.desk.pages = n

/-- **Pages are counted,** and nothing else is. -/
theorem Counts.after {n : Nat} {isPage : Bool} (h : Counts directory n w)
    (he : Effect w w' isPage) : Counts directory (n + isPage.toNat) w' := by
  cases he with
  | beside haside => exact ⟨by rw [haside.1, h.current], by rw [haside.1, h.pages]; rfl⟩
  | nowhere hw =>
    rw [h.current] at hw
    cases hw
  | page _ hdesk _ => exact ⟨by rw [hdesk, ← h.current], by rw [hdesk, ← h.pages]; rfl⟩

theorem Counts.filed {n : Nat} (h : Counts directory n w) (hfs : ∀ f ∈ fs, f.isPlan = false) :
    Counts directory (n + fs.countP (·.isPage)) (filed w fs) := by
  induction fs generalizing w n with
  | nil => exact h
  | cons f fs ih =>
    have hnext := h.after (effect_after w (hfs f List.mem_cons_self))
    have hrest := ih hnext fun g hg => hfs g (List.mem_cons_of_mem _ hg)
    have hcount : n + (f :: fs).countP (·.isPage) =
        n + f.isPage.toNat + fs.countP (·.isPage) := by
      rw [List.countP_cons]
      cases f.isPage <;> simp [Nat.add_comm, Nat.add_left_comm]
    rw [hcount]
    exact hrest

/-- A page of the current directory has been kept. -/
structure Shelved (directory : String) (k : Nat) (bytes : List UInt8) (w : World) : Prop where
  current : w.desk.current = some directory
  counted : k ≤ w.desk.pages
  kept : w.files.read (pagePath directory k) = .ok bytes

/-- **A page that has been kept stays,** whatever is reported next: the next page
has another number. -/
theorem Shelved.after {isPage : Bool} (h : Shelved directory k bytes w)
    (he : Effect w w' isPage) : Shelved directory k bytes w' := by
  cases he with
  | beside haside =>
    refine ⟨by rw [haside.1, h.current], by rw [haside.1]; exact h.counted, ?_⟩
    exact haside.2.read (fun l hl hbeside => hbeside.not_isPage (isPage_of_find hl)) h.kept
  | nowhere hw =>
    rw [h.current] at hw
    cases hw
  | page _ hdesk hfiles =>
    have hcounted := h.counted
    refine ⟨by rw [hdesk, ← h.current], by rw [hdesk]; exact Nat.le_succ_of_le hcounted, ?_⟩
    refine hfiles.read (fun l hl hpage => ?_) h.kept
    have hsame := isPage_inj (isPage_of_find hl) hpage
    omega

theorem Effect.current_of_none {isPage : Bool} (he : Effect w w' isPage)
    (hw : w.desk.current = none) : w'.desk.current = none := by
  cases he with
  | beside haside => rw [haside.1, hw]
  | nowhere _ hsame => rw [hsame, hw]
  | page hcurrent _ _ =>
    rw [hw] at hcurrent
    cases hcurrent

theorem Shelved.filed (h : Shelved directory k bytes w) (hfs : ∀ f ∈ fs, f.isPlan = false) :
    Shelved directory k bytes (filed w fs) := by
  induction fs generalizing w with
  | nil => exact h
  | cons f fs ih =>
    exact ih (h.after (effect_after w (hfs f List.mem_cons_self)))
      fun g hg => hfs g (List.mem_cons_of_mem _ hg)

/-- Before the first plan there is no current directory. -/
theorem current_filed (hw : w.desk.current = none) (hfs : ∀ f ∈ fs, f.isPlan = false) :
    (filed w fs).desk.current = none := by
  induction fs generalizing w with
  | nil => exact hw
  | cons f fs ih =>
    have hnext := (effect_after w (hfs f List.mem_cons_self)).current_of_none hw
    exact ih hnext fun g hg => hfs g (List.mem_cons_of_mem _ hg)

/-! ## Pages between two plans -/

theorem filed_cons (w : World) (f : Filing) (fs : List Filing) :
    filed w (f :: fs) = filed (f.after w) fs := rfl

theorem filed_append (w : World) (fs gs : List Filing) :
    filed w (fs ++ gs) = filed (filed w fs) gs :=
  List.foldl_append

/-- Reports go where they went at first. -/
theorem artifacts_filed (directory : String) (hw : w.desk = Desk.at directory) (fs : List Filing) :
    (filed w fs).desk.artifacts = Path.plain directory := by
  have htidy : Tidy (Path.plain directory) w := by
    refine ⟨by rw [hw]; rfl, fun current hcurrent => ?_⟩
    rw [hw] at hcurrent
    cases hcurrent
  exact (stays_filed (Path.plain_ne_empty directory) fs w htidy).1.root

theorem eq_of_fst {u : Update α} {r : Except Fault α} (h : (u w).1 = r) : u w = (r, (u w).2) := by
  rw [← h]

/-- A plan that was written opens its directory, where no page has been counted. -/
theorem counts_of_writePlan {s : Suite} {planned : String}
    (h : (writePlan s w).1 = .ok planned) :
    Counts (documentDirectory w.desk.artifacts s.source) 0 (writePlan s w).2 := by
  have hwrite := eq_of_fst h
  have hdesk := congrArg World.desk (writePlan_eq_ok hwrite).2.1
  exact ⟨by rw [hdesk], by rw [hdesk]⟩

/-- A page that is kept goes under the next number. -/
theorem shelved_keepPage {n : Nat} {markup : String} {found : Option String}
    (h : Counts directory n w) (hpage : (keepPage markup w).1 = .ok found) :
    found = some (pagePath directory (n + 1)) ∧
      Shelved directory (n + 1) (Text.toBytes markup) (keepPage markup w).2 := by
  obtain ⟨hcurrent, rfl⟩ := h
  have hcounted := Counts.after ⟨hcurrent, rfl⟩ (effect_keepPage w markup)
  have hstore := eq_of_fst hpage
  rw [keepPage_eq markup hcurrent] at hstore
  obtain ⟨hfound, hread⟩ := storePage_eq_ok hstore
  rw [← keepPage_eq markup hcurrent] at hread
  exact ⟨hfound, hcounted.current, le_of_eq hcounted.pages.symm, hread⟩

/-- **Pages are numbered from the plan of their document on,** by a number with at
least three digits, and kept until the next plan at least, whatever else is reported
and whatever that comes to. The numbers give different paths, any number of them.
Before the first plan nothing is kept. -/
theorem pages_numbered (w : World) (directory : String) (hdesk : w.desk = Desk.at directory) :
    (∀ (fs : List Filing) (markup : String), (∀ f ∈ fs, f.isPlan = false) →
      keepPage markup (filed w fs) = (.ok none, filed w fs)) ∧
    (∀ (earlier between later : List Filing) (s : Suite) (markup planned : String)
        (found : Option String), (∀ f ∈ between ++ later, f.isPlan = false) →
      (writePlan s (filed w earlier)).1 = .ok planned →
      (keepPage markup (filed w (earlier ++ .plan s :: between))).1 = .ok found →
      found = some (pagePath (documentDirectory (Path.plain directory) s.source)
        (between.countP (·.isPage) + 1)) ∧
      (filed w (earlier ++ .plan s :: (between ++ .page markup :: later))).files.read
        (pagePath (documentDirectory (Path.plain directory) s.source)
          (between.countP (·.isPage) + 1)) = .ok (Text.toBytes markup)) ∧
    (∀ document, Function.Injective (pagePath document)) ∧ ∀ k, Padded k (threeDigits k) := by
  refine ⟨fun fs markup hfs => ?_, ?_, pagePath_injective, padded_threeDigits⟩
  · exact keepPage_of_none markup (current_filed (by rw [hdesk]; rfl) hfs)
  intro earlier between later s markup planned found hfs hplan hpage
  have hplanned := counts_of_writePlan hplan
  rw [artifacts_filed directory hdesk] at hplanned
  have hcounts := hplanned.filed fun f hf => hfs f (List.mem_append_left _ hf)
  rw [Nat.zero_add] at hcounts
  have hbetween : filed w (earlier ++ .plan s :: between) =
      filed ((Filing.plan s).after (filed w earlier)) between := by rw [filed_append, filed_cons]
  rw [hbetween] at hpage
  obtain ⟨hfound, hshelved⟩ := shelved_keepPage hcounts hpage
  have hlater := hshelved.filed fun f hf => hfs f (List.mem_append_right _ hf)
  rw [filed_append, filed_cons, filed_append, filed_cons]
  exact ⟨hfound, hlater.kept⟩

/-- A document called after the directory of pages. -/
def paged : Suite := { name := "a", source := some "docs/pages.md" }

/-- A page that comes too early. -/
def earlyPage : List Filing := [.page "zero"]

/-- What is reported of the document before its second page. -/
def firstPage : List Filing := [.page "one"]

/-- What is reported behind that. -/
def thirdPage : List Filing :=
  [.probe "002" none (some "y"), .page "three",
    .snapshot { kind := .click, raw := "" } none (some "x")]

/-- The second page is the second of its document, whatever comes before the plan and
behind the page. -/
theorem pages_numbered_second :
    unreported.desk = Desk.at "./out//reports" ∧
      (∀ f ∈ firstPage ++ thirdPage, f.isPlan = false) ∧
      (keepPage "two" (filed unreported (earlyPage ++ Filing.plan paged :: firstPage))).1 =
        .ok (some "out/reports/exec/pages/pages/002.html") ∧
      (filed unreported (earlyPage ++ Filing.plan paged ::
        (firstPage ++ Filing.page "two" :: thirdPage))).files.read
          "out/reports/exec/pages/pages/002.html" = .ok (Text.toBytes "two") := by
  have hfs : ∀ f ∈ firstPage ++ thirdPage, f.isPlan = false := by
    intro f hf
    simp only [firstPage, thirdPage, List.cons_append, List.nil_append, List.mem_cons,
      List.not_mem_nil, or_false] at hf
    rcases hf with rfl | rfl | rfl | rfl <;> rfl
  have hplan : (writePlan paged (filed unreported earlyPage)).1 =
      .ok "out/reports/exec/pages/meta.json" := by decide +kernel
  have hpage : (keepPage "two" (filed unreported (earlyPage ++ Filing.plan paged :: firstPage))).1 =
      .ok (some "out/reports/exec/pages/pages/002.html") := by decide +kernel
  obtain ⟨-, hnumbered, -, -⟩ := pages_numbered unreported "./out//reports" rfl
  obtain ⟨hfound, hread⟩ := hnumbered earlyPage firstPage thirdPage paged "two" _ _ hfs hplan hpage
  rw [← Option.some.inj hfound] at hread
  exact ⟨rfl, hfs, hpage, hread⟩

end Walkthrough.Report
