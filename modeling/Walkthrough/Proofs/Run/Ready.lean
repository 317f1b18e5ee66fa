import Walkthrough.Proofs.Run.Terse
/-!
# A run whose reports can be written

Where the directory of a document is there already and holds no directory in
the place of a file, the plan and the result of the document can be written
(`writePlan_ready`, `suiteFinished_planned`). With the server of few words
nothing is written in between, so such a run ends as the cases do, and the one
answer of that server decides how (`exists_terse_run`).
-/

namespace Walkthrough

open FileTree

variable {name : String} {w : World}

namespace Report

/-! ## The directory of a document -/

/-- The place of a document's reports. -/
def home (name : String) : List String := ["artifacts", "exec", name]

/-- **The directory of a document** is such a place, by a short name. -/
theorem exists_home (source : Option String) :
    ∃ name, Slug.IsShortName name ∧
      documentDirectory "artifacts" source = Path.join (home name) := by
  obtain ⟨stem, hstem⟩ : ∃ stem, documentDirectory "artifacts" source =
      Path.child (Path.child "artifacts" "exec") (Slug.nameOr stem unnamedDocument) := ⟨_, rfl⟩
  have hdocument : Slug.IsShortName unnamedDocument :=
    ⟨List.all_eq_true.1 (by decide), by decide, by decide⟩
  have hexec : Path.child "artifacts" "exec" = Path.join ["artifacts", "exec"] := by decide
  have hnames : ∀ p ∈ ["artifacts", "exec"], Path.IsName p := by
    intro p hp
    simp only [List.mem_cons, List.not_mem_nil, or_false] at hp
    rcases hp with rfl | rfl
    · exact ⟨by decide, by decide⟩
    · exact ⟨by decide, by decide⟩
  refine ⟨Slug.nameOr stem unnamedDocument, Slug.isShortName_nameOr hdocument, ?_⟩
  rw [hstem, hexec, Path.child_join hnames (by simp)]
  rfl

theorem fits_of_isShortName (h : Slug.IsShortName name) : Fits name where
  name := Slug.isName_of_isShortName h
  notUp := by
    rintro rfl
    exact (Slug.of_isSlugChar (h.chars '.' (by decide))).2.1 rfl
  short := by
    have := Slug.utf8ByteSize_of_isShortName h
    unfold nameLimit
    omega
  noZero hz := (Slug.of_isSlugChar (h.chars _ hz)).2.2.1 rfl

theorem fits_home (h : Slug.IsShortName name) : ∀ p ∈ home name, Fits p := by
  intro p hp
  simp only [home, List.mem_cons, List.not_mem_nil, or_false] at hp
  rcases hp with rfl | rfl | rfl
  · exact ⟨⟨by decide, by decide⟩, by decide, by decide, by decide⟩
  · exact ⟨⟨by decide, by decide⟩, by decide, by decide, by decide⟩
  · exact fits_of_isShortName h

/-- **The directory is open for a file:** it and those above it are there, and
no directory stands in the place of the file. -/
structure Open (t : FileTree) (name file : String) : Prop where
  above : t.Reaches (home name)
  there : t.node? (home name) = some .directory
  free : t.node? (home name ++ [file]) ≠ some .directory

/-- So the file can be written. -/
theorem write_of_open {t : FileTree} {file : String} (h : Slug.IsShortName name)
    (hf : Fits file) (ho : Open t name file) (bytes : List UInt8) :
    t.write (Path.child (Path.join (home name)) file) bytes =
      .ok (t.put (home name ++ [file]) (.file bytes)) := by
  have hfits : ∀ p ∈ home name ++ [file], Fits p := by
    intro p hp
    rcases List.mem_append.1 hp with hp | hp
    · exact fits_home h p hp
    · rw [List.mem_singleton.1 hp]
      exact hf
  have hreach : t.Reaches (home name ++ [file]) := by
    intro k hk
    rw [List.length_append, List.length_singleton] at hk
    rcases Nat.lt_or_ge k (home name).length with hlt | hge
    · rw [List.take_append_of_le_length (by omega)]
      exact ho.above k hlt
    · have hk' : k = (home name).length := by omega
      rw [hk', List.take_left']
      · exact ho.there
      · rfl
  rw [Path.child_join (fun p hp => (fits_home h p hp).name) (by simp [home])]
  exact write_join hfits (by simp) (by simp [home]) hreach ho.free bytes

/-! ## A world to write in -/

/-- A connected session, and the directory of a document's reports. -/
def ready (name : String) : World where
  connection := ⟨["server"], true, false, false⟩
  desk := .at "artifacts"
  files := ⟨[(["artifacts"], .directory), (["artifacts", "exec"], .directory),
    (home name, .directory)]⟩

theorem open_ready (name file : String) : Open (ready name).files name file where
  above := by
    intro k hk
    have hk : k = 0 ∨ k = 1 ∨ k = 2 := by
      have : k < 3 := hk
      omega
    rcases hk with rfl | rfl | rfl <;> rfl
  there := by simp [ready, home, node?, Location.isTop, Location.root]
  free := by simp [ready, home, node?, Location.isTop, Location.root]

/-- Writing one file leaves the directory open for another. -/
theorem Open.put {t : FileTree} {file other : String} (h : Open t name file) (hne : file ≠ other)
    (bytes : List UInt8) : Open (t.put (home name ++ [other]) (.file bytes)) name file := by
  have htop : Location.isTop (home name ++ [other]) = false := by
    simp [home, Location.isTop, Location.root]
  have hother : ∀ l : Location, l ≠ home name ++ [other] →
      (t.put (home name ++ [other]) (.file bytes)).node? l = t.node? l := by
    intro l hl
    rw [node?_put t _ htop, if_neg hl]
  -- the other file lies below the directory, so nothing above is touched
  refine ⟨fun k hk => ?_, ?_, ?_⟩
  · rw [hother]
    · exact h.above k hk
    · intro heq
      have hlen := congrArg List.length heq
      rw [List.length_append, List.length_take] at hlen
      simp at hlen
      omega
  · rw [hother _ (by simp)]
    exact h.there
  · rw [hother _ (by simpa using hne)]
    exact h.free

/-- What is left to a run once the plan is written: a desk at the document, and
room for the result. -/
structure Planned (name : String) (w : World) : Prop where
  current : w.desk.current = some (Path.join (home name))
  room : Open w.files name "result.json"

theorem fits_file {file : String} (h : file = "meta.json" ∨ file = "result.json") : Fits file := by
  rcases h with rfl | rfl
  · exact ⟨⟨by decide, by decide⟩, by decide, by decide, by decide⟩
  · exact ⟨⟨by decide, by decide⟩, by decide, by decide, by decide⟩

/-- A directory that is there is made without any change. -/
theorem makeDirectory_of_open {file : String} (h : Slug.IsShortName name)
    (ho : Open w.files name file) :
    Update.makeDirectory (Path.join (home name)) w = (.ok (), w) := by
  unfold Update.makeDirectory
  rw [makeDirectories_of_directory (fits_home h) (by simp [home]) (by simp [home]) ho.above ho.there]

/-- A file is written where there is room for it, and for no other reason does
anything change but the files and the chronicle. -/
theorem writeFile_of_open {file : String} (h : Slug.IsShortName name) (hf : Fits file)
    (ho : Open w.files name file) (bytes : List UInt8) :
    ∃ w', Update.writeFile (Path.child (Path.join (home name)) file) bytes w = (.ok (), w') ∧
      w'.connection = w.connection ∧ w'.desk = w.desk ∧
      w'.files = w.files.put (home name ++ [file]) (.file bytes) := by
  unfold Update.writeFile
  rw [write_of_open h hf ho bytes]
  exact ⟨_, rfl, rfl, rfl, rfl⟩

/-- **The plan can be written.** -/
theorem writePlan_ready {s : Suite} (h : Slug.IsShortName name)
    (hd : documentDirectory "artifacts" s.source = Path.join (home name)) :
    ∃ path w', writePlan s (ready name) = (.ok path, w') ∧
      w'.connection.connected = true ∧ Planned name w' := by
  have hartifacts : (ready name).desk.artifacts = "artifacts" := by
    show Path.plain "artifacts" = "artifacts"
    decide
  let w₁ : World :=
    { ready name with desk := { (ready name).desk with current := some (Path.join (home name)) } }
  let w₂ : World := { w₁ with desk := { w₁.desk with pages := 0 } }
  have hmake : Update.makeDirectory (Path.join (home name)) w₁ = (.ok (), w₁) :=
    makeDirectory_of_open h (open_ready name "meta.json")
  obtain ⟨w₃, hw₃, hconn, hdesk, hfiles⟩ := writeFile_of_open (w := w₂) h (fits_file (.inl rfl))
    (open_ready name "meta.json") (Text.toBytes s.plan.toIndented)
  refine ⟨Path.child (Path.join (home name)) "meta.json", w₃, ?_, ?_, ?_, ?_⟩
  · -- the desk changes before and after the directory is made
    unfold writePlan
    rw [Update.read_bind, hartifacts]
    dsimp only
    rw [hd, Update.change_bind]
    have hvalue : writeValue (Path.child (Path.join (home name)) "meta.json") s.plan w₂ =
      (.ok (), w₃) := hw₃
    exact (Update.bind_of_ok hmake).trans (Update.change_bind.trans (Update.bind_of_ok hvalue))
  · rw [hconn]
    rfl
  · rw [hdesk]
  · rw [hfiles]
    exact (open_ready name "result.json").put (by decide) _

/-- **So can the result.** -/
theorem suiteFinished_planned (r : SuiteResult) (h : Slug.IsShortName name) (hw : Planned name w) :
    ∃ w', suiteFinished r w = (.ok (), w') := by
  obtain ⟨w', hw', -⟩ := writeFile_of_open h (fits_file (.inr rfl)) hw.room
    (Text.toBytes r.toValue.toIndented)
  have hresult : writeResult r w = (.ok (some (Path.child (Path.join (home name)) "result.json")),
      w') := by
    unfold writeResult
    rw [Update.read_bind, hw.current]
    have hvalue : writeValue (Path.child (Path.join (home name)) "result.json") r.toValue w =
      (.ok (), w') := hw'
    exact Update.bind_of_ok hvalue
  unfold suiteFinished
  rw [Update.bind_of_ok hresult]
  exact ⟨_, rfl⟩

end Report

namespace Run

variable {c : Conduct} {s : Suite}

/-- What is written around the cases does not matter to how the run ends. -/
theorem ends_of_way {b : Bool} {es : List Exchange} {r : Except Fault SuiteResult} {w' : World}
    (hb : Url.Splits c.baseUrl) (ht : ∀ target, s.Targets target → Url.Splits target)
    (hname : Slug.IsShortName name)
    (hd : Report.documentDirectory "artifacts" s.source = Path.join (Report.home name))
    (h : (runSuite c s).Way (Report.ready name) es r w') (htold : ∀ e ∈ es, Told b e) :
    Ends (fun _ => b = true ∨ NoStray c s)
      (BlocksSuite b c s) r := by
  obtain ⟨path, w₁, hplan, hconn, hplanned⟩ := Report.writePlan_ready hname hd
  rw [runSuite_eq] at h
  have h := (Act.way_ofUpdate_bind hplan).1 h
  rcases Act.way_bind_iff.1 h with ⟨cases, w₂, es₁, es₂, h₁, h₂, rfl⟩ | ⟨e, h₁, rfl⟩
  · obtain ⟨hpass, -, hfiles, hdesk⟩ := idle_casesOf hb ht h₁ hconn fun e he =>
      htold e (List.mem_append_left _ he)
    -- the cases have left room for the result
    have hplanned₂ : Report.Planned name w₂ := by
      refine ⟨?_, ?_⟩
      · rw [hdesk]
        exact hplanned.current
      · rw [hfiles]
        exact hplanned.room
    obtain ⟨w₃, hfinished⟩ := Report.suiteFinished_planned ⟨s.name, s.source, cases⟩ hname hplanned₂
    have h₂ := (Act.way_ofUpdate_bind hfinished).1 h₂
    obtain ⟨-, rfl, -⟩ := Act.way_pure_iff.1 h₂
    exact hpass
  · exact (idle_casesOf hb ht h₁ hconn htold).1

/-- **How a run ends with the server of few words,** from a world where its
reports can be written: by a stray page if the server says that pages show
nothing, and there is a stray page; with a result otherwise. -/
theorem exists_terse_run (hb : Url.Splits c.baseUrl)
    (ht : ∀ target, s.Targets target → Url.Splits target) :
    ∃ w, ∀ b r, ((runSuite c s).run (Terse.server b) w ()).1.1 = r →
      Ends (fun _ => b = true ∨ NoStray c s) (BlocksSuite b c s) r := by
  obtain ⟨name, hname, hd⟩ := Report.exists_home s.source
  refine ⟨Report.ready name, fun b r hr => ?_⟩
  have hway := Act.way_run (Terse.server b) (runSuite c s) (Report.ready name) ()
  rw [hr] at hway
  exact ends_of_way hb ht hname hd hway told_exchanges

end Run

end Walkthrough
