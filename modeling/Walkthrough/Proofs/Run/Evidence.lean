import Walkthrough.Proofs.Reply.Capture
import Walkthrough.Proofs.Report.Snapshot
import Walkthrough.Proofs.Run.Hinge
import Walkthrough.Proofs.Run.Visit
/-!
# Evidence of a missing target

Where a step does not find what it is to fill or to press, a picture of the page and
its markup are asked for, whatever comes of either. What was sent is kept as it was
sent, each in its own files and independently of the other; and the step is refused
all the same (`evidence_kept`).
-/

namespace Walkthrough.Run

open Walkthrough.Json FileTree

variable {α : Type} {w w₁ w' : World} {es asked : List Exchange} {c : Conduct} {step : Step}
  {h : Hinge} {shot page : Answer}

/-! ## The search -/

/-- The files, the desk and the connection are left as they were. -/
def Undisturbed (w : World) (_ : List Exchange) (w' : World) : Prop :=
  w'.files = w.files ∧ w'.desk = w.desk ∧ w'.connection.connected = w.connection.connected

/-- **Calls disturb nothing.** -/
theorem callKept_undisturbed : CallKept (Act.Keeps Undisturbed) where
  closed := Act.closed_keeps {
    refl := fun _ => ⟨rfl, rfl, rfl⟩
    trans := fun h₁ h₂ =>
      ⟨h₂.1.trans h₁.1, h₂.2.1.trans h₁.2.1, h₂.2.2.trans h₁.2.2⟩ }
  call read := by
    intro w es r w' hx
    rcases Session.way_single hx with ⟨-, a, -, -, rfl⟩ | ⟨-, -, -, rfl⟩ <;> exact ⟨rfl, rfl, rfl⟩
  script ready := Act.keeps_ofUpdate fun w => ⟨rfl, rfl, rfl⟩

/-- What is answered is answered in a connected session, -/
theorem connected_of_answerOf {expression : String} {v : Value}
    (hx : (answerOf expression).Way w es (.ok v) w') : w.connection.connected = true := by
  obtain ⟨_, w₁, es₁, es₂, h₁, h₂, -⟩ := Act.way_bind_ok hx
  rw [Session.evaluate_eq] at h₂
  rcases Session.way_single h₂ with ⟨hc, -⟩ | ⟨-, -, hr, -⟩
  · rw [← (callKept_undisturbed.ensureScript h₁).2.2, hc]
  · cases hr

/-- and so is what a resolver says. -/
theorem connected_of_resolve {kind : StepKind} {target expression : String} {found : Bool}
    (hx : (resolve kind target expression).Way w es (.ok found) w') :
    w.connection.connected = true := by
  obtain ⟨answer, w₁, es₁, es₂, h₁, h₂, -⟩ := Act.way_attempt_bind.1 hx
  cases answer with
  | ok v =>
    obtain ⟨_, _, _, _, hfirst, -, -⟩ := Act.way_bind_ok h₁
    exact connected_of_answerOf hfirst
  | error e =>
    -- no fault of the search is an answer
    cases e <;> obtain ⟨-, hr, -⟩ := Act.way_fail_iff.1 h₂ <;> cases hr

/-! ## What is seen then -/

/-- **What is seen at a step** is a picture and the markup of the page, asked for in
this order, and a report of what came of either. -/
theorem way_captureFailure {r : Except Fault Unit} (hreports : c.reports = true)
    (hx : (captureFailure c step).Way w es r w') (hc : w.connection.connected = true) :
    ∃ shot page w₁ written, es = [(pictureCall, shot), (lookCall Page.markup, page)] ∧
      Undisturbed w es w₁ ∧
      Report.writeSnapshot step.classification
        ((Session.readPicture shot.outcome).toOption.getD none) (Session.markupOf page) w₁ =
          (written, w') ∧ r = written.map fun _ => () := by
  unfold captureFailure at hx
  rw [Session.screenshot_eq, Session.pageMarkup_eq] at hx
  obtain ⟨_, w₁, es₁, _, h₁, hx, rfl⟩ := Act.way_bestEffort_bind.1 hx
  obtain ⟨shot, rfl, rfl, rfl⟩ := Session.way_single_of_connected h₁ hc
  obtain ⟨_, w₂, es₂, es₃, h₂, hx, rfl⟩ := Act.way_bestEffort_bind.1 hx
  obtain ⟨page, rfl, rfl, rfl⟩ := Session.way_single_of_connected h₂ hc
  rw [if_pos hreports] at hx
  obtain ⟨written, hreport, rfl⟩ := Act.way_map_iff.1 hx
  obtain ⟨rfl, hwrite⟩ := Act.way_ofUpdate_iff.1 hreport
  refine ⟨shot, page, _, written, rfl, ?_, hwrite.symm, rfl⟩
  exact ⟨rfl, rfl, rfl⟩

/-- **A step that fills or presses** looks for its target first. Where that is missing it
goes on to see what there is, and is refused. -/
theorem exists_perform_eq (c : Conduct) (ha : hinge? step.action = some h)
    (hkind : h.kind = .fill ∨ h.kind = .click) :
    ∃ f, perform c step = resolve h.kind h.target (Page.call h.resolver h.args) >>= f ∧
      f false = (do captureFailure c step; .fail (.step h.refusal)) := by
  unfold perform
  cases haction : step.action with
  | navigate target =>
    rw [haction] at ha
    cases ha
  | unrecognized =>
    rw [haction] at ha
    cases ha
  | assertVisible phrase =>
    rw [haction] at ha
    cases ha
    rcases hkind with hkind | hkind <;> cases hkind
  | fill label value =>
    rw [haction] at ha
    cases ha
    exact ⟨_, rfl, rfl⟩
  | click caption =>
    rw [haction] at ha
    cases ha
    exact ⟨_, rfl, rfl⟩

/-! ## What is kept -/

/-- **The evidence of a missing target** is kept in the files of its step: the bytes
of the picture that was shown, and the markup that was told, the latter also as that
of the last page. The files of what did not come are spared, and no other file is
touched. -/
structure Evidence (artifacts : String) (k : Classification) (shot page : Answer)
    (t t' : FileTree) : Prop where
  picture {result : Value} {bytes : List UInt8} (hanswer : shot.outcome = .ok result)
    (hne : bytes ≠ []) (hshows : Reply.Shows bytes result) :
    t'.read (Report.snapshotPath artifacts k ++ ".png") = .ok bytes
  markup {result : Value} {text : String} (hanswer : page.outcome = .ok result)
    (htells : Reply.Tells text result) :
    t'.read (Report.snapshotPath artifacts k ++ ".html") = .ok (Text.toBytes text) ∧
      t'.read (Report.lastPagePath artifacts) = .ok (Text.toBytes text)
  noPicture (hnone : Session.pictureOf shot.outcome = none) :
    FileTree.Spares (Report.snapshotPath artifacts k ++ ".png") t t'
  noMarkup (hnone : Session.markupOf page = none) :
    FileTree.Spares (Report.snapshotPath artifacts k ++ ".html") t t' ∧
      FileTree.Spares (Report.lastPagePath artifacts) t t'
  others : Alters (fun l => t'.find (Report.snapshotPath artifacts k ++ ".png") = .ok l ∨
    t'.find (Report.snapshotPath artifacts k ++ ".html") = .ok l ∨
      t'.find (Report.lastPagePath artifacts) = .ok l) t t'

theorem evidence_of_snapshot {artifacts : String} {k : Classification} {t t' : FileTree}
    (hs : Report.Snapshot artifacts k (Session.pictureOf shot.outcome)
      (Session.markupOf page) t t') : Evidence artifacts k shot page t t' where
  picture hanswer hne hshows := hs.picture _ (by
    rw [hanswer, Session.pictureOf_of_shows hne hshows])
  markup hanswer htells := hs.page _ (Session.markupOf_of_tells htells hanswer)
  noPicture := hs.noPicture
  noMarkup := hs.noPage
  others := hs.others

/-- **Evidence of a missing target is kept faithfully.** However a step that fills or
presses did not find its target, two calls follow, and the step is refused whatever
comes of them, as long as reports can be written; and these keep what was sent. -/
theorem evidence_kept {raw : String} {r : Except Fault Classification}
    (ha : hinge? (Step.classify raw).action = some h) (hkind : h.kind = .fill ∨ h.kind = .click)
    (hreports : c.reports = true)
    (hmissing : (resolve h.kind h.target (Page.call h.resolver h.args)).Way w asked (.ok false) w₁)
    (hx : (execute c raw).Way w (asked ++ es) r w') (hfile : ∀ e, r ≠ .error (.file e)) :
    r = .error (.step h.refusal) ∧
      ∃ shot page, es = [(pictureCall, shot), (lookCall Page.markup, page)] ∧
        Evidence w.desk.artifacts (Step.classify raw).classification shot page w.files w'.files := by
  obtain ⟨r₁, hperform, rfl⟩ := Act.way_map_iff.1 hx
  have hsearch := callKept_undisturbed.resolve _ _ _ hmissing
  have hc : w₁.connection.connected = true := hsearch.2.2.trans (connected_of_resolve hmissing)
  obtain ⟨f, hstep, hmissed⟩ := exists_perform_eq c ha hkind
  rw [hstep] at hperform
  have hafter := Act.way_of_way_bind hmissing hperform
  rw [hmissed] at hafter
  rcases Act.way_bind_iff.1 hafter with ⟨_, w₂, es₁, es₂, hseen, hend, rfl⟩ | ⟨e, hseen, rfl⟩
  · obtain ⟨rfl, rfl, rfl⟩ := Act.way_fail_iff.1 hend
    obtain ⟨shot, page, w₃, written, rfl, hcalls, hwrite, hwritten⟩ :=
      way_captureFailure hreports hseen hc
    refine ⟨rfl, shot, page, rfl, evidence_of_snapshot ?_⟩
    cases written with
    | error e => cases hwritten
    | ok path =>
      have hsnapshot := Report.snapshot_of_writeSnapshot hwrite
      rw [hcalls.1, hcalls.2.1, hsearch.1, hsearch.2.1] at hsnapshot
      exact hsnapshot
  · -- only a file can keep the report from being written
    have hends : IsFile e := gives_captureFailure (A := fun _ => True) hseen fun _ _ => trivial
    cases e with
    | file e => exact absurd rfl (hfile e)
    | _ => exact hends.elim

/-- A JSON text that spells each of its characters in another way, as far as there
are others. -/
def spelled : String := "\"<\\u00e9\\uD83d\\uDe00\\/>\""

theorem quotes_spelled : Quotes "<é😀/>".toList spelled.toList := by
  refine ⟨[['<'], ['\\', 'u', '0', '0', 'e', '9'],
    ['\\', 'u', 'D', '8', '3', 'd', '\\', 'u', 'D', 'e', '0', '0'], ['\\', '/'], ['>']], ?_, rfl⟩
  have hself {c : Char} (hc : 0x20 ≤ c.toNat ∧ c ≠ '"' ∧ c ≠ '\\') : Spells c [c] :=
    .itself hc.1 hc.2.1 hc.2.2
  exact .cons (hself (by decide)) (.cons (.number rfl) (.cons (.pair (by decide) rfl rfl)
    (.cons (.escape rfl) (.cons (hself (by decide)) .nil))))

/-- A picture among other items, one of which is an image with no data. -/
def showing : Value := .record [("content", .list [
  Scripted.textItem "the page",
  .record [("type", .text "image"), ("data", .text "")],
  .record [("type", .text "image"), ("data", .text "iVBORw==")],
  .record [("type", .text "image"), ("data", .text "AAAA")]])]

theorem shows_showing : Reply.Shows [137, 80, 78, 71] showing := by
  refine ⟨rfl, [_, _], _, [_], rfl, ?_, rfl, rfl⟩
  intro i hi
  simp only [List.mem_cons, List.not_mem_nil, or_false] at hi
  rcases hi with rfl | rfl
  · rintro ⟨htype, -⟩
    have htype : Value.text "text" = .text "image" := htype
    exact absurd (Value.text.inj htype) (by decide)
  · exact fun himage => absurd himage.2 (by decide)

/-- Markup behind a text item without a text. -/
def telling : Value := .record [("content", .list [
  .record [("type", .text "text")], Scripted.textItem (" " ++ spelled ++ "\n")])]

theorem tells_telling : Reply.Tells "<é😀/>" telling := by
  refine ⟨rfl, rfl, [_], _, [], _, rfl, ?_, ?_, rfl, rfl, .alone rfl quotes_spelled rfl⟩
  · intro i hi
    simp only [List.mem_cons, List.not_mem_nil, or_false, List.singleton_append] at hi
    rcases hi with rfl | rfl <;> exact fun hjson => hjson.2 rfl
  · intro i hi
    rw [List.mem_singleton.1 hi]
    exact fun htext => htext.2 rfl

/-- A server whose page has nothing to press, but can be seen. -/
def barren : Server Unit where
  answer _ q :=
    let result := match q with
      | .call tool _ =>
        if tool = Session.screenshotTool then showing
        else if q.sends (Page.expressionFunction Page.markup) then telling
        else Scripted.textResult "false" false
      | _ => .null
    ({ outcome := .ok result, elapsed := 1 }, ())

/-- A session whose reports go to a directory. -/
def reporting : World := { trusting with desk := .at "artifacts" }

/-- What a step hangs on that presses a control with two words. -/
def pressAll : Hinge := { pressSave with
  target := "Save all"
  args := [.text "Save all"]
  refusal := .noControl "Save all" }

/-- The session when nothing to press was found. -/
def searched : World := { reporting with
  chronicle := [.called Session.evaluateTool [("function", .text (Page.expressionFunction
    (Page.call pressAll.resolver pressAll.args)))]]
  clock := 1 }

/-- The step is refused, and leaves the picture and the markup. -/
theorem evidence_kept_barren :
    Reply.Shows [137, 80, 78, 71] showing ∧ Reply.Tells "<é😀/>" telling ∧
      ((execute site "Save all をクリック").run barren reporting ()).1.1 =
        .error (.step (.noControl "Save all")) ∧
      ((execute site "Save all をクリック").run barren reporting ()).1.2.files.read
        "artifacts/exec-debug/click-Save-all.png" = .ok [137, 80, 78, 71] ∧
      ((execute site "Save all をクリック").run barren reporting ()).1.2.files.read
        "artifacts/exec-debug/last-page.html" = .ok (Text.toBytes "<é😀/>") := by
  have haction : hinge? (Step.classify "Save all をクリック").action = some pressAll := by
    have haction : (Step.classify "Save all をクリック").action = .click "Save all" := by decide
    rw [haction]
    rfl
  have hsearch : (resolve pressAll.kind pressAll.target
      (Page.call pressAll.resolver pressAll.args)).run barren reporting () =
        ((.ok false, searched), ()) := by rfl
  -- the step is run from where the search has led
  obtain ⟨f, hstep, hmissed⟩ := exists_perform_eq site haction (.inr rfl)
  have hexecute : execute site "Save all をクリック" =
      resolve pressAll.kind pressAll.target (Page.call pressAll.resolver pressAll.args) >>=
        fun found => f found >>= fun _ =>
          pure (Step.classify "Save all をクリック").classification := by
    show perform site (Step.classify "Save all をクリック") >>= _ = _
    rw [hstep, bind_assoc]
  have hexchanges : (execute site "Save all をクリック" reporting).exchanges barren () =
      (resolve pressAll.kind pressAll.target (Page.call pressAll.resolver pressAll.args)
        reporting).exchanges barren () ++
      [(pictureCall, { outcome := .ok showing, elapsed := 1 }),
        (lookCall Page.markup, { outcome := .ok telling, elapsed := 1 })] := by
    rw [hexecute, Act.exchanges_bind_of_ok hsearch, hmissed]
    rfl
  have hrefused : ((execute site "Save all をクリック").run barren reporting ()).1.1 =
      .error (.step (.noControl "Save all")) := by
    rw [hexecute, Act.run_bind_of_ok hsearch, hmissed]
    rfl
  have hmissing := Act.way_run barren
    (resolve pressAll.kind pressAll.target (Page.call pressAll.resolver pressAll.args)) reporting ()
  rw [hsearch] at hmissing
  have hx := Act.way_run barren (execute site "Save all をクリック") reporting ()
  rw [hexchanges] at hx
  obtain ⟨-, shot, page, hes, hkept⟩ :=
    evidence_kept haction (.inr rfl) rfl hmissing hx (by rw [hrefused]; exact nofun)
  cases hes
  have hpath : Report.snapshotPath "artifacts" (Step.classify "Save all をクリック").classification =
      "artifacts/exec-debug/click-Save-all" := by decide +kernel
  have hpicture := hkept.picture rfl (by decide) shows_showing
  have hmarkup := (hkept.markup rfl tells_telling).2
  have hplain : reporting.desk.artifacts = "artifacts" := by decide
  rw [hplain, hpath] at hpicture
  rw [hplain] at hmarkup
  exact ⟨shows_showing, tells_telling, hrefused, hpicture, hmarkup⟩

end Walkthrough.Run
