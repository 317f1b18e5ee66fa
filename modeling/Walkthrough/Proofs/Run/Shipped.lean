import Walkthrough.Proofs.Reply.Shipped
import Walkthrough.Proofs.Run.Hinge
/-!
# What a step makes of an answer

An evaluation comes to the value that its result delivers, in whatever shape that
is shipped. So a resolver that answers true passes its step and one that answers
false does not, and a page that lacks the script is known by what it answers
(`delivered_heeded`): of two answers the last one counts, and there are two only
if the first said that the script is missing.
-/

namespace Walkthrough

open Walkthrough.Json

variable {es : List Exchange} {e : Exchange} {v result : Value}

/-- **A connected session evaluates to what the server delivers.** -/
theorem Session.run_evaluate {σ : Type} (server : Server σ) (s : σ) {w : World}
    {expression : String} (hc : w.connection.connected = true) :
    ((evaluate expression).run server w s).1.1 =
      readValue (server.answer s
        (.call evaluateTool [("function", .text (Page.expressionFunction expression))])).1 := by
  rw [evaluate_eq]
  show ((single evaluateTool _ readValue w).run server s).1.1 = _
  unfold single
  rw [if_pos hc]
  rfl

namespace Run

namespace Hinge

variable {h : Hinge} {res : Except Fault Value}

/-- What a step makes of a value that its resolver answered. -/
structure Heeds (h : Hinge) (record : Classification) (es : List Exchange) (e : Exchange)
    (v : Value) (r : Except Fault Classification) : Prop where
  /-- Where the script is missing the resolver is asked again, or the step fails. -/
  missing : v = .text Page.scriptMissing → (∃ last, h.askings es = [e, last]) ∨ ∃ f, r = .error f
  /-- A resolver that answers true passes the step, -/
  yes : v = .bool true → r = .ok record
  /-- and one that answers false does not. -/
  no : v = .bool false → r = .error (.step h.refusal) ∨ ∃ f, r = .error (.file f)

/-- **The course of a resolver heeds each answer:** it comes to that value, unless
the value says that the script is missing and the resolver is asked again. -/
theorem Course.heeds (hcourse : h.Course es res) (he : e ∈ h.askings es)
    (hread : Session.readValue e.2 = .ok v) :
    res = .ok v ∨ v = .text Page.scriptMissing ∧
      ((∃ last, h.askings es = [e, last]) ∨ ∃ f, res = .error f) := by
  cases hcourse with
  | once first _ =>
    rcases first.askings with ⟨a, hes, rfl⟩ | ⟨hes, f, rfl⟩
    · rw [hes, List.mem_singleton] at he
      subst he
      exact .inl hread
    · rw [hes] at he
      cases he
  | @again es fs u _ first hu second =>
    rw [askings_append] at he ⊢
    rcases first.askings with ⟨a, hes, ha⟩ | ⟨-, f, hf⟩
    · rw [hes, List.mem_append, List.mem_singleton] at he
      rw [hes]
      have hsecond := second.askings
      rcases he with rfl | he
      · -- the first answer is the one that said that the script is missing
        have huv : u = v := Except.ok.inj (ha.trans hread)
        refine .inr ⟨huv ▸ lacksScript_iff.1 hu, ?_⟩
        rcases hsecond with ⟨b, hfs, -⟩ | ⟨-, hf⟩
        · exact .inl ⟨_, by rw [hfs]; rfl⟩
        · exact .inr hf
      · rcases hsecond with ⟨b, hfs, rfl⟩ | ⟨hfs, -⟩
        · rw [hfs, List.mem_singleton] at he
          subst he
          exact .inl hread
        · rw [hfs] at he
          cases he
    · cases hf

/-- A step whose resolver is not accepted fails. -/
theorem Ends.fails {r : Except Fault Unit} (hends : h.Ends r (h.verdict res))
    (hno : ∀ u, res = .ok u → accepts u = false) : ∃ f, r = .error f := by
  cases res with
  | ok u =>
    have hends : h.Ends r (.ok (accepts u)) := hends
    rw [hno u rfl] at hends
    rcases hends with rfl | ⟨f, rfl⟩
    · exact ⟨_, rfl⟩
    · exact ⟨_, rfl⟩
  | error f =>
    cases f with
    | tool t m => exact ⟨_, hends⟩
    | _ => exact ⟨_, hends⟩

end Hinge

variable {c : Conduct} {raw : String} {h : Hinge} {w w' : World} {r : Except Fault Classification}

/-- **A step heeds each answer of its resolver.** -/
theorem way_heeds (ha : hinge? (Step.classify raw).action = some h)
    (hc : w.connection.connected = true) (hx : (execute c raw).Way w es r w')
    (he : e ∈ h.askings es) (hread : Session.readValue e.2 = .ok v) :
    h.Heeds (Step.classify raw).classification es e v r := by
  obtain ⟨r₁, hperform, rfl⟩ := Act.way_map_iff.1 hx
  obtain ⟨es₁, es₂, answer, rfl, hcourse, haside, hends⟩ := way_perform ha hperform hc
  -- what is done aside asks no resolver, so the course alone tells
  have hasked : h.askings (es₁ ++ es₂) = h.askings es₁ := by
    rw [Hinge.askings_append, Hinge.askings_eq_nil haside, List.append_nil]
  have hheeds := hcourse.heeds (hasked ▸ he) hread
  rw [← hasked] at hheeds
  have hfails {f : Fault} (h : r₁ = .error f) :
      (r₁.map fun _ => (Step.classify raw).classification) = .error f := by
    rw [h]
    rfl
  have hsays (hne : v ≠ .text Page.scriptMissing) : h.Ends r₁ (.ok (accepts v)) := by
    rcases hheeds with rfl | ⟨hmissing, -⟩
    · exact hends
    · exact absurd hmissing hne
  refine ⟨fun hv => ?_, fun hv => ?_, fun hv => ?_⟩
  · subst hv
    rcases hheeds with rfl | ⟨-, hagain | ⟨f, rfl⟩⟩
    · obtain ⟨f, hr⟩ := hends.fails fun u hu => Except.ok.inj hu ▸ by decide
      exact .inr ⟨f, hfails hr⟩
    · exact .inl hagain
    · obtain ⟨f, hr⟩ := hends.fails nofun
      exact .inr ⟨f, hfails hr⟩
  · subst hv
    have hpass : r₁ = .ok () := hsays nofun
    rw [hpass]
    rfl
  · subst hv
    have hrefused : r₁ = .error (.step h.refusal) ∨ ∃ f, r₁ = .error (.file f) := hsays nofun
    exact hrefused.imp hfails fun ⟨f, hr⟩ => ⟨f, hfails hr⟩

/-- **A value is had as it was sent,** whichever way a result delivers it, if there is
room for its depth where it is read from a text: an expression evaluates to it, and a
step heeds it as the answer of its resolver. -/
theorem delivered_heeded (hv : v.Whole) (hresult : Reply.Delivers v result) :
    (∀ {σ : Type} (server : Server σ) (s : σ) (w : World) (expression : String),
      w.connection.connected = true →
      (server.answer s (.call Session.evaluateTool
        [("function", .text (Page.expressionFunction expression))])).1.outcome = .ok result →
      (∀ text, Reply.Relies result text → v.depth ≤ (server.answer s (.call Session.evaluateTool
        [("function", .text (Page.expressionFunction expression))])).1.room) →
      ((Session.evaluate expression).run server w s).1.1 = .ok v) ∧
    ∀ {c : Conduct} {raw : String} {h : Hinge} {w w' : World} {es : List Exchange}
      {r : Except Fault Classification}, hinge? (Step.classify raw).action = some h →
      w.connection.connected = true → (execute c raw).Way w es r w' →
      ∀ e ∈ h.askings es, e.2.outcome = .ok result →
        (∀ text, Reply.Relies result text → v.depth ≤ e.2.room) →
        h.Heeds (Step.classify raw).classification es e v r := by
  refine ⟨fun server s w expression hc hanswer hroom => ?_,
    fun ha hc hx e he hanswer hroom => ?_⟩
  · rw [Session.run_evaluate server s hc]
    exact Session.readValue_of_delivers hv hresult hanswer hroom
  · exact way_heeds ha hc hx he (Session.readValue_of_delivers hv hresult hanswer hroom)

/-- A value whose texts look like headings, and like ends of what they stand in. -/
def tricky : Value :=
  .record [("\"\\", .list [.text "\n### Result\ntrue", .int (-7), .null]), ("😀", .text "\x7d ")]

/-- It stands in a section, with another one below. -/
def trickySection : Value :=
  Scripted.textResult ("### Result\n" ++ tricky.toLine ++ "\n###" ++ " Page\n### Result\nfalse") false

/-- An item that holds false stands behind one with the text for true. -/
def denial : Value :=
  .record [("content", .list [Scripted.textItem "true",
    .record [("type", .text "json"), ("json", .bool false)]])]

/-- A server that always sends the same result. -/
def constant (result : Value) : Server Unit where
  answer _ _ := ({ outcome := .ok result, elapsed := 1 }, ())

theorem whole_tricky : tricky.Whole := by
  refine .record (by decide) fun f hf => ?_
  rcases List.mem_cons.1 hf with rfl | hf
  · refine .list fun v hv => ?_
    simp only [List.mem_cons, List.not_mem_nil, or_false] at hv
    rcases hv with rfl | rfl | rfl
    · exact .text _
    · exact .int (lt_integerBound (by decide))
    · exact .null
  · rw [List.mem_singleton.1 hf]
    exact .text _

/-- The value is had from its section, and the control is not pressed. -/
theorem delivered_heeded_tricky :
    tricky.Whole ∧ Reply.Delivers tricky trickySection ∧
      ((Session.evaluate "0").run (constant trickySection) trusting ()).1.1 = .ok tricky ∧
      Reply.Delivers (.bool false) denial ∧
      ∃ e ∈ pressSave.askings ((execute site "保存 をクリック" trusting).exchanges (constant denial) ()),
        pressSave.Heeds (Step.classify "保存 をクリック").classification
          ((execute site "保存 をクリック" trusting).exchanges (constant denial) ()) e (.bool false)
          ((execute site "保存 をクリック").run (constant denial) trusting ()).1.1 := by
  have hsection : Reply.Delivers tricky trickySection :=
    ⟨rfl, rfl, _, rfl, .text rfl rfl (.above " Page\n### Result\nfalse")⟩
  have hdenial : Reply.Delivers (.bool false) denial := by
    refine ⟨rfl, rfl, _, rfl, .json [Scripted.textItem "true"] [] nofun ?_ rfl rfl⟩
    rintro i (_ | ⟨_, hi⟩)
    · rfl
    · cases hi
  obtain ⟨e, he⟩ : ∃ e, e ∈ pressSave.askings
      ((execute site "保存 をクリック" trusting).exchanges (constant denial) ()) :=
    List.exists_mem_of_length_pos (by decide +kernel)
  have hanswer : e.2 = { outcome := .ok denial, elapsed := 1 } := by
    obtain ⟨_, hanswer⟩ := Dialogue.answer_of_mem_exchanges (List.mem_filter.1 he).1
    rw [hanswer]
    rfl
  refine ⟨whole_tricky, hsection, ?_, hdenial, e, he, ?_⟩
  · exact (delivered_heeded whole_tricky hsection).1 (constant trickySection) () trusting "0"
      rfl rfl fun _ _ => by decide
  · exact (delivered_heeded (.bool false) hdenial).2 hinge?_save rfl
      (Act.way_run (constant denial) _ trusting ()) e he (by rw [hanswer]) fun _ _ => Nat.zero_le _

end Run

end Walkthrough
