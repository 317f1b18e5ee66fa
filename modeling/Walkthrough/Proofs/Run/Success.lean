import Walkthrough.Proofs.Run.Entries
import Walkthrough.Proofs.Run.Faults
import Walkthrough.Proofs.Run.Transport
/-!
# Runs that succeed

A run succeeds when the tool server could be started, agreed to talk and could
be hung up on, and what the run was for was accomplished in between: a look at a
page, or documents none of whose steps failed. This is read off what was
exchanged (`Succeeds`), and it is what a run that comes to zero says
(`run_eq_zero_iff`).
-/

namespace Walkthrough

namespace Session

variable {w w' : World} {es : List Exchange} {q : Request} {a : Answer}

/-! ## Connecting and closing without a fault -/

/-- The world in which a connecting that went well has ended. -/
def joined (w : World) : World :=
  World.record
    { (w.record (.opened w.connection.command)).record .greeted with
      connection := { w.connection with connected := true } }
    (.logged (.connected w.connection.command))

theorem way_demand_of_isOk (h : a.outcome.isOk = true) : (demand q).Way w [(q, a)] (.ok ()) w := by
  unfold demand
  rw [Act.way_ask_bind]
  refine ⟨a, [], rfl, ?_⟩
  cases ha : a.outcome with
  | ok v => exact Act.way_pure_iff.2 ⟨rfl, rfl, rfl⟩
  | error e =>
    rw [ha] at h
    cases h

/-- **Connecting goes well** where the server starts and greets back, and then only. -/
theorem way_connect_ok_iff (hc : w.connection.connected = false) :
    connect.Way w es (.ok ()) w' ↔
      ∃ a b : Answer, a.outcome.isOk = true ∧ b.outcome.isOk = true ∧
        es = [(.connect w.connection.command, a), (.greet, b)] ∧ w' = joined w := by
  have hway {a b : Answer} (ha : a.outcome.isOk = true) (hb : b.outcome.isOk = true) :
      connect.Way w [(.connect w.connection.command, a), (.greet, b)] (.ok ()) (joined w) := by
    unfold connect
    rw [Act.way_read_bind, hc, if_neg (by decide), Act.way_record_bind]
    refine Act.way_bind_iff.2 (.inl ⟨(), _, [_], _, way_demand_of_isOk ha, ?_, rfl⟩)
    rw [Act.way_record_bind]
    refine Act.way_attempt_bind.2 ⟨.ok (), _, [_], [], way_demand_of_isOk hb, ?_, rfl⟩
    refine Act.way_change_bind.2 ?_
    exact Act.way_ofUpdate_iff.2 ⟨rfl, rfl⟩
  constructor
  · intro h
    obtain ⟨hs, -⟩ := handshake_of_connect h hc
    rw [show (Except.ok () : Except Fault Unit).isOk = true from rfl] at hs
    cases hs with
    | greeted ha hb => exact ⟨_, _, ha, hb, rfl, (h.unique (hway ha hb)).2⟩
  · rintro ⟨a, b, ha, hb, rfl, rfl⟩
    exact hway ha hb

/-- **Closing goes well** where the server can be hung up on, and then only. -/
theorem exists_way_close_ok_iff (hc : w.connection.connected = true)
    (hr : w.connection.retired = false) :
    (∃ w', close.Way w es (.ok ()) w') ↔
      ∃ d : Answer, d.outcome.isOk = true ∧ es = [(.disconnect, d)] := by
  unfold close
  simp only [Act.way_read_bind, hr, Bool.false_eq_true, if_false, changeConnection,
    Act.way_change_bind, hc, if_true]
  constructor
  · rintro ⟨w', h⟩
    obtain ⟨_, w₁, es₁, es₂, hangs, hlog, rfl⟩ := Act.way_bind_ok h
    obtain ⟨d, rfl, -, hd⟩ := way_demand (Act.way_record_bind.1 hangs)
    obtain ⟨rfl, -⟩ := Act.way_ofUpdate_iff.1 hlog
    exact ⟨d, hd, rfl⟩
  · rintro ⟨d, hd, rfl⟩
    have hangs {v : World} : hangUp.Way v [(.disconnect, d)] (.ok ()) (v.record .closed) :=
      Act.way_record_bind.2 (way_demand_of_isOk hd)
    exact ⟨_, Act.way_bind_iff.2
      (.inl ⟨(), _, _, [], hangs, Act.way_ofUpdate_iff.2 ⟨rfl, rfl⟩, rfl⟩)⟩

end Session

namespace Run

open Session

variable {w w' : World} {es fs : List Exchange} {settings : Settings} {tree : FileTree}
  {named : List String} {target : Option String}

/-- **What is done inside a connection comes to a value** where connecting and closing
go well and it comes to that value in between, and then only. -/
theorem exists_way_connected_ok_iff {α : Type} {x : Act α} (hx : Act.Keeps Talks x) {v : α}
    (hc : w.connection.connected = false) (hr : w.connection.retired = false) :
    (∃ w', (connected x).Way w es (.ok v) w') ↔
      ∃ (a b d : Answer) (fs : List Exchange) (w₁ : World), a.outcome.isOk = true ∧
        b.outcome.isOk = true ∧ d.outcome.isOk = true ∧ x.Way (joined w) fs (.ok v) w₁ ∧
        es = [(.connect w.connection.command, a), (.greet, b)] ++ fs ++ [(.disconnect, d)] := by
  have hclose {fs gs : List Exchange} {r : Except Fault α} {w₁ : World}
      (h : x.Way (joined w) fs r w₁) :
      (∃ w', close.Way w₁ gs (.ok ()) w') ↔
        ∃ d : Answer, d.outcome.isOk = true ∧ gs = [(.disconnect, d)] := by
    obtain ⟨-, hcon, hret⟩ := hx h
    exact exists_way_close_ok_iff hcon (hret.trans hr)
  constructor
  · rintro ⟨w', h⟩
    obtain ⟨r₁, w₁, es₁, r₂, gs, h₁, hlast, rfl, hv⟩ := Act.way_andFinally_iff.1 h
    cases r₂ with
    | error e => cases hv
    | ok _ =>
      obtain rfl : r₁ = .ok v := hv.symm
      obtain ⟨_, w₂, hs, fs, hconnect, htask, rfl⟩ := Act.way_bind_ok h₁
      obtain ⟨a, b, ha, hb, rfl, rfl⟩ := (way_connect_ok_iff hc).1 hconnect
      obtain ⟨d, hd, rfl⟩ := (hclose htask).1 ⟨w', hlast⟩
      exact ⟨a, b, d, fs, w₁, ha, hb, hd, htask, rfl⟩
  · rintro ⟨a, b, d, fs, w₁, ha, hb, hd, htask, rfl⟩
    obtain ⟨w', hlast⟩ := (hclose htask).2 ⟨d, hd, rfl⟩
    have hconnect := (way_connect_ok_iff hc).2 ⟨a, b, ha, hb, rfl, rfl⟩
    have h₁ : (connect >>= fun _ => x).Way w _ (.ok v) w₁ :=
      Act.way_bind_iff.2 (.inl ⟨(), _, _, _, hconnect, htask, rfl⟩)
    exact ⟨w', Act.way_andFinally_iff.2 ⟨_, _, _, _, _, h₁, hlast, rfl, rfl⟩⟩

/-! ## What a run is for -/

/-- **What a run is for is accomplished:** the look at a page came to its end, or the
documents have had their turns, each with a result that accounts for all its
steps, and no step failed. -/
def Accomplished (c : Conduct) (w : World) (fs : List Exchange) (w' : World) : Task → Prop
  | .probe target => ∃ path, (probe c target).Way w fs (.ok path) w'
  | .documents paths => ∃ ts, Turns c w fs ts w' ∧ ts.map (·.path) = paths ∧
      ∀ t ∈ ts, t.result.Covers t.suite ∧ ∀ o ∈ t.result.perStep, o.status = .ok

/-- **A task comes to zero** just where it is accomplished. -/
theorem way_carryOut_zero_iff {c : Conduct} {task : Task} :
    (carryOut c task).Way w fs (.ok 0) w' ↔ Accomplished c w fs w' task := by
  cases task with
  | probe target =>
    exact Act.way_bind_pure_iff.trans (exists_congr fun path => and_iff_left rfl)
  | documents paths =>
    refine Act.way_bind_pure_iff.trans ⟨?_, ?_⟩
    · rintro ⟨summary, h, hzero⟩
      have hall := summary.exitCode_eq_zero_iff.1 hzero.symm
      obtain ⟨ts, hts, hpaths, hresults⟩ := exists_turns (way_runFiles_iff.1 h)
      refine ⟨ts, hts, hpaths, fun t ht => ?_⟩
      have hmem : t.result ∈ summary.results := hresults ▸ List.mem_map_of_mem ht
      exact ⟨(hts.artifacts.2 t ht).1.covers, t.result.failed_eq_zero_iff.1 (hall _ hmem)⟩
    · rintro ⟨ts, hts, rfl, hok⟩
      refine ⟨⟨ts.map (·.result)⟩, way_runFiles_iff.2 hts.way_each, ?_⟩
      refine ((RunSummary.exitCode_eq_zero_iff _).2 fun r hr => ?_).symm
      obtain ⟨t, ht, rfl⟩ := List.mem_map.1 hr
      exact t.result.failed_eq_zero_iff.2 (hok t ht).2

/-! ## The whole of a run -/

/-- **A run succeeds** by these exchanges: the transport was opened, the server
greeted back, what the run was for was accomplished from there on, and the
transport was closed. -/
inductive Succeeds (settings : Settings) (tree : FileTree) (named : List String)
    (target : Option String) : List Exchange → Prop
  | intro {task : Task} {a b d : Answer} {fs : List Exchange} {w : World}
      (htask : taskOf tree settings named target = .ok task)
      (hopened : a.outcome.isOk = true) (hgreeted : b.outcome.isOk = true)
      (hdone : Accomplished (.ofSettings settings) (joined (.start settings tree)) fs w task)
      (hclosed : d.outcome.isOk = true) :
      Succeeds settings tree named target
        ([(.connect settings.command, a), (.greet, b)] ++ fs ++ [(.disconnect, d)])

/-- **A run comes to zero** just where it succeeds. -/
theorem run_eq_zero_iff {r : Except Fault Nat}
    (h : (run settings named target).Way (.start settings tree) es r w') :
    r = .ok 0 ↔ Succeeds settings tree named target es := by
  constructor
  · rintro rfl
    rcases way_run_iff.1 h with ⟨_, -, -, he, -⟩ | ⟨task, htask, ⟨-, -, he, -⟩ | ⟨-, h⟩⟩
    · cases he
    · cases he
    · obtain ⟨a, b, d, fs, w₁, ha, hb, hd, hdone, rfl⟩ :=
        (exists_way_connected_ok_iff (talks_carryOut _ task) rfl rfl).1 ⟨w', h⟩
      exact .intro htask ha hb (way_carryOut_zero_iff.1 hdone) hd
  · rintro ⟨htask, ha, hb, hdone, hd⟩
    -- no other end of the run has these exchanges
    rcases way_run_iff.1 h with ⟨_, -, he, -⟩ | ⟨_, -, ⟨-, he, -⟩ | ⟨hcommand, -⟩⟩
    · simp at he
    · simp at he
    · obtain ⟨w₁, hzero⟩ := (exists_way_connected_ok_iff (talks_carryOut _ _) rfl rfl).2
        ⟨_, _, _, _, _, ha, hb, hd, way_carryOut_zero_iff.2 hdone, rfl⟩
      exact (h.unique (way_run_iff.2 (.inr ⟨_, htask, .inr ⟨hcommand, hzero⟩⟩))).1

end Run

end Walkthrough
