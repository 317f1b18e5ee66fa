import Walkthrough.Proofs.Act
import Walkthrough.Server.Session
/-!
# The lifetime of a connection

What a program can do with one session, in any order and as often as it
likes: connect, close, and enter and leave a block that holds the session
open. `connect_cases` and `close_cases` say all that a single connecting or
closing does, failures at every stage included. From them comes the balance of
transports (`keeps_connect`, `keeps_close`): one more is opened than closed
while the session is connected, and as many otherwise. `close_settles` is what
this means for a close. The first one always settles the session; a later one
does nothing, so a session that has been connected again stays open.
-/

namespace Walkthrough.Session

open Walkthrough.Json

variable {α β : Type} {w w' : World} {es fs : List Exchange} {r : Except Fault Unit}

/-! ## Transports -/

/-- A transport was opened. -/
def opens (e : Exchange) : Bool :=
  match e.1 with
  | .connect _ => e.2.outcome.isOk
  | _ => false

/-- A transport was closed, with or without a failure of doing so. -/
def shuts (e : Exchange) : Bool :=
  match e.1 with
  | .disconnect => true
  | _ => false

/-- How many transports were opened. -/
def opened (es : List Exchange) : Nat := es.countP opens

/-- How many transports were closed. -/
def closed (es : List Exchange) : Nat := es.countP shuts

theorem opened_append : opened (es ++ fs) = opened es + opened fs := List.countP_append

theorem closed_append : closed (es ++ fs) = closed es + closed fs := List.countP_append

/-! ## One connecting, one closing -/

theorem way_demand {q : Request} (h : (demand q).Way w es r w') :
    ∃ a, es = [(q, a)] ∧ w' = w ∧ a.outcome.isOk = r.isOk := by
  unfold demand at h
  rw [Act.way_ask_bind] at h
  obtain ⟨a, fs, rfl, h⟩ := h
  refine ⟨a, ?_⟩
  cases ha : a.outcome with
  | ok v =>
    rw [ha] at h
    obtain ⟨rfl, rfl, rfl⟩ := Act.way_pure_iff.1 h
    exact ⟨rfl, rfl, rfl⟩
  | error e =>
    rw [ha] at h
    obtain ⟨rfl, rfl, rfl⟩ := Act.way_fail_iff.1 h
    exact ⟨rfl, rfl, rfl⟩

/-- Hanging up asks for the end, and nothing is asked after it: what follows
only fails, or logs. -/
theorem way_hangUp_bind {f : Unit → Act Unit} {P : Except Fault Unit → Prop}
    (hP : ∀ e, P (.error e))
    (hf : ∀ {w es r w'}, (f ()).Way w es r w' → es = [] ∧ P r ∧ w'.connection = w.connection)
    (h : (hangUp >>= f).Way w es r w') :
    ∃ a, es = [(.disconnect, a)] ∧ P r ∧ w'.connection = w.connection := by
  rcases Act.way_bind_iff.1 h with ⟨_, w₁, es₁, es₂, h₁, h₂, rfl⟩ | ⟨e, h₁, rfl⟩
  · obtain ⟨a, rfl, rfl, -⟩ := way_demand (Act.way_record_bind.1 h₁)
    obtain ⟨rfl, hr, hw⟩ := hf h₂
    exact ⟨a, rfl, hr, hw⟩
  · obtain ⟨a, rfl, rfl, -⟩ := way_demand (Act.way_record_bind.1 h₁)
    exact ⟨a, rfl, hP e, rfl⟩

/-- What is exchanged over a new transport before any tool is called, and
whether the session is connected then. A transport that was opened but not
greeted is closed again. -/
inductive Handshake (command : List String) : List Exchange → Bool → Prop
  | unopened {a : Answer} (ha : a.outcome.isOk = false) :
    Handshake command [(.connect command, a)] false
  | ungreeted {a b d : Answer} (ha : a.outcome.isOk = true) (hb : b.outcome.isOk = false) :
    Handshake command [(.connect command, a), (.greet, b), (.disconnect, d)] false
  | greeted {a b : Answer} (ha : a.outcome.isOk = true) (hb : b.outcome.isOk = true) :
    Handshake command [(.connect command, a), (.greet, b)] true

/-- **Connecting is a handshake** where nothing is connected. -/
theorem handshake_of_connect (h : connect.Way w es r w') (hc : w.connection.connected = false) :
    Handshake w.connection.command es r.isOk ∧
      w'.connection = { w.connection with connected := r.isOk } := by
  have hsame : w.connection = { w.connection with connected := false } := by rw [← hc]
  unfold connect at h
  rw [Act.way_read_bind, hc, if_neg (by decide), Act.way_record_bind, Act.way_bind_iff] at h
  rcases h with ⟨_, w₁, es₁, es₂, h₁, h, rfl⟩ | ⟨e, h, rfl⟩
  · -- the transport is open
    obtain ⟨a, rfl, rfl, ha⟩ := way_demand h₁
    rw [Act.way_record_bind, Act.way_attempt_bind] at h
    obtain ⟨greeting, w₂, fs₁, fs₂, h₂, h, rfl⟩ := h
    obtain ⟨b, rfl, rfl, hb⟩ := way_demand h₂
    cases greeting with
    | ok _ =>
      -- nothing is asked any more: the session is marked, and it is logged
      obtain ⟨rfl, h⟩ := Act.way_ofUpdate_iff.1 (Act.way_change_bind.1 h)
      cases h
      exact ⟨.greeted ha hb, rfl⟩
    | error e =>
      obtain ⟨d, rfl, hr, hw⟩ := way_hangUp_bind (P := (·.isOk = false)) (fun _ => rfl) (fun hf => by
        obtain ⟨rfl, rfl, rfl⟩ := Act.way_fail_iff.1 hf
        exact ⟨rfl, rfl, rfl⟩) h
      rw [hr, hw]
      exact ⟨.ungreeted ha hb, hsame⟩
  · obtain ⟨a, rfl, rfl, ha⟩ := way_demand h
    exact ⟨.unopened ha, hsame⟩

/-- **All that connecting can do.** It does nothing on a session that is
connected. Otherwise the transport cannot be opened, or it is opened and the
session is connected, or the greeting fails and the transport is closed. -/
theorem connect_cases (h : connect.Way w es r w') :
    (w.connection.connected = true ∧ es = [] ∧ w' = w) ∨
      (w.connection.connected = false ∧
        ((opened es = 0 ∧ closed es = 0 ∧ w'.connection = w.connection) ∨
          (opened es = 1 ∧ closed es = 0 ∧
            w'.connection = { w.connection with connected := true }) ∨
          (opened es = 1 ∧ closed es = 1 ∧ w'.connection = w.connection))) := by
  cases hc : w.connection.connected with
  | true =>
    unfold connect at h
    rw [Act.way_read_bind, hc, if_pos rfl] at h
    obtain ⟨rfl, -, rfl⟩ := Act.way_pure_iff.1 h
    exact .inl ⟨rfl, rfl, rfl⟩
  | false =>
    have hsame : { w.connection with connected := false } = w.connection := by rw [← hc]
    obtain ⟨hs, hw⟩ := handshake_of_connect h hc
    refine .inr ⟨rfl, ?_⟩
    generalize r.isOk = ok at hs hw
    cases hs with
    | unopened ha => exact .inl ⟨by simp [opened, opens, ha], rfl, hw.trans hsame⟩
    | ungreeted ha hb => exact .inr (.inr ⟨by simp [opened, opens, ha], rfl, hw.trans hsame⟩)
    | greeted ha hb => exact .inr (.inl ⟨by simp [opened, opens, ha], rfl, hw⟩)

/-- **Closing hangs up** on a session that is connected, where it was not closed
before. -/
theorem hangsUp_of_close (h : close.Way w es r w') (hr : w.connection.retired = false) :
    ((w.connection.connected = true ∧ ∃ a, es = [(.disconnect, a)]) ∨
        (w.connection.connected = false ∧ es = [])) ∧
      w'.connection = ⟨w.connection.command, false, true, false⟩ := by
  unfold close at h
  rw [Act.way_read_bind, hr, if_neg (by decide), changeConnection, Act.way_change_bind] at h
  split at h
  case isTrue hc =>
    obtain ⟨a, rfl, -, hw⟩ := way_hangUp_bind (P := fun _ => True) (fun _ => trivial) (fun hf => by
      obtain ⟨rfl, hf⟩ := Act.way_ofUpdate_iff.1 hf
      cases hf
      exact ⟨rfl, trivial, rfl⟩) h
    exact ⟨.inl ⟨hc, a, rfl⟩, hw⟩
  case isFalse hc =>
    obtain ⟨rfl, -, rfl⟩ := Act.way_pure_iff.1 h
    exact ⟨.inr ⟨by simpa using hc, rfl⟩, rfl⟩

/-- **All that closing can do.** It does nothing on a session that was closed
before. Otherwise the session is settled, and its transport is closed if there
is one. -/
theorem close_cases (h : close.Way w es r w') :
    (w.connection.retired = true ∧ es = [] ∧ r = .ok () ∧ w' = w) ∨
      (w.connection.retired = false ∧ opened es = 0 ∧
        closed es = w.connection.connected.toNat ∧
        w'.connection = ⟨w.connection.command, false, true, false⟩) := by
  cases hr : w.connection.retired with
  | true =>
    unfold close at h
    rw [Act.way_read_bind, hr, if_pos rfl] at h
    obtain ⟨rfl, rfl, rfl⟩ := Act.way_pure_iff.1 h
    exact .inl ⟨rfl, rfl, rfl, rfl⟩
  | false =>
    obtain ⟨⟨hc, a, rfl⟩ | ⟨hc, rfl⟩, hw⟩ := hangsUp_of_close h hr
    · exact .inr ⟨rfl, rfl, by rw [hc]; rfl, hw⟩
    · exact .inr ⟨rfl, rfl, by rw [hc]; rfl, hw⟩

/-! ## The balance of transports -/

/-- **As many transports are open at the end as at the start and by what was
exchanged:** one on a session that is connected, none otherwise. -/
def Balanced (w : World) (es : List Exchange) (w' : World) : Prop :=
  opened es + w.connection.connected.toNat = closed es + w'.connection.connected.toNat

theorem balanced_composes : Act.Composes Balanced where
  refl w := rfl
  trans {w w₁ w₂ es fs} h₁ h₂ := by
    unfold Balanced at h₁ h₂ ⊢
    rw [opened_append, closed_append]
    omega

theorem keeps_connect : Act.Keeps Balanced connect := by
  intro w es r w' h
  unfold Balanced
  rcases connect_cases h with ⟨-, rfl, rfl⟩ | ⟨hc, ⟨ho, hs, hw⟩ | ⟨ho, hs, hw⟩ | ⟨ho, hs, hw⟩⟩
  · rfl
  · rw [ho, hs, hw]
  · rw [ho, hs, hw, hc]
    rfl
  · rw [ho, hs, hw]

theorem keeps_close : Act.Keeps Balanced close := by
  intro w es r w' h
  unfold Balanced
  rcases close_cases h with ⟨-, rfl, -, rfl⟩ | ⟨-, ho, hs, hw⟩
  · rfl
  · rw [ho, hs, hw]
    simp

/-! ## Sequences of operations -/

/-- What a program does to a session. -/
inductive Move where
  | connect
  | close
  /-- A block that holds the session open is entered. -/
  | enter
  /-- Such a block is left, at its end or by a fault. -/
  | leave
deriving DecidableEq, Repr

/-- Entering a block connects and leaving it closes. -/
def Move.act : Move → Act Unit
  | .connect | .enter => Session.connect
  | .close | .leave => Session.close

/-- The move is a closing. -/
def Move.closes : Move → Bool
  | .connect | .enter => false
  | .close | .leave => true

/-- **What became of a session** by some moves, in the order in which they were
made: all that was exchanged, and the world after the last of them. Each move
may have failed or not. -/
inductive History (start : World) : List Move → List Exchange → World → Prop
  | start : History start [] [] start
  | move {ms : List Move} {m : Move} {es fs : List Exchange} {w w' : World}
      {r : Except Fault Unit} (h : History start ms es w) (hm : m.act.Way w fs r w') :
      History start (ms ++ [m]) (es ++ fs) w'

variable {start : World} {ms : List Move} {m : Move}

/-- A session of which nobody has made use. -/
def Unused (w : World) : Prop := w.connection.connected = false ∧ w.connection.retired = false

theorem keeps_move : Act.Keeps Balanced m.act := by
  cases m with
  | connect | enter => exact keeps_connect
  | close | leave => exact keeps_close

/-- One more move with a server: the exchanges so far, the world after them, and
what became of the server. -/
def playMove {σ : Type} (server : Server σ) (p : List Exchange × World × σ) (m : Move) :
    List Exchange × World × σ :=
  (p.1 ++ (m.act p.2.1).exchanges server p.2.2, (m.act.run server p.2.1 p.2.2).1.2,
    (m.act.run server p.2.1 p.2.2).2)

/-- What a server makes of some moves, one after the other. -/
def played {σ : Type} (server : Server σ) (start : World) (s : σ) (ms : List Move) :
    List Exchange × World × σ := ms.foldl (playMove server) ([], start, s)

/-- Moves with a server add to a history. -/
theorem History.foldl_playMove {σ : Type} (server : Server σ) {p : List Exchange × World × σ}
    (h : History start ms p.1 p.2.1) (ns : List Move) :
    History start (ms ++ ns) (ns.foldl (playMove server) p).1
      (ns.foldl (playMove server) p).2.1 := by
  induction ns generalizing ms p with
  | nil => simpa using h
  | cons m ns ih =>
    have h₁ : History start (ms ++ [m]) (playMove server p m).1 (playMove server p m).2.1 :=
      h.move (Act.way_run server m.act p.2.1 p.2.2)
    simpa using ih h₁

/-- So any moves have a history with any server. -/
theorem history_played {σ : Type} (server : Server σ) (start : World) (s : σ)
    (ms : List Move) :
    History start ms (played server start s ms).1 (played server start s ms).2.1 :=
  History.foldl_playMove server (p := ([], start, s)) .start ms

/-- Whatever was done to it, a session that is connected has one transport
open, and one that is not has none. -/
theorem History.opened_eq (h : History start ms es w) (hs : Unused start) :
    opened es = closed es + w.connection.connected.toNat := by
  have key : Balanced start es w := by
    induction h with
    | start => exact balanced_composes.refl _
    | move _ hm ih => exact balanced_composes.trans ih (keeps_move hm)
  unfold Balanced at key
  rw [hs.1] at key
  simpa using key

/-- A session is retired as soon as one of the moves was a closing. -/
theorem History.retired_eq (h : History start ms es w) (hs : Unused start) :
    w.connection.retired = ms.any Move.closes := by
  induction h with
  | start => exact hs.2
  | @move ms m es fs w w' r _ hm ih =>
    rw [List.any_append, List.any_cons, List.any_nil, Bool.or_false, ← ih]
    -- connecting leaves the mark of a closing as it is
    cases m with
    | connect | enter =>
      rcases connect_cases hm with ⟨-, -, rfl⟩ | ⟨-, ⟨-, -, hw⟩ | ⟨-, -, hw⟩ | ⟨-, -, hw⟩⟩
      · simp [Move.closes]
      all_goals simp [hw, Move.closes]
    | close | leave =>
      rcases close_cases hm with ⟨hr, -, -, rfl⟩ | ⟨-, -, -, hw⟩
      · simp [hr]
      · simp [hw, Move.closes]

/-! ## Blocks

A program may nest blocks, catch some faults of what it does inside them and
leave by others. What it does to the session is a sequence of moves all the
same, with an entry and a leaving for each block. -/

/-- All that an act does to a session is to make moves. -/
def Moves (x : Act α) : Prop :=
  ∀ ⦃start w w' : World⦄ ⦃ms : List Move⦄ ⦃es fs : List Exchange⦄ ⦃r : Except Fault α⦄,
    History start ms es w → x.Way w fs r w' → ∃ ns, History start (ms ++ ns) (es ++ fs) w'

theorem moves_act (m : Move) : Moves m.act := fun _ _ _ _ _ _ _ h hx => ⟨[m], h.move hx⟩

theorem moves_pure {a : α} : Moves (pure a : Act α) := by
  intro start w w' ms es fs r h hx
  obtain ⟨rfl, -, rfl⟩ := Act.way_pure_iff.1 hx
  exact ⟨[], by simpa using h⟩

theorem moves_fail {e : Fault} : Moves (Act.fail e : Act α) := by
  intro start w w' ms es fs r h hx
  obtain ⟨rfl, -, rfl⟩ := Act.way_fail_iff.1 hx
  exact ⟨[], by simpa using h⟩

theorem Moves.bind {x : Act α} {f : α → Act β} (hx : Moves x) (hf : ∀ a, Moves (f a)) :
    Moves (x >>= f) := by
  intro start w w' ms es fs r h hw
  rcases Act.way_bind_iff.1 hw with ⟨a, w₁, es₁, es₂, h₁, h₂, rfl⟩ | ⟨e, h₁, -⟩
  · obtain ⟨ns, h₁⟩ := hx h h₁
    obtain ⟨os, h₂⟩ := hf a h₁ h₂
    exact ⟨ns ++ os, by simpa [List.append_assoc] using h₂⟩
  · exact hx h h₁

theorem Moves.attempt {x : Act α} (hx : Moves x) : Moves (Act.attempt x) := by
  intro start w w' ms es fs r h hw
  obtain ⟨r₁, h₁, -⟩ := Act.way_attempt_iff.1 hw
  exact hx h h₁

/-- **A block makes moves** where what is done inside of it does. -/
theorem moves_within {x : Act α} (hx : Moves x) : Moves (within x) := by
  refine (moves_act .enter).bind fun _ => ?_
  refine hx.attempt.bind fun r => ?_
  refine (moves_act .leave).bind fun _ => ?_
  cases r with
  | ok a => exact moves_pure
  | error e => exact moves_fail

/-! ## What a closing settles -/

/-- **A session is settled by its first closing, and by no later one.** After
the first, however it ended, the session is not connected and as many
transports have been closed as opened. Any later closing asks nothing and
changes nothing. So after a closing all is settled just where it was the first
or the session was not connected anyway. -/
theorem close_settles {r : Except Fault Unit} (hs : Unused start) (h : History start ms es w)
    (hm : m.closes = true) (hx : m.act.Way w fs r w') :
    (ms.any Move.closes = false →
        w'.connection.connected = false ∧ opened (es ++ fs) = closed (es ++ fs)) ∧
      (ms.any Move.closes = true → fs = [] ∧ r = .ok () ∧ w' = w) ∧
      (w'.connection.connected = false ∧ opened (es ++ fs) = closed (es ++ fs) ↔
        ms.any Move.closes = false ∨ w.connection.connected = false) := by
  have hclose : close.Way w fs r w' := by
    cases m with
    | connect | enter => cases hm
    | close | leave => exact hx
  have hbal : opened (es ++ fs) = closed (es ++ fs) + w'.connection.connected.toNat :=
    (h.move hx).opened_eq hs
  rw [← h.retired_eq hs]
  rcases close_cases hclose with ⟨hr, rfl, rfl, rfl⟩ | ⟨hr, -, -, hw⟩
  · -- closed before: all is settled now only if it was already
    refine ⟨fun h => by simp [hr] at h, fun _ => ⟨rfl, rfl, rfl⟩, ?_⟩
    rw [hbal, hr]
    constructor
    · exact fun h => .inr h.1
    · rintro (h | h)
      · cases h
      · exact ⟨h, by rw [h]; rfl⟩
  · have hc : w'.connection.connected = false := by rw [hw]
    have hall : w'.connection.connected = false ∧ opened (es ++ fs) = closed (es ++ fs) :=
      ⟨hc, by rw [hbal, hc]; rfl⟩
    exact ⟨fun _ => hall, fun h => by simp [hr] at h, fun _ => .inl hr, fun _ => hall⟩

/-- A server that does whatever it is asked. -/
def willing : Server Unit := ⟨fun _ _ => ({ outcome := .ok .null }, ())⟩

theorem close_settles_first :
    Unused (.start {} {}) ∧
      (played willing (.start {} {}) () [.connect, .close]).2.1.connection.connected = false ∧
      opened (played willing (.start {} {}) () [.connect, .close]).1 = 1 ∧
      closed (played willing (.start {} {}) () [.connect, .close]).1 = 1 := by
  have h := history_played willing (.start {} {}) () [.connect]
  have hx := Act.way_run willing Session.close
    (played willing (.start {} {}) () [.connect]).2.1 ()
  have key := (close_settles ⟨rfl, rfl⟩ h (m := .close) rfl hx).1 rfl
  exact ⟨⟨rfl, rfl⟩, key.1, rfl, rfl⟩

/-- **A second closing does not close a session that was connected again:** of
two transports one stays open. -/
theorem reconnected_stays_open :
    ∃ es w', History (.start {} {}) [.connect, .close, .connect, .close] es w' ∧
      w'.connection.connected = true ∧ opened es = 2 ∧ closed es = 1 :=
  ⟨_, _, history_played willing (.start {} {}) () [.connect, .close, .connect, .close],
    rfl, rfl, rfl⟩

end Walkthrough.Session
