import Walkthrough.Proofs.Session.Lifetime
/-!
# Transports in turn

`History.opened_eq` counts transports at the end of a history. Here they are
followed on the way: at every moment of a history, inside of a move as well, at
most one transport is open, and what is closed is the one that is open
(`InTurn`). A connecting that fails leaves nothing open, so it can be tried
again (`transports_balanced`).
-/

namespace Walkthrough.Session

variable {α : Type} {start w w' : World} {ms : List Move} {m : Move} {es fs : List Exchange}
  {n k : Nat} {r : Except Fault Unit}

/-- **Transports are opened and closed in turn,** with so many open at the
start: at no moment is there more than one, and none is closed that is not
open. -/
def InTurn (n : Nat) (es : List Exchange) : Prop :=
  ∀ front, front <+: es →
    closed front ≤ opened front + n ∧ opened front + n ≤ closed front + 1

namespace InTurn

theorem nil (h : n ≤ 1) : InTurn n [] := by
  intro front hfront
  rw [List.prefix_nil.1 hfront]
  exact ⟨Nat.zero_le _, by simpa [opened, closed] using h⟩

/-- One exchange more in front. -/
theorem cons {e : Exchange} (hn : n ≤ 1)
    (hk : opened [e] + n = closed [e] + k) (h : InTurn k es) : InTurn n (e :: es) := by
  intro front hfront
  rcases List.prefix_cons_iff.1 hfront with rfl | ⟨rest, rfl, hrest⟩
  · exact ⟨Nat.zero_le _, by simpa [opened, closed] using hn⟩
  · have hrest := h rest hrest
    rw [← List.singleton_append, opened_append, closed_append]
    omega

/-- What is in turn up to some moment and from there on is in turn as a whole. -/
theorem append (hes : InTurn n es) (hk : opened es + n = closed es + k) (hfs : InTurn k fs) :
    InTurn n (es ++ fs) := by
  intro front hfront
  rcases List.prefix_or_prefix_of_prefix hfront (List.prefix_append es fs) with h | ⟨rest, rfl⟩
  · exact hes front h
  · have hrest := hfs rest ((List.prefix_append_right_inj es).1 hfront)
    rw [opened_append, closed_append]
    omega

/-- **No transport is closed twice:** when one is closed, there is one to
close. -/
theorem open_of_shuts {front back : List Exchange} {e : Exchange}
    (h : InTurn n (front ++ e :: back)) (he : shuts e = true) :
    opened front + n = closed front + 1 := by
  have hbefore := h front (List.prefix_append _ _)
  have hafter := h (front ++ [e]) ⟨back, by simp⟩
  have ho : opened [e] = 0 := by
    unfold shuts at he
    split at he
    · next hq => simp [opened, opens, hq]
    · cases he
  have hc : closed [e] = 1 := by simp [closed, he]
  rw [opened_append, closed_append] at hafter
  omega

end InTurn

/-! ## Moves -/

/-- A handshake opens one transport, and closes it if it comes to nothing. -/
theorem inTurn_of_handshake {command : List String} {greeted : Bool}
    (h : Handshake command es greeted) : InTurn 0 es := by
  cases h with
  | @unopened a ha =>
    have hopened : opened [(.connect command, a)] = 0 := by simp [opened, opens, ha]
    exact .cons (k := 0) (by omega) (by rw [hopened]; rfl) (.nil (by omega))
  | @ungreeted a b d ha hb =>
    have hopened : opened [(.connect command, a)] = 1 := by simp [opened, opens, ha]
    refine .cons (k := 1) (by omega) (by rw [hopened]; rfl) ?_
    refine .cons (k := 1) (by omega) rfl ?_
    exact .cons (k := 0) (by omega) rfl (.nil (by omega))
  | @greeted a b ha hb =>
    have hopened : opened [(.connect command, a)] = 1 := by simp [opened, opens, ha]
    refine .cons (k := 1) (by omega) (by rw [hopened]; rfl) ?_
    exact .cons (k := 1) (by omega) rfl (.nil (by omega))

theorem inTurn_connect (h : connect.Way w es r w') : InTurn w.connection.connected.toNat es := by
  cases hc : w.connection.connected with
  | true =>
    rcases connect_cases h with ⟨-, rfl, -⟩ | ⟨hc', -⟩
    · exact .nil (by decide)
    · rw [hc] at hc'
      cases hc'
  | false => exact inTurn_of_handshake (handshake_of_connect h hc).1

theorem inTurn_close (h : close.Way w es r w') : InTurn w.connection.connected.toNat es := by
  have hle : w.connection.connected.toNat ≤ 1 := Bool.toNat_le _
  cases hr : w.connection.retired with
  | true =>
    rcases close_cases h with ⟨-, rfl, -⟩ | ⟨hr', -⟩
    · exact .nil hle
    · rw [hr] at hr'
      cases hr'
  | false =>
    obtain ⟨⟨hc, a, rfl⟩ | ⟨-, rfl⟩, -⟩ := hangsUp_of_close h hr
    · exact .cons (k := 0) hle (by rw [hc]; rfl) (.nil (by omega))
    · exact .nil hle

theorem inTurn_move (h : m.act.Way w es r w') : InTurn w.connection.connected.toNat es := by
  cases m with
  | connect | enter => exact inTurn_connect h
  | close | leave => exact inTurn_close h

/-- **Transports are in turn in every history** of an unused session. -/
theorem History.inTurn (h : History start ms es w) (hs : Unused start) : InTurn 0 es := by
  induction h with
  | start => exact .nil (by omega)
  | move h hm ih =>
    refine ih.append ?_ (inTurn_move hm)
    rw [Nat.add_zero]
    exact h.opened_eq hs

/-! ## Connecting again -/

/-- A connecting that fails was made by a session that was not connected, and
leaves it so. -/
theorem connected_of_connect_error {e : Fault} (h : connect.Way w es (.error e) w') :
    w'.connection.connected = false := by
  cases hc : w.connection.connected with
  | true =>
    unfold connect at h
    rw [Act.way_read_bind, hc, if_pos rfl] at h
    cases (Act.way_pure_iff.1 h).2.1
  | false =>
    rw [(handshake_of_connect h hc).2]
    rfl

/-- **Transports are in balance** whatever is done to a session, in any order and
with any failures. After each move as many transports have been closed as opened
but for one where the session is connected, and on the way they are in turn, so
none is closed twice. A connecting that fails, also at the entry of a block,
leaves nothing open; trying it again is a new handshake, after which the session
is connected just where that went well. A block in which nothing is done to the
session but such moves is itself made of moves. -/
theorem transports_balanced (hs : Unused start) (h : History start ms es w) :
    opened es = closed es + w.connection.connected.toNat ∧
      InTurn 0 es ∧
      (∀ (front back : List Exchange) (e : Exchange), es = front ++ e :: back →
        shuts e = true → opened front = closed front + 1) ∧
      (∀ (m : Move) (fs : List Exchange) (e : Fault) (w' : World), m.closes = false →
        m.act.Way w fs (.error e) w' →
          w'.connection.connected = false ∧ opened (es ++ fs) = closed (es ++ fs) ∧
          ∀ (gs : List Exchange) (q : Except Fault Unit) (w'' : World), m.act.Way w' gs q w'' →
            Handshake w'.connection.command gs q.isOk ∧ w''.connection.connected = q.isOk) ∧
      ∀ (x : Act α) (fs : List Exchange) (q : Except Fault α) (w' : World), Moves x →
        (within x).Way w fs q w' → ∃ ns, History start (ms ++ ns) (es ++ fs) w' := by
  have hturn := h.inTurn hs
  refine ⟨h.opened_eq hs, hturn, ?_, ?_, fun x fs q w' hx hw => moves_within hx h hw⟩
  · rintro front back e rfl he
    exact hturn.open_of_shuts he
  · intro m fs e w' hm hw
    have hact : m.act = connect := by
      cases m with
      | connect | enter => rfl
      | close | leave => cases hm
    have hc : w'.connection.connected = false := by
      rw [hact] at hw
      exact connected_of_connect_error hw
    have hbalance := (h.move hw).opened_eq hs
    rw [hc] at hbalance
    refine ⟨hc, hbalance, fun gs q w'' hagain => ?_⟩
    rw [hact] at hagain
    obtain ⟨hshake, hafter⟩ := handshake_of_connect hagain hc
    exact ⟨hshake, by rw [hafter]⟩

/-- A server that starts, but does not greet back the first time. -/
def shy : Server Nat where
  answer greetings q :=
    match q, greetings with
    | .greet, 0 => ({ outcome := .error (.other "TimeoutError" "no greeting") }, 1)
    | _, n => ({ outcome := .ok .null }, n)

theorem transports_balanced_shy :
    Unused (.start {} {}) ∧
      opened (played shy (.start {} {}) 0 [.connect, .enter, .leave, .connect, .close]).1 = 3 ∧
      closed (played shy (.start {} {}) 0 [.connect, .enter, .leave, .connect, .close]).1 = 2 ∧
      InTurn 0 (played shy (.start {} {}) 0 [.connect, .enter, .leave, .connect, .close]).1 ∧
      ∃ fs e w', connect.Way (.start {} {}) fs (.error e) w' ∧
        w'.connection.connected = false ∧ opened fs = 1 ∧ closed fs = 1 := by
  have hplayed := transports_balanced (α := Unit) ⟨rfl, rfl⟩ (history_played shy (.start {} {}) 0
    [.connect, .enter, .leave, .connect, .close])
  have hfails : connect.Way (.start {} {}) _ (.error _) _ :=
    Act.way_run shy connect (.start {} {}) 0
  have hnone : History (.start {} {}) [] [] (.start {} {}) := .start
  have hstart := transports_balanced (α := Unit) ⟨rfl, rfl⟩ hnone
  obtain ⟨hc, -, -⟩ := hstart.2.2.2.1 .connect _ _ _ rfl hfails
  exact ⟨⟨rfl, rfl⟩, rfl, rfl, hplayed.2.1, _, _, _, hfails, hc, rfl, rfl⟩

end Walkthrough.Session
