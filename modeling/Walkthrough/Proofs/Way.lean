import Walkthrough.Act
/-!
# Ways through a dialogue

A way through a dialogue is what one server makes of it: the requests it is
sent, each with the answer it gives, and where that ends. Whatever is true of
every way is true of every server (`way_run`), so nothing below speaks of a
server any more. The exchanges on a way decide where it ends (`Act.Way.unique`).
The ways of an act that is put together are the ways of its parts, one after
the other (`way_bind_iff`).

Two shapes of statement carry most of what follows. `Act.Gives` says what an
act can come to, as long as the answers on its way are of a kind; `Act.Keeps`
says how the world it leaves is related to the one it started from. Both pass
from the parts of an act to the whole.
-/

namespace Walkthrough

variable {α β σ : Type}

/-- A request and its answer. -/
abbrev Exchange := Request × Answer

/-- A member of a list with one more at the end is that one, or stands in the
list. -/
theorem eq_or_of_snoc {as front back : List α} {a x : α}
    (h : as ++ [a] = front ++ x :: back) :
    (front = as ∧ x = a ∧ back = []) ∨ ∃ mid, back = mid ++ [a] ∧ as = front ++ x :: mid := by
  rcases List.eq_nil_or_concat back with rfl | ⟨mid, d, rfl⟩
  · obtain ⟨rfl, hx⟩ := List.append_inj' h rfl
    cases hx
    exact .inl ⟨rfl, rfl, rfl⟩
  · have h : as ++ [a] = (front ++ x :: mid) ++ [d] := by simpa using h
    obtain ⟨rfl, hd⟩ := List.append_inj' h rfl
    cases hd
    exact .inr ⟨mid, List.concat_eq_append, rfl⟩

namespace Dialogue

/-- **A way through a dialogue:** the exchanges on it, and where it ends. -/
inductive Way : Dialogue α → List Exchange → α → Prop
  | done (a : α) : Way (.done a) [] a
  | ask {w : World} {q : Request} {k : Answer → Dialogue α} {r : Answer} {es : List Exchange}
      {a : α} (h : Way (k r) es a) : Way (.ask w q k) ((q, r) :: es) a

/-- The exchanges of a dialogue with one server. -/
def exchanges (server : Server σ) : Dialogue α → σ → List Exchange
  | done _, _ => []
  | ask _ q k, s =>
    (q, (server.answer s q).1) ::
      (k (server.answer s q).1).exchanges server (server.answer s q).2

/-- **What a server makes of a dialogue is a way through it.** -/
theorem way_run (server : Server σ) (d : Dialogue α) (s : σ) :
    d.Way (d.exchanges server s) (d.run server s).1 := by
  induction d generalizing s with
  | done a => exact .done a
  | ask w q k ih => exact .ask (ih _ _)

/-- On that way every answer is one of the server. -/
theorem answer_of_mem_exchanges {server : Server σ} {d : Dialogue α} {s : σ} {e : Exchange}
    (h : e ∈ d.exchanges server s) : ∃ t, e.2 = (server.answer t e.1).1 := by
  induction d generalizing s with
  | done a => simp [exchanges] at h
  | ask w q k ih =>
    rcases List.mem_cons.1 h with rfl | h
    · exact ⟨s, rfl⟩
    · exact ih _ h

/-- The exchanges of joined dialogues are those of both. -/
theorem exchanges_andThen (server : Server σ) (d : Dialogue α) (f : α → Dialogue β) (s : σ) :
    (d.andThen f).exchanges server s = d.exchanges server s ++
      (f (d.run server s).1).exchanges server (d.run server s).2 := by
  induction d generalizing s with
  | done a => rfl
  | ask w q k ih =>
    simp only [andThen, exchanges, run, List.cons_append]
    rw [ih]

theorem way_done_iff {a b : α} {es : List Exchange} : (done a).Way es b ↔ es = [] ∧ b = a := by
  constructor
  · rintro ⟨⟩
    exact ⟨rfl, rfl⟩
  · rintro ⟨rfl, rfl⟩
    exact .done _

theorem way_ask_iff {w : World} {q : Request} {k : Answer → Dialogue α} {es : List Exchange}
    {a : α} : (ask w q k).Way es a ↔ ∃ r fs, es = (q, r) :: fs ∧ (k r).Way fs a := by
  constructor
  · rintro ⟨⟩
    exact ⟨_, _, rfl, ‹_›⟩
  · rintro ⟨r, fs, rfl, h⟩
    exact .ask h

/-- **A way is told by its exchanges:** the answers on it decide where it ends. -/
theorem Way.unique {d : Dialogue α} {es : List Exchange} {a b : α} (h : d.Way es a)
    (h' : d.Way es b) : a = b := by
  induction h with
  | done a => exact (way_done_iff.1 h').2.symm
  | ask _ ih =>
    obtain ⟨r, fs, heq, h'⟩ := way_ask_iff.1 h'
    cases heq
    exact ih h'

/-- **Ways that begin alike are the same:** no way through a dialogue goes on where
another one has ended. -/
theorem Way.unique_of_append {d : Dialogue α} {es es' fs fs' : List Exchange} {a b : α}
    (h : d.Way es a) (h' : d.Way es' b) (heq : es ++ fs = es' ++ fs') : es = es' ∧ a = b := by
  induction h generalizing es' with
  | done a =>
    obtain ⟨rfl, rfl⟩ := way_done_iff.1 h'
    exact ⟨rfl, rfl⟩
  | ask _ ih =>
    obtain ⟨r, gs, rfl, hk⟩ := way_ask_iff.1 h'
    obtain ⟨hr, hrest⟩ := List.cons.inj heq
    cases hr
    obtain ⟨rfl, rfl⟩ := ih hk hrest
    exact ⟨rfl, rfl⟩

/-- The ways through joined dialogues are the ways through both. -/
theorem way_andThen_iff {d : Dialogue α} {f : α → Dialogue β} {es : List Exchange} {b : β} :
    (d.andThen f).Way es b ↔
      ∃ a es₁ es₂, d.Way es₁ a ∧ (f a).Way es₂ b ∧ es = es₁ ++ es₂ := by
  constructor
  · intro h
    induction d generalizing es with
    | done a => exact ⟨a, [], es, .done a, h, rfl⟩
    | ask w q k ih =>
      rw [andThen] at h
      obtain ⟨r, fs, rfl, hk⟩ := way_ask_iff.1 h
      obtain ⟨a, es₁, es₂, h₁, h₂, rfl⟩ := ih r hk
      exact ⟨a, (q, r) :: es₁, es₂, .ask h₁, h₂, rfl⟩
  · rintro ⟨a, es₁, es₂, h₁, h₂, rfl⟩
    induction h₁ with
    | done a => exact h₂
    | ask _ ih => exact .ask (ih h₂)

end Dialogue

namespace Act

variable {w w' : World} {es : List Exchange} {r : Except Fault α}

/-- A way of an act: the world it starts from, the exchanges on it, what it
comes to, and the world it leaves. -/
def Way (x : Act α) (w : World) (es : List Exchange) (r : Except Fault α) (w' : World) : Prop :=
  (x w).Way es (r, w')

/-- What comes of an act with one server is a way of it. -/
theorem way_run (server : Server σ) (x : Act α) (w : World) (s : σ) :
    x.Way w ((x w).exchanges server s) (x.run server w s).1.1 (x.run server w s).1.2 :=
  Dialogue.way_run server (x w) s

/-- **The exchanges of an act decide what it comes to.** -/
theorem Way.unique {x : Act α} {r₁ r₂ : Except Fault α} {w₁ w₂ : World}
    (h₁ : x.Way w es r₁ w₁) (h₂ : x.Way w es r₂ w₂) : r₁ = r₂ ∧ w₁ = w₂ :=
  Prod.mk.inj (Dialogue.Way.unique h₁ h₂)

theorem way_ofUpdate_iff {u : Update α} :
    (ofUpdate u).Way w es r w' ↔ es = [] ∧ (r, w') = u w :=
  Dialogue.way_done_iff

theorem way_pure_iff {a : α} :
    (Pure.pure a : Act α).Way w es r w' ↔ es = [] ∧ r = .ok a ∧ w' = w := by
  rw [← Prod.mk.injEq]
  exact Dialogue.way_done_iff

theorem way_fail_iff {e : Fault} :
    (fail e : Act α).Way w es r w' ↔ es = [] ∧ r = .error e ∧ w' = w := by
  rw [← Prod.mk.injEq]
  exact Dialogue.way_done_iff

theorem way_ofExcept_iff {ε : Type} {toFault : ε → Fault} {x : Except ε α} :
    (ofExcept toFault x).Way w es r w' ↔ es = [] ∧ r = x.mapError toFault ∧ w' = w := by
  cases x with
  | ok a => exact way_pure_iff
  | error e => exact way_fail_iff

/-- **The ways of two acts in sequence:** a way of the first and, unless that
ended in a fault, a way of the second. -/
theorem way_bind_iff {x : Act α} {f : α → Act β} {r : Except Fault β} :
    (x >>= f).Way w es r w' ↔
      (∃ a w₁ es₁ es₂, x.Way w es₁ (.ok a) w₁ ∧ (f a).Way w₁ es₂ r w' ∧ es = es₁ ++ es₂) ∨
        ∃ e, x.Way w es (.error e) w' ∧ r = .error e := by
  have h : (x >>= f).Way w es r w' ↔ ((x w).andThen (proceed f)).Way es (r, w') := Iff.rfl
  rw [h, Dialogue.way_andThen_iff]
  constructor
  · rintro ⟨⟨r₁, w₁⟩, es₁, es₂, h₁, h₂, rfl⟩
    cases r₁ with
    | ok a => exact .inl ⟨a, w₁, es₁, es₂, h₁, h₂, rfl⟩
    | error e =>
      obtain ⟨rfl, h₂⟩ := Dialogue.way_done_iff.1 h₂
      cases h₂
      rw [List.append_nil]
      exact .inr ⟨e, h₁, rfl⟩
  · rintro (⟨a, w₁, es₁, es₂, h₁, h₂, rfl⟩ | ⟨e, h₁, rfl⟩)
    · exact ⟨(.ok a, w₁), es₁, es₂, h₁, h₂, rfl⟩
    · exact ⟨(.error e, w'), es, [], h₁, .done _, by simp⟩

section

variable {server : Server σ} {s s₁ : σ} {x : Act α} {f : α → Act β} {a : α} {w₁ : World}

/-- **With one server,** a sequence is run from where its first part has led, -/
theorem run_bind_of_ok (h : x.run server w s = ((.ok a, w₁), s₁)) :
    (x >>= f).run server w s = (f a).run server w₁ s₁ := by
  show ((x w).andThen (proceed f)).run server s = _
  rw [Dialogue.run_andThen, show (x w).run server s = _ from h]
  rfl

/-- and its exchanges go on from there. -/
theorem exchanges_bind_of_ok (h : x.run server w s = ((.ok a, w₁), s₁)) :
    ((x >>= f) w).exchanges server s =
      (x w).exchanges server s ++ (f a w₁).exchanges server s₁ := by
  show ((x w).andThen (proceed f)).exchanges server s = _
  rw [Dialogue.exchanges_andThen, show (x w).run server s = _ from h]
  rfl

end

/-- **A sequence goes on from where its first part has led.** -/
theorem way_of_way_bind {x : Act α} {f : α → Act β} {r : Except Fault β} {a : α} {w₁ : World}
    {es₁ es₂ : List Exchange} (h₁ : x.Way w es₁ (.ok a) w₁)
    (h : (x >>= f).Way w (es₁ ++ es₂) r w') : (f a).Way w₁ es₂ r w' := by
  rcases way_bind_iff.1 h with ⟨b, w₂, fs₁, fs₂, hx, hf, heq⟩ | ⟨e, hx, -⟩
  · obtain ⟨rfl, hsame⟩ := Dialogue.Way.unique_of_append h₁ hx heq
    cases hsame
    rw [List.append_cancel_left heq]
    exact hf
  · obtain ⟨-, hsame⟩ := Dialogue.Way.unique_of_append h₁ hx (List.append_nil _).symm
    cases hsame

/-- A sequence that comes to a value comes to one in both parts. -/
theorem way_bind_ok {x : Act α} {f : α → Act β} {b : β} (h : (x >>= f).Way w es (.ok b) w') :
    ∃ a w₁ es₁ es₂, x.Way w es₁ (.ok a) w₁ ∧ (f a).Way w₁ es₂ (.ok b) w' ∧ es = es₁ ++ es₂ := by
  rcases way_bind_iff.1 h with h | ⟨e, -, he⟩
  · exact h
  · cases he

/-- **An act whose value is changed at the end** has the ways of the act itself, -/
theorem way_map_iff {x : Act α} {f : α → β} {r : Except Fault β} :
    (x >>= fun a => Pure.pure (f a)).Way w es r w' ↔ ∃ r₁, x.Way w es r₁ w' ∧ r = r₁.map f := by
  rw [way_bind_iff]
  constructor
  · rintro (⟨a, w₁, es₁, es₂, hx, hpure, rfl⟩ | ⟨e, hx, rfl⟩)
    · obtain ⟨rfl, rfl, rfl⟩ := way_pure_iff.1 hpure
      rw [List.append_nil]
      exact ⟨.ok a, hx, rfl⟩
    · exact ⟨.error e, hx, rfl⟩
  · rintro ⟨a | e, hx, rfl⟩
    · exact .inr ⟨_, hx, rfl⟩
    · exact .inl ⟨_, w', es, [], hx, way_pure_iff.2 ⟨rfl, rfl, rfl⟩, by simp⟩

/-- and so comes to values as it does. -/
theorem way_bind_pure_iff {x : Act α} {f : α → β} {b : β} :
    (x >>= fun a => Pure.pure (f a)).Way w es (.ok b) w' ↔
      ∃ a, x.Way w es (.ok a) w' ∧ b = f a := by
  rw [way_map_iff]
  constructor
  · rintro ⟨e | a, hx, hb⟩
    · cases hb
    · exact ⟨a, hx, Except.ok.inj hb⟩
  · rintro ⟨a, hx, rfl⟩
    exact ⟨.ok a, hx, rfl⟩

/-! An act that begins with one of these goes on from where they lead. -/

@[simp] theorem way_read_bind {γ : Type} {f : World → γ} {g : γ → Act α} :
    (read f >>= g).Way w es r w' ↔ (g (f w)).Way w es r w' := Iff.rfl

@[simp] theorem way_change_bind {f : World → World} {g : Unit → Act α} :
    (change f >>= g).Way w es r w' ↔ (g ()).Way (f w) es r w' := Iff.rfl

@[simp] theorem way_record_bind {h : Happening} {g : Unit → Act α} :
    (record h >>= g).Way w es r w' ↔ (g ()).Way (w.record h) es r w' := Iff.rfl

/-- So does one that begins with a change that goes well. -/
theorem ofUpdate_bind {u : Update β} {f : β → Act α} {b : β} {w₁ : World}
    (h : u w = (.ok b, w₁)) : (ofUpdate u >>= f) w = f b w₁ := by
  show proceed f (u w) = f b w₁
  rw [h]
  rfl

theorem way_ofUpdate_bind {u : Update β} {f : β → Act α} {b : β} {w₁ : World}
    (h : u w = (.ok b, w₁)) : (ofUpdate u >>= f).Way w es r w' ↔ (f b).Way w₁ es r w' := by
  unfold Way
  rw [ofUpdate_bind h]

/-- One that begins with a change that does not go well ends there. -/
theorem way_ofUpdate_bind_of_error {u : Update β} {f : β → Act α} {e : Fault} {w₁ : World}
    (h : u w = (.error e, w₁)) :
    (ofUpdate u >>= f).Way w es r w' ↔ es = [] ∧ r = .error e ∧ w' = w₁ := by
  show (proceed f (u w)).Way es (r, w') ↔ _
  rw [h, ← Prod.mk.injEq]
  exact Dialogue.way_done_iff

/-- One that begins with a value that may be a fault goes on with the value, or
ends there. -/
theorem way_ofExcept_bind {ε : Type} {toFault : ε → Fault} {x : Except ε β} {f : β → Act α} :
    (ofExcept toFault x >>= f).Way w es r w' ↔
      (∃ b, x = .ok b ∧ (f b).Way w es r w') ∨
        ∃ e, x = .error e ∧ es = [] ∧ r = .error (toFault e) ∧ w' = w := by
  cases x with
  | ok b => exact ⟨fun h => .inl ⟨b, rfl, h⟩, by rintro (⟨_, ⟨⟩, h⟩ | ⟨_, ⟨⟩, -⟩); exact h⟩
  | error e =>
    refine ⟨fun h => .inr ⟨e, rfl, way_fail_iff.1 h⟩, ?_⟩
    rintro (⟨_, ⟨⟩, -⟩ | ⟨_, ⟨⟩, h⟩)
    exact way_fail_iff.2 h

@[simp] theorem way_ask_bind {q : Request} {f : Answer → Act α} :
    (Act.ask q >>= f).Way w es r w' ↔ ∃ a fs, es = (q, a) :: fs ∧ (f a).Way w fs r w' :=
  Dialogue.way_ask_iff

theorem way_attempt_iff {x : Act α} {r : Except Fault (Except Fault α)} :
    (attempt x).Way w es r w' ↔ ∃ r₁, x.Way w es r₁ w' ∧ r = .ok r₁ := by
  unfold Way attempt
  rw [Dialogue.way_andThen_iff]
  constructor
  · rintro ⟨⟨r₁, w₁⟩, es₁, es₂, h₁, h₂, rfl⟩
    obtain ⟨rfl, h₂⟩ := Dialogue.way_done_iff.1 h₂
    cases h₂
    rw [List.append_nil]
    exact ⟨r₁, h₁, rfl⟩
  · rintro ⟨r₁, h₁, rfl⟩
    exact ⟨(r₁, w'), es, [], h₁, .done _, by simp⟩

/-- What follows an attempt follows whatever the act came to. -/
theorem way_attempt_bind {x : Act α} {f : Except Fault α → Act β} {r : Except Fault β} :
    (attempt x >>= f).Way w es r w' ↔
      ∃ r₁ w₁ es₁ es₂, x.Way w es₁ r₁ w₁ ∧ (f r₁).Way w₁ es₂ r w' ∧ es = es₁ ++ es₂ := by
  simp only [way_bind_iff, way_attempt_iff]
  constructor
  · rintro (⟨r₁, w₁, es₁, es₂, ⟨_, h₁, h⟩, h₂, rfl⟩ | ⟨e, ⟨r₁, -, h⟩, -⟩)
    · cases h
      exact ⟨r₁, w₁, es₁, es₂, h₁, h₂, rfl⟩
    · cases h
  · rintro ⟨r₁, w₁, es₁, es₂, h₁, h₂, rfl⟩
    exact .inl ⟨r₁, w₁, es₁, es₂, ⟨r₁, h₁, rfl⟩, h₂, rfl⟩

/-- **An act with another after it** in any case: a fault of the second stands in for
what the first came to. -/
theorem way_andFinally_iff {x : Act α} {last : Act Unit} :
    (x.andFinally last).Way w es r w' ↔
      ∃ r₁ w₁ es₁ r₂ es₂, x.Way w es₁ r₁ w₁ ∧ last.Way w₁ es₂ r₂ w' ∧ es = es₁ ++ es₂ ∧
        r = r₂.bind fun _ => r₁ := by
  unfold andFinally
  rw [way_attempt_bind]
  constructor
  · rintro ⟨r₁, w₁, es₁, es₂, h₁, h₂, rfl⟩
    rcases way_bind_iff.1 h₂ with ⟨_, w₂, fs₁, fs₂, hlast, hend, rfl⟩ | ⟨e, hlast, rfl⟩
    · have hend : fs₂ = [] ∧ r = r₁ ∧ w' = w₂ := by
        cases r₁ with
        | ok a => exact way_pure_iff.1 hend
        | error e => exact way_fail_iff.1 hend
      obtain ⟨rfl, rfl, rfl⟩ := hend
      exact ⟨r, w₁, es₁, _, fs₁, h₁, hlast, by simp, rfl⟩
    · exact ⟨r₁, w₁, es₁, _, es₂, h₁, hlast, rfl, rfl⟩
  · rintro ⟨r₁, w₁, es₁, r₂, es₂, h₁, h₂, rfl, rfl⟩
    refine ⟨r₁, w₁, es₁, es₂, h₁, ?_, rfl⟩
    cases r₂ with
    | ok _ =>
      refine way_bind_iff.2 (.inl ⟨_, w', es₂, [], h₂, ?_, by simp⟩)
      cases r₁ with
      | ok a => exact way_pure_iff.2 ⟨rfl, rfl, rfl⟩
      | error e => exact way_fail_iff.2 ⟨rfl, rfl, rfl⟩
    | error e => exact way_bind_iff.2 (.inr ⟨e, h₂, rfl⟩)

/-- An act done as well as can be comes to a value in any case. -/
theorem way_bestEffort_iff {x : Act α} {default : α} :
    (bestEffort default x).Way w es r w' ↔
      ∃ r₁, x.Way w es r₁ w' ∧ r = .ok (r₁.toOption.getD default) := by
  unfold bestEffort
  rw [way_attempt_bind]
  constructor
  · rintro ⟨r₁, w₁, es₁, es₂, h₁, h₂, rfl⟩
    have h₂ : es₂ = [] ∧ r = .ok (r₁.toOption.getD default) ∧ w' = w₁ := by
      cases r₁ <;> exact way_pure_iff.1 h₂
    obtain ⟨rfl, rfl, rfl⟩ := h₂
    rw [List.append_nil]
    exact ⟨r₁, h₁, rfl⟩
  · rintro ⟨r₁, h₁, rfl⟩
    refine ⟨r₁, w', es, [], h₁, ?_, by simp⟩
    cases r₁ <;> exact way_pure_iff.2 ⟨rfl, rfl, rfl⟩

/-- What follows it follows that value. -/
theorem way_bestEffort_bind {x : Act α} {default : α} {f : α → Act β} {r : Except Fault β} :
    (bestEffort default x >>= f).Way w es r w' ↔
      ∃ r₁ w₁ es₁ es₂, x.Way w es₁ r₁ w₁ ∧ (f (r₁.toOption.getD default)).Way w₁ es₂ r w' ∧
        es = es₁ ++ es₂ := by
  simp only [way_bind_iff, way_bestEffort_iff]
  constructor
  · rintro (⟨_, w₁, es₁, es₂, ⟨r₁, h₁, h⟩, h₂, rfl⟩ | ⟨e, ⟨r₁, -, h⟩, -⟩)
    · cases h
      exact ⟨r₁, w₁, es₁, es₂, h₁, h₂, rfl⟩
    · cases h
  · rintro ⟨r₁, w₁, es₁, es₂, h₁, h₂, rfl⟩
    exact .inl ⟨_, w₁, es₁, es₂, ⟨r₁, h₁, rfl⟩, h₂, rfl⟩

end Act

end Walkthrough
