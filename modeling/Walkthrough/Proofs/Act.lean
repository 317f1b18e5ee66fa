import Walkthrough.Proofs.Way
/-!
# What acts come to, and what they keep

Two shapes of statement about every way of an act. `Act.Gives` bounds what it
can come to, as long as the exchanges on the way are of a kind; `Act.Keeps`
relates the world it leaves to the one it started from. Either passes from
the parts of an act to the whole, so a statement about a run is put together
along the text of the run.
-/

namespace Walkthrough

variable {α β : Type}

/-- It is a value of one kind or a fault of another. -/
def Ends (P : α → Prop) (F : Fault → Prop) : Except Fault α → Prop
  | .ok a => P a
  | .error e => F e

theorem Ends.mono {P Q : α → Prop} {F G : Fault → Prop} {r : Except Fault α} (h : Ends P F r)
    (hP : ∀ a, P a → Q a) (hF : ∀ e, F e → G e) : Ends Q G r := by
  cases r with
  | ok a => exact hP a h
  | error e => exact hF e h

/-- A value that is read further ends as its reading does. -/
theorem Ends.bind {P : α → Prop} {Q : β → Prop} {F : Fault → Prop} {r : Except Fault α}
    {f : α → Except Fault β} (h : Ends P F r) (hf : ∀ a, P a → Ends Q F (f a)) :
    Ends Q F (r >>= f) := by
  cases r with
  | ok a => exact hf a h
  | error e => exact h

theorem ends_mapError {ε : Type} {F : Fault → Prop} {toFault : ε → Fault} {x : Except ε α}
    (h : ∀ e, F (toFault e)) : Ends (fun _ => True) F (x.mapError toFault) := by
  cases x with
  | ok a => trivial
  | error e => exact h e

namespace Update

/-- What a change of the world can come to. -/
def Gives (u : Update α) (P : α → Prop) (F : Fault → Prop) : Prop := ∀ w, Ends P F (u w).1

variable {P : α → Prop} {F : Fault → Prop}

theorem gives_pure {a : α} (h : P a) : (Pure.pure a : Update α).Gives P F := fun _ => h

theorem gives_read {f : World → α} (h : ∀ w, P (f w)) : (read f).Gives P F := fun w => h w

theorem gives_change {P : Unit → Prop} {f : World → World} (h : P ()) : (change f).Gives P F :=
  fun _ => h

theorem gives_print {P : Unit → Prop} {n : Notice} (h : P ()) : (print n).Gives P F :=
  fun _ => h

theorem gives_log {P : Unit → Prop} {l : LogEntry} (h : P ()) : (log l).Gives P F :=
  fun _ => h

end Update

namespace Act

/-! ## What an act can come to -/

/-- **What an act can come to** where every exchange on the way is of a kind. -/
def Gives (A : Exchange → Prop) (x : Act α) (P : α → Prop) (F : Fault → Prop) : Prop :=
  ∀ ⦃w es r w'⦄, x.Way w es r w' → (∀ e ∈ es, A e) → Ends P F r

variable {A : Exchange → Prop} {P : α → Prop} {Q : β → Prop} {F G : Fault → Prop}

theorem Gives.mono {Q : α → Prop} {x : Act α} (h : Gives A x P F) (hP : ∀ a, P a → Q a)
    (hF : ∀ e, F e → G e) : Gives A x Q G :=
  fun _ _ _ _ hx hA => (h hx hA).mono hP hF

theorem gives_pure {a : α} (h : P a) : Gives A (Pure.pure a) P F := by
  intro w es r w' hx _
  obtain ⟨-, rfl, -⟩ := way_pure_iff.1 hx
  exact h

theorem gives_fail {e : Fault} (h : F e) : Gives A (fail e) P F := by
  intro w es r w' hx _
  obtain ⟨-, rfl, -⟩ := way_fail_iff.1 hx
  exact h

theorem gives_ofUpdate {u : Update α} (h : u.Gives P F) : Gives A (ofUpdate u) P F := by
  intro w es r w' hx _
  obtain ⟨-, hr⟩ := way_ofUpdate_iff.1 hx
  have := h w
  rwa [← hr] at this

theorem gives_read {f : World → α} (h : ∀ w, P (f w)) : Gives A (read f) P F :=
  gives_ofUpdate (Update.gives_read h)

theorem gives_change {P : Unit → Prop} {f : World → World} (h : P ()) :
    Gives A (change f) P F :=
  gives_ofUpdate (Update.gives_change h)

theorem gives_log {P : Unit → Prop} {l : LogEntry} (h : P ()) : Gives A (log l) P F :=
  gives_ofUpdate (Update.gives_log h)

theorem gives_ofExcept {ε : Type} {toFault : ε → Fault} {x : Except ε α}
    (h : Ends P F (x.mapError toFault)) : Gives A (ofExcept toFault x) P F := by
  refine gives_ofUpdate fun w => ?_
  cases x with
  | ok a => exact h
  | error e => exact h

/-- **What a sequence can come to.** -/
theorem Gives.bind {x : Act α} {f : α → Act β} (hx : Gives A x P F)
    (hf : ∀ a, P a → Gives A (f a) Q F) : Gives A (x >>= f) Q F := by
  intro w es r w' h hA
  rcases way_bind_iff.1 h with ⟨a, w₁, es₁, es₂, h₁, h₂, rfl⟩ | ⟨e, h₁, rfl⟩
  · have ha : P a := hx h₁ fun e he => hA e (List.mem_append_left _ he)
    exact hf a ha h₂ fun e he => hA e (List.mem_append_right _ he)
  · exact hx h₁ hA

/-- The fault of an act, too, is a value of its attempt. -/
theorem Gives.attempt {x : Act α} (hx : Gives A x P F) : Gives A (attempt x) (Ends P F) G := by
  intro w es r w' h hA
  obtain ⟨r₁, h₁, rfl⟩ := way_attempt_iff.1 h
  exact hx h₁ hA

/-- What follows in any case adds its own faults only. -/
theorem Gives.andFinally {x : Act α} {last : Act Unit} (hx : Gives A x P F)
    (hlast : Gives A last (fun _ => True) F) : Gives A (x.andFinally last) P F := by
  intro w es r w' h hA
  obtain ⟨r₁, w₁, es₁, r₂, es₂, h₁, h₂, rfl, rfl⟩ := way_andFinally_iff.1 h
  have hlast := hlast h₂ fun e he => hA e (List.mem_append_right _ he)
  cases r₂ with
  | ok _ => exact hx h₁ fun e he => hA e (List.mem_append_left _ he)
  | error e => exact hlast

/-- An act done as well as can be has no fault. -/
theorem gives_bestEffort {x : Act α} {default : α} :
    Gives A (bestEffort default x) (fun _ => True) F := by
  intro w es r w' h _
  obtain ⟨r₁, -, rfl⟩ := way_bestEffort_iff.1 h
  trivial

/-! ## What an act keeps -/

/-- A relation between a world, exchanges and a later world that passes from
the parts of a way to the whole. -/
structure Composes (T : World → List Exchange → World → Prop) : Prop where
  refl : ∀ w, T w [] w
  trans : ∀ {w w₁ w₂ es fs}, T w es w₁ → T w₁ fs w₂ → T w (es ++ fs) w₂

/-- **An act keeps a relation** between the world it starts from, what is
exchanged, and the world it leaves, whatever it comes to. -/
def Keeps (T : World → List Exchange → World → Prop) (x : Act α) : Prop :=
  ∀ ⦃w es r w'⦄, x.Way w es r w' → T w es w'

variable {T : World → List Exchange → World → Prop}

theorem keeps_pure (hT : Composes T) {a : α} : Keeps T (Pure.pure a : Act α) := by
  intro w es r w' h
  obtain ⟨rfl, -, rfl⟩ := way_pure_iff.1 h
  exact hT.refl _

theorem keeps_fail (hT : Composes T) {e : Fault} : Keeps T (fail e : Act α) := by
  intro w es r w' h
  obtain ⟨rfl, -, rfl⟩ := way_fail_iff.1 h
  exact hT.refl _

theorem keeps_ofUpdate {u : Update α} (h : ∀ w, T w [] (u w).2) : Keeps T (ofUpdate u) := by
  intro w es r w' hx
  obtain ⟨rfl, hr⟩ := way_ofUpdate_iff.1 hx
  have := h w
  rwa [← hr] at this

/-- **What both parts keep, the sequence keeps.** -/
theorem Keeps.bind (hT : Composes T) {x : Act α} {f : α → Act β} (hx : Keeps T x)
    (hf : ∀ a, Keeps T (f a)) : Keeps T (x >>= f) := by
  intro w es r w' h
  rcases way_bind_iff.1 h with ⟨a, w₁, es₁, es₂, h₁, h₂, rfl⟩ | ⟨e, h₁, -⟩
  · exact hT.trans (hx h₁) (hf a h₂)
  · exact hx h₁

/-- A value that is changed afterwards changes nothing else. -/
theorem Keeps.map {x : Act α} {f : α → β} (hx : Keeps T x) : Keeps T (f <$> x) := by
  intro w es r w' h
  obtain ⟨r₁, h₁, -⟩ := way_map_iff.1 h
  exact hx h₁

theorem Keeps.bestEffort {x : Act α} {default : α} (hx : Keeps T x) :
    Keeps T (bestEffort default x) := by
  intro w es r w' h
  obtain ⟨r₁, h₁, -⟩ := way_bestEffort_iff.1 h
  exact hx h₁

theorem Keeps.attempt {x : Act α} (hx : Keeps T x) : Keeps T (attempt x) := by
  intro w es r w' h
  obtain ⟨r₁, h₁, -⟩ := way_attempt_iff.1 h
  exact hx h₁

/-! ## Properties of acts -/

/-- **A property of acts that passes from the parts of an act to the whole.** -/
structure Closed (K : {α : Type} → Act α → Prop) : Prop where
  read {α : Type} (f : World → α) : K (read f)
  fail {α : Type} (e : Fault) : K (fail e : Act α)
  bind {α β : Type} {x : Act α} {f : α → Act β} (hx : K x) (hf : ∀ a, K (f a)) : K (x >>= f)
  attempt {α : Type} {x : Act α} (hx : K x) : K (attempt x)

namespace Closed

variable {K : {α : Type} → Act α → Prop} (h : Closed K)
include h

theorem pure (a : α) : K (Pure.pure a : Act α) := h.read fun _ => a

theorem map {x : Act α} {f : α → β} (hx : K x) : K (f <$> x) :=
  h.bind hx fun a => h.pure (f a)

theorem bestEffort {x : Act α} {default : α} (hx : K x) : K (bestEffort default x) := by
  refine h.bind (h.attempt hx) fun r => ?_
  cases r with
  | ok a => exact h.pure a
  | error e => exact h.pure default

theorem ofExcept {ε : Type} {toFault : ε → Fault} (x : Except ε α) : K (ofExcept toFault x) := by
  cases x with
  | ok a => exact h.pure a
  | error e => exact h.fail (toFault e)

end Closed

/-- To keep a relation is such a property. -/
theorem closed_keeps (hT : Composes T) : Closed (Keeps T) where
  read _ := keeps_ofUpdate fun w => hT.refl w
  fail _ := keeps_fail hT
  bind := Keeps.bind hT
  attempt := Keeps.attempt

theorem keeps_ofExcept (hT : Composes T) {ε : Type} {toFault : ε → Fault} {x : Except ε α} :
    Keeps T (ofExcept toFault x) := (closed_keeps hT).ofExcept x

end Act

end Walkthrough
