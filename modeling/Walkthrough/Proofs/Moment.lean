import Walkthrough.Proofs.Act
/-!
# Moments of a run

A dialogue asks with the world as it stands at that moment, so what is true
whenever something is asked can be told from the tree of all its ways.
`Dialogue.Whenever` says it of a dialogue, and of each exchange on a way then
(`Dialogue.Whenever.moment`). An act keeps a relation throughout if it holds
from where the act starts up to any such moment and up to its end; that passes
from the parts of an act to the whole (`Act.closed_throughout`).
-/

namespace Walkthrough

variable {α β : Type} {P Q : World → Prop}

namespace Dialogue

/-- **The moment** at which a dialogue goes on to ask after some exchanges: the
world as it then is, if the dialogue is not done. -/
def moment : Dialogue α → List Exchange → Option World
  | done _, _ => none
  | ask w _ _, [] => some w
  | ask _ _ k, e :: es => (k e.2).moment es

/-- **Whenever something is asked the world is such.** -/
def Whenever (P : World → Prop) : Dialogue α → Prop
  | done _ => True
  | ask w _ k => P w ∧ ∀ a, (k a).Whenever P

theorem Whenever.mono {d : Dialogue α} (h : d.Whenever P) (hPQ : ∀ w, P w → Q w) :
    d.Whenever Q := by
  induction d with
  | done a => trivial
  | ask w q k ih => exact ⟨hPQ w h.1, fun a => ih a (h.2 a)⟩

/-- What is so in a dialogue and wherever it is carried on is so in both. -/
theorem Whenever.andThen {d : Dialogue α} {f : α → Dialogue β} (h : d.Whenever P)
    (hf : ∀ es a, d.Way es a → (f a).Whenever P) : (d.andThen f).Whenever P := by
  induction d with
  | done a => exact hf [] a (.done a)
  | ask w q k ih =>
    exact ⟨h.1, fun r => ih r (h.2 r) fun es a hway => hf ((q, r) :: es) a (.ask hway)⟩

/-- **It is so at the moment of each exchange** on a way. -/
theorem Whenever.moment {d : Dialogue α} {es front back : List Exchange} {e : Exchange} {a : α}
    (h : d.Whenever P) (hway : d.Way es a) (hes : es = front ++ e :: back) :
    ∃ m, d.moment front = some m ∧ P m := by
  induction hway generalizing front with
  | done a => simp at hes
  | @ask w q k r es a hway ih =>
    cases front with
    | nil => exact ⟨w, rfl, h.1⟩
    | cons d front =>
      cases hes
      exact ih (h.2 r) rfl

/-- The moments of a dialogue stay where it is carried on, -/
theorem moment_andThen_of_some {d : Dialogue α} {f : α → Dialogue β} {es : List Exchange}
    {m : World} (h : d.moment es = some m) : (d.andThen f).moment es = some m := by
  induction d generalizing es with
  | done a => cases h
  | ask w q k ih =>
    cases es with
    | nil => exact h
    | cons e es => exact ih e.2 h

/-- and those of the rest come after them. -/
theorem moment_andThen_of_way {d : Dialogue α} {f : α → Dialogue β} {es fs : List Exchange}
    {a : α} (h : d.Way es a) : (d.andThen f).moment (es ++ fs) = (f a).moment fs := by
  induction h with
  | done a => rfl
  | ask _ ih => exact ih

end Dialogue

namespace Act

variable {R : World → World → Prop}

/-- **An act keeps a relation throughout:** up to every moment at which it asks
something, and up to its end. -/
def Throughout (R : World → World → Prop) (x : Act α) : Prop :=
  Keeps (fun w _ w' => R w w') x ∧ ∀ w, (x w).Whenever (R w)

theorem throughout_ofUpdate {u : Update α} (h : ∀ w, R w (u w).2) : Throughout R (ofUpdate u) :=
  ⟨keeps_ofUpdate h, fun _ => trivial⟩

theorem composes_of_trans (hrefl : ∀ w, R w w)
    (htrans : ∀ {w₁ w₂ w₃}, R w₁ w₂ → R w₂ w₃ → R w₁ w₃) :
    Composes fun w _ w' => R w w' := ⟨hrefl, htrans⟩

/-- **To keep a relation throughout passes from parts to the whole.** -/
theorem closed_throughout (hrefl : ∀ w, R w w)
    (htrans : ∀ {w₁ w₂ w₃}, R w₁ w₂ → R w₂ w₃ → R w₁ w₃) : Closed (Throughout R) where
  read f := throughout_ofUpdate hrefl
  fail e := ⟨keeps_fail (composes_of_trans hrefl htrans), fun _ => trivial⟩
  bind {_ _ x f} hx hf := by
    refine ⟨hx.1.bind (composes_of_trans hrefl htrans) fun a => (hf a).1, fun w => ?_⟩
    refine (hx.2 w).andThen fun es r hway => ?_
    obtain ⟨r, w₁⟩ := r
    -- the second part starts where the first has led
    cases r with
    | ok a => exact ((hf a).2 w₁).mono fun m hm => htrans (hx.1 hway) hm
    | error e => trivial
  attempt hx := ⟨hx.1.attempt, fun w => (hx.2 w).andThen fun _ _ _ => trivial⟩

end Act

end Walkthrough
