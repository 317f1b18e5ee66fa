import Walkthrough.Proofs.Session.Primary
/-!
# Two runs that hear the same where it counts

Two runs from equal connections may hear different things, ask for different
pages and write different files. What they have in common is `Act.Twin`: as
long as the primary calls of both are answered alike, they make as many of
them, come to related values or to the same fault, and leave equal
connections. A fault of a kind that is excused ends the comparison. The
relation passes from the parts of two acts to the whole (`Twin.bind`). An act
that makes no primary call enters it by what it leaves of the connection alone
(`twin_of_leaves`); most acts are compared with themselves (`Act.Steady`).
-/

namespace Walkthrough

variable {α β : Type}

/-- Two runs came to related values, or to the same fault. -/
inductive Matches (R : α → α → Prop) : Except Fault α → Except Fault α → Prop
  | ok {a b : α} (h : R a b) : Matches R (.ok a) (.ok b)
  | error (e : Fault) : Matches R (.error e) (.error e)

theorem Matches.eq {r₁ r₂ : Except Fault α} (h : Matches (· = ·) r₁ r₂) : r₁ = r₂ := by
  cases h with
  | ok h => rw [h]
  | error e => rfl

theorem matches_refl (r : Except Fault α) : Matches (· = ·) r r := by
  cases r with
  | ok _ => exact .ok rfl
  | error e => exact .error e

/-- A run ended in a fault that is excused. -/
def Excused (F : Fault → Prop) (r : Except Fault α) : Prop := ∃ e, r = .error e ∧ F e

namespace Act

/-- **Two acts that come to the same** from equal connections, if their primary
calls are answered alike and no fault is excused. -/
def Twin (F : Fault → Prop) (R : α → α → Prop) (x y : Act α) : Prop :=
  ∀ ⦃w₁ es r₁ w₁' w₂ fs r₂ w₂'⦄, x.Way w₁ es r₁ w₁' → y.Way w₂ fs r₂ w₂' →
    w₁.connection = w₂.connection → Agree es fs →
    (Excused F r₁ ∨ Excused F r₂) ∨
      ((primaries es).length = (primaries fs).length ∧ Matches R r₁ r₂ ∧
        w₁'.connection = w₂'.connection)

variable {F : Fault → Prop} {R : α → α → Prop} {S : β → β → Prop} {x y : Act α}

/-- **What two sequences have in common** follows from their parts. -/
theorem Twin.bind {f g : α → Act β} (hx : Twin F R x y)
    (hf : ∀ a b, R a b → Twin F S (f a) (g b)) : Twin F S (x >>= f) (y >>= g) := by
  intro w₁ es r₁ w₁' w₂ fs r₂ w₂' hxf hyg hw hag
  rcases way_bind_iff.1 hxf with ⟨a, v₁, es₁, es₂, hx₁, hx₂, rfl⟩ | ⟨e, hx₁, rfl⟩ <;>
    rcases way_bind_iff.1 hyg with ⟨b, v₂, fs₁, fs₂, hy₁, hy₂, rfl⟩ | ⟨e', hy₁, rfl⟩
  · -- both go on, from where the first parts have left equal connections
    rcases hx hx₁ hy₁ hw hag.front with (⟨_, h, -⟩ | ⟨_, h, -⟩) | ⟨hlen, hab, hv⟩
    · cases h
    · cases h
    · obtain ⟨hab⟩ := hab
      rcases hf a b hab hx₂ hy₂ hv (hag.back hlen) with he | ⟨hlen', hr, hw'⟩
      · exact .inl he
      · refine .inr ⟨?_, hr, hw'⟩
        rw [primaries_append, primaries_append, List.length_append, List.length_append, hlen, hlen']
  · -- only one goes on: the fault of the other is excused
    have hag' : Agree (es₁ ++ es₂) (fs ++ []) := by rwa [List.append_nil]
    rcases hx hx₁ hy₁ hw hag'.front with (⟨_, h, -⟩ | ⟨_, h, hF⟩) | ⟨-, hab, -⟩
    · cases h
    · cases h
      exact .inl (.inr ⟨_, rfl, hF⟩)
    · cases hab
  · have hag' : Agree (es ++ []) (fs₁ ++ fs₂) := by rwa [List.append_nil]
    rcases hx hx₁ hy₁ hw hag'.front with (⟨_, h, hF⟩ | ⟨_, h, -⟩) | ⟨-, hab, -⟩
    · cases h
      exact .inl (.inl ⟨_, rfl, hF⟩)
    · cases h
    · cases hab
  · rcases hx hx₁ hy₁ hw hag with (⟨_, h, hF⟩ | ⟨_, h, hF⟩) | ⟨hlen, hab, hv⟩
    · cases h
      exact .inl (.inl ⟨_, rfl, hF⟩)
    · cases h
      exact .inl (.inr ⟨_, rfl, hF⟩)
    · cases hab
      exact .inr ⟨hlen, .error _, hv⟩

/-- **An act that comes to the same** when it is done twice in this way. -/
def Steady (F : Fault → Prop) (R : α → α → Prop) (x : Act α) : Prop := Twin F R x x

theorem Steady.bind {f : α → Act β} (hx : Steady F R x)
    (hf : ∀ a b, R a b → Twin F S (f a) (f b)) : Steady F S (x >>= f) := Twin.bind hx hf

/-- What follows an act with one value needs no comparison of values. -/
theorem Steady.next {f : α → Act β} (hx : Steady F (· = ·) x) (hf : ∀ a, Steady F S (f a)) :
    Steady F S (x >>= f) := Twin.bind hx fun a _ hab => hab ▸ hf a

theorem twin_ofUpdate {u v : Update α} (h : ∀ w₁ w₂ : World, w₁.connection = w₂.connection →
    (Excused F (u w₁).1 ∨ Excused F (v w₂).1) ∨
      (Matches R (u w₁).1 (v w₂).1 ∧ (u w₁).2.connection = (v w₂).2.connection)) :
    Twin F R (ofUpdate u) (ofUpdate v) := by
  intro w₁ es r₁ w₁' w₂ fs r₂ w₂' hx hy hw _
  obtain ⟨rfl, hu⟩ := way_ofUpdate_iff.1 hx
  obtain ⟨rfl, hv⟩ := way_ofUpdate_iff.1 hy
  have := h w₁ w₂ hw
  rw [← hu, ← hv] at this
  rcases this with he | ⟨hr, hw'⟩
  · exact .inl he
  · exact .inr ⟨rfl, hr, hw'⟩

theorem twin_pure {a b : α} (h : R a b) : Twin F R (Pure.pure a) (Pure.pure b) :=
  twin_ofUpdate (u := Pure.pure a) (v := Pure.pure b) fun _ _ hw => .inr ⟨.ok h, hw⟩

theorem steady_pure {a : α} (h : R a a) : Steady F R (Pure.pure a) := twin_pure h

theorem steady_fail {e : Fault} : Steady F R (fail e) :=
  twin_ofUpdate (u := .fail e) (v := .fail e) fun _ _ hw => .inr ⟨.error e, hw⟩

theorem steady_read {f : World → α} : Steady F (fun _ _ => True) (read f) :=
  twin_ofUpdate fun _ _ hw => .inr ⟨.ok trivial, hw⟩

theorem steady_readConnection : Steady F (· = ·) (read fun w => w.connection) :=
  twin_ofUpdate fun _ _ hw => .inr ⟨.ok hw, hw⟩

theorem steady_changeConnection {f : Connection → Connection} :
    Steady F (· = ·) (Session.changeConnection f) :=
  twin_ofUpdate fun _ _ hw => .inr ⟨.ok rfl, congrArg f hw⟩

theorem steady_ofExcept {ε : Type} {toFault : ε → Fault} {r : Except ε α} :
    Steady F (fun a b => a = b ∧ r = .ok a) (ofExcept toFault r) := by
  cases r with
  | ok a => exact steady_pure ⟨rfl, rfl⟩
  | error e => exact steady_fail

/-- Where no fault is excused, attempts have their faults in common too. -/
theorem Steady.attempt (h : Steady (fun _ => False) (· = ·) x) :
    Steady F (· = ·) (attempt x) := by
  intro w₁ es _ w₁' w₂ fs _ w₂' hax hay hw hag
  obtain ⟨r₁, hx, rfl⟩ := way_attempt_iff.1 hax
  obtain ⟨r₂, hy, rfl⟩ := way_attempt_iff.1 hay
  rcases h hx hy hw hag with (⟨_, -, he⟩ | ⟨_, -, he⟩) | ⟨hlen, hr, hw'⟩
  · exact he.elim
  · exact he.elim
  · exact .inr ⟨hlen, .ok hr.eq, hw'⟩

/-! ## Acts that make no primary call -/

/-- The connection without its memory of the page script. -/
def forgotten (c : Connection) : Connection := { c with scriptReady := false }

/-- The act makes no primary call, and what it leaves of the connection is told
by what it starts from. -/
def Leaves (g : Connection → Connection) (x : Act α) : Prop :=
  Keeps (fun w es w' => primaries es = [] ∧ w'.connection = g w.connection) x

/-- No primary call was made, and nothing became of the connection but that the
page script may have been forgotten. -/
def Aside (w : World) (es : List Exchange) (w' : World) : Prop :=
  primaries es = [] ∧ (w'.connection = w.connection ∨ w'.connection = forgotten w.connection)

theorem composes_aside : Composes Aside where
  refl _ := ⟨rfl, .inl rfl⟩
  trans := by
    rintro w w₁ w₂ es fs ⟨hes, hw₁⟩ ⟨hfs, hw₂⟩
    refine ⟨by rw [primaries_append, hes, hfs]; rfl, ?_⟩
    -- forgetting twice is forgetting once
    rcases hw₁ with hw₁ | hw₁ <;> rcases hw₂ with hw₂ | hw₂ <;> rw [hw₂, hw₁]
    · exact .inl rfl
    · exact .inr rfl
    · exact .inr rfl
    · exact .inr rfl

theorem Leaves.aside (h : Leaves id x) : Keeps Aside x := fun _ _ _ _ hx => (h hx).imp_right .inl

theorem Leaves.aside_of_forgotten (h : Leaves forgotten x) : Keeps Aside x :=
  fun _ _ _ _ hx => (h hx).imp_right .inr

theorem composes_leaves :
    Composes fun w es w' => primaries es = [] ∧ w'.connection = id w.connection where
  refl _ := ⟨rfl, rfl⟩
  trans := by
    rintro w w₁ w₂ es fs ⟨hes, hw₁⟩ ⟨hfs, hw₂⟩
    exact ⟨by rw [primaries_append, hes, hfs]; rfl, hw₂.trans hw₁⟩

theorem leaves_pure {a : α} : Leaves id (Pure.pure a : Act α) := keeps_pure composes_leaves

theorem leaves_ofExcept {ε : Type} {toFault : ε → Fault} {r : Except ε α} :
    Leaves id (ofExcept toFault r) := by
  cases r with
  | ok a => exact keeps_pure composes_leaves
  | error e => exact keeps_fail composes_leaves

theorem Leaves.bestEffort {g : Connection → Connection} {default : α} (h : Leaves g x) :
    Leaves g (bestEffort default x) := Keeps.bestEffort h

/-- Acts that leave the connection alone do so one after the other. -/
theorem Leaves.bind {f : α → Act β} (hx : Leaves id x) (hf : ∀ a, Leaves id (f a)) :
    Leaves id (x >>= f) := Keeps.bind composes_leaves hx hf

/-- What has been forgotten stays so, whatever is done aside. -/
theorem Leaves.bind_aside {f : α → Act β} (hx : Leaves forgotten x)
    (hf : ∀ a, Keeps Aside (f a)) : Leaves forgotten (x >>= f) := by
  intro w es r w' h
  rcases way_bind_iff.1 h with ⟨a, w₁, es₁, es₂, h₁, h₂, rfl⟩ | ⟨e, h₁, -⟩
  · obtain ⟨hes, hw₁⟩ := hx h₁
    obtain ⟨hfs, hw₂⟩ := hf a h₂
    refine ⟨by rw [primaries_append, hes, hfs]; rfl, ?_⟩
    rcases hw₂ with hw₂ | hw₂
    · rw [hw₂, hw₁]
    · rw [hw₂, hw₁]
      rfl
  · exact hx h₁

/-- **Acts that make no primary call** come to the same, as far as anyone minds,
however differently they go. -/
theorem twin_of_leaves {g : Connection → Connection} (hx : Leaves g x) (hy : Leaves g y)
    (gx : Gives (fun _ => True) x (fun _ => True) F)
    (gy : Gives (fun _ => True) y (fun _ => True) F) : Twin F (fun _ _ => True) x y := by
  intro w₁ es r₁ w₁' w₂ fs r₂ w₂' hxw hyw hw _
  obtain ⟨hes, hw₁⟩ := hx hxw
  obtain ⟨hfs, hw₂⟩ := hy hyw
  -- there is nothing to compare but the connections, unless one has a fault
  have h₁ := gx hxw fun _ _ => trivial
  have h₂ := gy hyw fun _ _ => trivial
  cases r₁ with
  | error e => exact .inl (.inl ⟨e, rfl, h₁⟩)
  | ok a =>
    cases r₂ with
    | error e => exact .inl (.inr ⟨e, rfl, h₂⟩)
    | ok b => exact .inr ⟨by rw [hes, hfs], .ok trivial, by rw [hw₁, hw₂, hw]⟩

theorem Leaves.steady {g : Connection → Connection} (h : Leaves g x)
    (hg : Gives (fun _ => True) x (fun _ => True) F) : Steady F (fun _ _ => True) x :=
  twin_of_leaves h h hg hg

end Act

end Walkthrough
