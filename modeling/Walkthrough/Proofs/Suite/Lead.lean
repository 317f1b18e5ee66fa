import Walkthrough.Run.Suite
/-!
# What a suite does first with the page

A step opens a page, or asks the page that is there, or does neither. Of a
list of steps it matters what the first does that does either: that is its
lead (`Lead.first`). The lead of a suite decides on whose page it starts. A
suite that opens no page is given the page at the root of the site, so only a
suite that asks early, before the first page of its own, has a question for
its lead (`Suite.lead_eq_question_iff`).
-/

namespace Walkthrough

variable {α β : Type} {P Q : α → Prop} {as bs : List α} {a : α}

/-! ## What comes before all of a kind -/

/-- **Something of one kind comes before all of another.** -/
def Precedes (P Q : α → Prop) (as : List α) : Prop :=
  ∃ front a back, as = front ++ a :: back ∧ P a ∧ ∀ b ∈ front, ¬Q b

theorem not_precedes_nil : ¬Precedes P Q [] := by
  rintro ⟨front, a, back, h, -⟩
  simp at h

theorem precedes_cons_iff : Precedes P Q (a :: as) ↔ P a ∨ (¬Q a ∧ Precedes P Q as) := by
  constructor
  · rintro ⟨_ | ⟨b, front⟩, d, back, h, hd, hfront⟩
    · cases h
      exact .inl hd
    · cases h
      have ⟨hb, hrest⟩ := List.forall_mem_cons.1 hfront
      exact .inr ⟨hb, front, d, back, rfl, hd, hrest⟩
  · rintro (h | ⟨ha, front, d, back, rfl, hd, hfront⟩)
    · exact ⟨[], a, as, rfl, h, by simp⟩
    · exact ⟨a :: front, d, back, rfl, hd, List.forall_mem_cons.2 ⟨ha, hfront⟩⟩

/-- What comes later does not matter, -/
theorem Precedes.append (h : Precedes P Q as) : Precedes P Q (as ++ bs) := by
  obtain ⟨front, a, back, rfl, ha, hfront⟩ := h
  exact ⟨front, a, back ++ bs, by simp, ha, hfront⟩

/-- nor does what came earlier, if it is not of the other kind. -/
theorem Precedes.after (h : Precedes P Q bs) (has : ∀ b ∈ as, ¬Q b) : Precedes P Q (as ++ bs) := by
  obtain ⟨front, b, back, rfl, hb, hfront⟩ := h
  refine ⟨as ++ front, b, back, by simp, hb, fun d hd => ?_⟩
  rcases List.mem_append.1 hd with hd | hd
  · exact has d hd
  · exact hfront d hd

/-! ## Leads -/

/-- What is done first with the page. -/
inductive Lead where
  | nothing
  /-- A page is opened. -/
  | page
  /-- The page is asked something. -/
  | question
deriving DecidableEq, Repr, Inhabited

namespace Lead

/-- The lead of what goes on with something else. -/
def andThen : Lead → Lead → Lead
  | nothing, l => l
  | page, _ => page
  | question, _ => question

@[simp] theorem nothing_andThen (l : Lead) : nothing.andThen l = l := rfl

@[simp] theorem andThen_nothing (l : Lead) : l.andThen nothing = l := by
  cases l <;> rfl

theorem andThen_assoc (l m n : Lead) : (l.andThen m).andThen n = l.andThen (m.andThen n) := by
  cases l <;> rfl

/-- The lead of a list: that of its first member that has one. -/
def first (k : α → Lead) : List α → Lead
  | [] => nothing
  | a :: rest => (k a).andThen (first k rest)

theorem first_append (k : α → Lead) (as bs : List α) :
    first k (as ++ bs) = (first k as).andThen (first k bs) := by
  induction as with
  | nil => rfl
  | cons a rest ih => simp only [List.cons_append, first, ih, andThen_assoc]

theorem first_map (k : β → Lead) (f : α → β) (as : List α) :
    first k (as.map f) = first (fun a => k (f a)) as := by
  induction as with
  | nil => rfl
  | cons a rest ih => rw [List.map_cons, first, first, ih]

/-- **Lists within a list** lead as they do one after the other. -/
theorem first_flatMap (k : β → Lead) (f : α → List β) (as : List α) :
    first k (as.flatMap f) = first (fun a => first k (f a)) as := by
  induction as with
  | nil => rfl
  | cons a rest ih => rw [List.flatMap_cons, first_append, first, ih]

/-- The lead is a question just where one comes before all pages. -/
theorem first_eq_question_iff {k : α → Lead} :
    first k as = question ↔ Precedes (k · = question) (k · = page) as := by
  induction as with
  | nil => exact ⟨nofun, fun h => absurd h not_precedes_nil⟩
  | cons a rest ih =>
    rw [precedes_cons_iff, ← ih, first]
    cases k a <;> simp [andThen]

end Lead

/-! ## Steps and suites -/

/-- What an action does first with the page. -/
def Action.lead : Action → Lead
  | .navigate _ => .page
  | .fill _ _ | .click _ | .assertVisible _ => .question
  | .unrecognized => .nothing

theorem Action.lead_eq_page_iff {a : Action} : a.lead = .page ↔ a.kind = .navigate := by
  cases a <;> simp [lead, kind]

/-- What a step does first with the page. -/
def FlatStep.lead (f : FlatStep) : Lead := (Step.classify f.step).action.lead

/-- One of its steps opens a page. -/
def Suite.Opens (s : Suite) : Prop := ∃ f ∈ s.flatten, f.lead = .page

/-- **The suite asks early:** it opens a page, but a step that fills, clicks or
looks stands before the first that does. -/
def Suite.AsksEarly (s : Suite) : Prop :=
  s.Opens ∧ Precedes (FlatStep.lead · = .question) (FlatStep.lead · = .page) s.flatten

theorem Run.opensPage_iff {s : Suite} : Run.opensPage s = true ↔ s.Opens := by
  simp only [Run.opensPage, List.any_eq_true, decide_eq_true_eq, ← Action.lead_eq_page_iff,
    Suite.Opens, FlatStep.lead]

/-- What a suite does first with the page: a suite that opens none starts on
the page at the root of the site. -/
def Suite.lead (s : Suite) : Lead :=
  if Run.opensPage s then .first FlatStep.lead s.flatten else .page

theorem Suite.lead_eq_question_iff {s : Suite} : s.lead = .question ↔ s.AsksEarly := by
  unfold lead AsksEarly
  rw [← Run.opensPage_iff]
  split
  · next h => simp only [h, true_and, Lead.first_eq_question_iff]
  · next h => simp [h]

instance (s : Suite) : Decidable s.AsksEarly :=
  decidable_of_iff _ Suite.lead_eq_question_iff

/-- Cases lead as their steps do, one after the other. -/
theorem Suite.first_flatten (s : Suite) :
    Lead.first FlatStep.lead s.flatten = Lead.first
      (fun case => Lead.first (fun raw => (Step.classify raw).action.lead) case.steps) s.cases := by
  unfold flatten
  simp only [Lead.first_flatMap, Lead.first_map, FlatStep.lead]

end Walkthrough
