import Mathlib.Data.List.Nodup
import Walkthrough.Settings
/-!
# Variables of an environment and of a file

What a file binds completes an environment: the environment has the first word on
each variable, the file the second (`effective`). A name is bound once
(`names_resolve_nodup`), so whether the environment can be completed is a question
to each binding by itself (`exists_merge_iff`), and where it can, the completed
environment holds the effective values (`get?_of_merge`). What the bindings of a
file are depends on the variables that its values refer to, and on no others
(`resolve_congr`).
-/

namespace Walkthrough

variable {env env' : Environment} {name other value : String}

namespace Environment

@[simp] theorem get?_add :
    (env.add name value).get? other =
      (env.get? other).or (if name = other then some value else none) := by
  simp only [get?, add, List.find?_append, Option.map_or]
  split <;> simp_all

end Environment

namespace EnvFile

variable {bound : Bound} {bs : List Binding} {found : Option String}

/-! ## A name is bound once -/

namespace Bound

/-- The names that are bound. -/
def names (bound : Bound) : List String := bound.map (·.1)

theorem get?_cons :
    get? ((name, found) :: bound) other =
      if name = other then some found else get? bound other := by
  simp only [get?, List.find?_cons]
  split <;> simp_all

theorem get?_eq_none (h : name ∉ bound.names) : bound.get? name = none := by
  simp only [get?, Option.map_eq_none_iff, List.find?_eq_none, decide_eq_true_eq]
  rintro b hb rfl
  exact h (List.mem_map_of_mem hb)

/-- Binding a name leaves the names as they are, or adds this one. -/
theorem names_put :
    (bound.put name found).names =
      if name ∈ bound.names then bound.names else bound.names ++ [name] := by
  have hany : (bound.any (·.1 = name)) = true ↔ name ∈ bound.names := by
    simp [names, List.any_eq_true]
  unfold put
  simp only [hany]
  split
  · simp only [names, List.map_map]
    refine List.map_congr_left fun b _ => ?_
    simp only [Function.comp_apply]
    split <;> simp_all
  · simp [names]

theorem names_put_nodup (h : bound.names.Nodup) : (bound.put name found).names.Nodup := by
  rw [names_put]
  split
  · exact h
  · next hnew => exact h.append (List.nodup_singleton _) (by simpa using hnew)

end Bound

/-- **A file binds a name once,** however often it is written. -/
theorem names_resolve_nodup (env : Environment) (bs : List Binding) :
    (resolve env bs).names.Nodup := by
  have hfold : ∀ bound : Bound, bound.names.Nodup →
      (bs.foldl (fun bound b => bound.put b.name (b.value.map (expand env bound)))
        bound).names.Nodup := by
    induction bs with
    | nil => exact fun _ h => h
    | cons b rest ih => exact fun _ h => ih _ (Bound.names_put_nodup h)
  exact hfold [] List.nodup_nil

/-! ## What completes an environment -/

/-- **The value of a variable:** the environment's where it sets the variable, even to
the empty text, and else the one that the file binds it to, if it does. -/
def effective (env : Environment) (bound : Bound) (name : String) : Option String :=
  (env.get? name).or (bound.get? name).join

theorem effective_cons :
    effective env ((name, found) :: bound) other =
      (env.get? other).or (if name = other then found else (bound.get? other).join) := by
  rw [effective, Bound.get?_cons]
  split <;> rfl

/-- A variable of this name can have this value. -/
def CanSet (name value : String) : Prop :=
  Char.ofNat 0 ∉ name.toList ∧ Char.ofNat 0 ∉ value.toList ∧ '=' ∉ name.toList

instance : Decidable (CanSet name value) := inferInstanceAs (Decidable (_ ∧ _ ∧ _))

/-- **The bindings can be set,** those of variables that the environment sets aside. -/
def Settable (env : Environment) (bound : Bound) : Prop :=
  ∀ b ∈ bound, ∀ value ∈ b.2, env.get? b.1 = none → CanSet b.1 value

instance : Decidable (Settable env bound) :=
  inferInstanceAs (Decidable (∀ b ∈ bound, ∀ value ∈ b.2, env.get? b.1 = none → CanSet b.1 value))

/-! One binding after another: a name that is set or bound to nothing is passed
over, and one that is set anew is not bound again further down. -/

theorem merge_cons_isSet (h : (env.get? name).isSome) :
    merge env ((name, some value) :: bound) = merge env bound := by
  rw [merge, if_pos h]

theorem merge_cons_of_canSet (hopen : env.get? name = none) (h : CanSet name value) :
    merge env ((name, some value) :: bound) = merge (env.add name value) bound := by
  obtain ⟨hname, hvalue, hequals⟩ := h
  have hset : set env name value = .ok (env.add name value) := by
    rw [set, if_neg (not_or.2 ⟨hname, hvalue⟩), if_neg hequals]
  rw [merge, hopen, hset]
  rfl

theorem merge_cons_of_not_canSet (bound : Bound) (hopen : env.get? name = none)
    (h : ¬ CanSet name value) :
    ∃ e, merge env ((name, some value) :: bound) = .error e := by
  have hset : ∃ e, set env name value = .error e := by
    unfold set
    split
    · exact ⟨_, rfl⟩
    · next hzero =>
      obtain ⟨hname, hvalue⟩ := not_or.1 hzero
      split
      · exact ⟨_, rfl⟩
      · next hequals => exact absurd ⟨hname, hvalue, hequals⟩ h
  obtain ⟨e, he⟩ := hset
  exact ⟨e, by rw [merge, hopen, he]; rfl⟩

theorem settable_cons :
    Settable env ((name, found) :: bound) ↔
      (∀ value ∈ found, env.get? name = none → CanSet name value) ∧ Settable env bound :=
  List.forall_mem_cons

theorem settable_cons_isSet (h : (env.get? name).isSome) :
    Settable env ((name, found) :: bound) ↔ Settable env bound := by
  refine settable_cons.trans (and_iff_right fun value _ hopen => ?_)
  simp [hopen] at h

theorem settable_cons_none :
    Settable env ((name, none) :: bound) ↔ Settable env bound :=
  settable_cons.trans (and_iff_right nofun)

theorem settable_cons_open (hopen : env.get? name = none) (hnew : name ∉ bound.names) :
    Settable env ((name, some value) :: bound) ↔
      CanSet name value ∧ Settable (env.add name value) bound := by
  have hkept : ∀ b ∈ bound, (env.add name value).get? b.1 = none ↔ env.get? b.1 = none := by
    rintro b hmem
    have hne : name ≠ b.1 := fun heq => hnew (heq ▸ List.mem_map_of_mem hmem)
    simp [hne]
  rw [settable_cons]
  refine and_congr (by simp [hopen]) ?_
  refine forall₂_congr fun b hmem => forall₂_congr fun v _ => ?_
  rw [hkept b hmem]

/-- **An environment can be completed if and only if each binding can be set.** -/
theorem exists_merge_iff (hnames : bound.names.Nodup) :
    (∃ env', merge env bound = .ok env') ↔ Settable env bound := by
  induction bound generalizing env with
  | nil => simp [merge, Settable]
  | cons b rest ih =>
    obtain ⟨name, found⟩ := b
    obtain ⟨hnew, hrest⟩ := List.nodup_cons.1 hnames
    cases found with
    | none => rw [settable_cons_none, ← ih hrest, merge]
    | some value =>
      cases hname : env.get? name with
      | some held =>
        have hset : (env.get? name).isSome := by simp [hname]
        rw [merge_cons_isSet hset, settable_cons_isSet hset, ih hrest]
      | none =>
        rw [settable_cons_open hname hnew]
        by_cases hcan : CanSet name value
        · rw [merge_cons_of_canSet hname hcan, ih hrest, and_iff_right hcan]
        · obtain ⟨e, he⟩ := merge_cons_of_not_canSet rest hname hcan
          simp [he, hcan]

/-- **A completed environment holds the effective values.** -/
theorem get?_of_merge (hnames : bound.names.Nodup) (h : merge env bound = .ok env') :
    env'.get? other = effective env bound other := by
  induction bound generalizing env with
  | nil =>
    cases h
    simp [effective, Bound.get?]
  | cons b rest ih =>
    obtain ⟨name, found⟩ := b
    obtain ⟨hnew, hrest⟩ := List.nodup_cons.1 hnames
    rw [effective_cons]
    cases found with
    | none =>
      rw [merge] at h
      rw [ih hrest h, effective]
      split
      · next heq => rw [← heq, Bound.get?_eq_none hnew, Option.join_none]
      · rfl
    | some value =>
      cases hname : env.get? name with
      | some held =>
        rw [merge_cons_isSet (by simp [hname])] at h
        rw [ih hrest h, effective]
        split
        · next heq => simp [← heq, hname]
        · rfl
      | none =>
        by_cases hcan : CanSet name value
        · rw [merge_cons_of_canSet hname hcan] at h
          rw [ih hrest h, effective, Environment.get?_add, Option.or_assoc]
          split <;> rfl
        · obtain ⟨e, he⟩ := merge_cons_of_not_canSet rest hname hcan
          cases he.symm.trans h

/-! ## What the bindings depend on -/

/-- The variable that a piece refers to. -/
def Piece.variable? : Piece → Option String
  | plain _ => none
  | reference name _ => some name

/-- **The variables that the values of a file refer to.** -/
def mentioned (bs : List Binding) : List String :=
  bs.flatMap fun b => (piecesFrom 0 (b.value.getD "").toList).filterMap Piece.variable?

theorem expand_congr
    (h : ∀ piece ∈ piecesFrom 0 value.toList, ∀ name ∈ piece.variable?,
      env.get? name = env'.get? name) :
    expand env bound value = expand env' bound value := by
  unfold expand
  refine congrArg String.join (List.map_congr_left fun piece hmem => ?_)
  cases piece with
  | plain c => rfl
  | reference name fallback => rw [Piece.expand, Piece.expand, h _ hmem name rfl]

/-- **Environments that agree on what a file refers to find the same bindings in
it.** -/
theorem resolve_congr (h : ∀ name ∈ mentioned bs, env.get? name = env'.get? name) :
    resolve env bs = resolve env' bs := by
  unfold resolve
  generalize ([] : Bound) = bound
  induction bs generalizing bound with
  | nil => rfl
  | cons b rest ih =>
    rw [mentioned, List.flatMap_cons, List.forall_mem_append] at h
    have hvalue : b.value.map (expand env bound) = b.value.map (expand env' bound) := by
      refine Option.map_congr fun value hvalue => expand_congr fun piece hpiece name hname => ?_
      rw [hvalue] at h
      exact h.1 name (List.mem_filterMap.2 ⟨piece, hpiece, hname⟩)
    rw [List.foldl_cons, List.foldl_cons, hvalue]
    exact ih h.2 _

end EnvFile

end Walkthrough
