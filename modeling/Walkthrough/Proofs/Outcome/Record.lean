import Walkthrough.Outcome.Record
import Walkthrough.Proofs.Json.Line
import Walkthrough.Proofs.Outcome
/-!
# What the record of a result states

The record of a result states how many steps passed and failed, and the status
of the suite and of each of its cases (`SuiteResult.states`). It can be read
back from its text, and what is read states the same (`SuiteResult.read_states`).
If its durations are as doubles are to be held, what is read is the record itself
(`SuiteResult.settled_toValue`), and so it is for any plan (`Suite.whole_plan`).
-/

namespace Walkthrough

open Json

namespace Json.Value

/-- Fields that differ in name from one are looked up behind it. -/
theorem lookup_rereadFields (fs : List (String × Value)) (name : String) :
    lookup (rereadFields fs) name = (lookup fs name).map reread := by
  unfold lookup
  rw [rereadFields_eq, List.find?_map, Option.map_map, Option.map_map]
  rfl

/-- **Rereading a value rereads its fields.** -/
theorem field_reread (v : Value) (name : String) : v.reread.field name = (v.field name).reread := by
  cases v with
  | record fs =>
    rw [reread]
    unfold field
    dsimp only
    rw [lookup_rereadFields]
    cases lookup fs name with
    | none => rfl
    | some u => rfl
  | _ => rfl

end Json.Value

/-- **A record states a result:** how many steps passed, how many failed, how
many there were, and the status of the suite and of each of its cases. -/
structure States (v : Value) (m n : Nat) : Prop where
  passed : v.field "passed" = .nat m
  failed : v.field "failed" = .nat n
  total : v.field "total" = .nat (m + n)
  status : v.field "status" = .text "ok" ↔ n = 0
  cases : ∃ ks, v.field "cases" = .list ks ∧ ((∀ k ∈ ks, k.field "status" = .text "ok") ↔ n = 0)

theorem text_name_eq_iff (s : Status) : Value.text s.name = .text "ok" ↔ s = .ok := by
  cases s with
  | ok => simp [Status.name]
  | failed => simp [Status.name]

/-- The record of a result states it. -/
theorem SuiteResult.states (r : SuiteResult) : States r.toValue r.passed r.failed where
  passed := rfl
  failed := rfl
  total := by
    rw [r.passed_add_failed]
    rfl
  status := (text_name_eq_iff r.status).trans r.status_eq_ok_iff_failed
  cases := by
    refine ⟨_, rfl, ?_⟩
    rw [r.failed_eq_zero_iff_cases, List.forall_mem_map]
    exact forall₂_congr fun k _ => text_name_eq_iff k.status

theorem reread_eq_text_iff (v : Value) (s : String) : v.reread = .text s ↔ v = .text s := by
  cases v <;> simp [Value.reread]

/-- What is stated does not depend on how durations are spelled. -/
theorem States.reread {v : Value} {m n : Nat} (h : States v m n) : States v.reread m n where
  passed := by
    rw [Value.field_reread, h.passed]
    rfl
  failed := by
    rw [Value.field_reread, h.failed]
    rfl
  total := by
    rw [Value.field_reread, h.total]
    rfl
  status := by rw [Value.field_reread, reread_eq_text_iff, h.status]
  cases := by
    obtain ⟨ks, hks, hstatus⟩ := h.cases
    refine ⟨ks.map Value.reread, ?_, ?_⟩
    · rw [Value.field_reread, hks, Value.reread, Value.rereadItems_eq]
    · rw [← hstatus, List.forall_mem_map]
      simp only [Value.field_reread, reread_eq_text_iff]

/-! ## Records that can be read back -/

namespace Json.Value

theorem legible_ofText? (s : Option String) : (ofText? s).Legible := by
  cases s with
  | none => exact .null
  | some s => exact .text s

theorem legible_nat {n : Nat} (h : n < integerBound) : (nat n).Legible := .int h

/-- A record of fields with names of their own, each of which can be read
back. -/
theorem legible_record {fs : List (String × Value)} (hnames : (fs.map (·.1)).Nodup)
    (h : ∀ v ∈ fs.map (·.2), v.Legible) : (record fs).Legible :=
  .record hnames fun f hf => h f.2 (List.mem_map_of_mem hf)

end Json.Value

theorem Outcome.legible_toValue (o : Outcome) : o.toValue.Legible := by
  refine Value.legible_record (by simp) ?_
  simp only [List.map_cons, List.map_nil, List.forall_mem_cons]
  exact ⟨.text _, .text _, .text _, .text _, Value.legible_ofText? _, .float _, by simp⟩

theorem CaseResult.legible_toValue (k : CaseResult) : k.toValue.Legible := by
  have houtcomes : (Value.list (k.outcomes.map (·.toValue))).Legible := by
    refine .list fun v hv => ?_
    obtain ⟨o, -, rfl⟩ := List.mem_map.1 hv
    exact o.legible_toValue
  refine Value.legible_record (by simp) ?_
  simp only [List.map_cons, List.map_nil, List.forall_mem_cons]
  exact ⟨.text _, .text _, houtcomes, by simp⟩

/-- **The record of a result can be read back** unless it counts more steps than
there are numbers for. -/
theorem SuiteResult.legible_toValue (r : SuiteResult) (h : r.total < integerBound) :
    r.toValue.Legible := by
  have hcases : (Value.list (r.cases.map (·.toValue))).Legible := by
    refine .list fun v hv => ?_
    obtain ⟨k, -, rfl⟩ := List.mem_map.1 hv
    exact k.legible_toValue
  have hadd := r.passed_add_failed
  have hpassed := Value.legible_nat (Nat.lt_of_le_of_lt (Nat.le.intro hadd) h)
  have hfailed := Value.legible_nat
    (Nat.lt_of_le_of_lt (Nat.le.intro ((Nat.add_comm _ _).trans hadd)) h)
  refine Value.legible_record (by simp) ?_
  simp only [List.map_cons, List.map_nil, List.forall_mem_cons]
  exact ⟨.text _, Value.legible_ofText? _, hpassed, hfailed, Value.legible_nat h, .text _, hcases,
    by simp⟩

/-- **What is read from the text of a result states it.** -/
theorem SuiteResult.read_states (r : SuiteResult) (h : r.total < integerBound) :
    ∃ v, Value.parse? r.toValue.toIndented = some v ∧ States v r.passed r.failed :=
  ⟨_, parse?_toIndented (r.legible_toValue h), r.states.reread⟩

/-! ## Records that are read as they are -/

namespace Json.Value

theorem whole_ofText? (s : Option String) : (ofText? s).Whole := by
  cases s with
  | none => exact .null
  | some s => exact .text s

end Json.Value

theorem FlatStep.whole_toValue (f : FlatStep) : f.toValue.Whole := by
  refine .record (by simp) ?_
  simp only [List.forall_mem_cons]
  exact ⟨.text _, .text _, List.forall_mem_nil _⟩

/-- **A plan holds no numbers,** so it is read as it is. -/
theorem Suite.whole_plan (s : Suite) : s.plan.Whole := by
  have hsteps : (Value.list (s.flatten.map (·.toValue))).Whole := by
    refine .list fun v hv => ?_
    obtain ⟨f, -, rfl⟩ := List.mem_map.1 hv
    exact f.whole_toValue
  refine .record (by simp) ?_
  simp only [List.forall_mem_cons]
  exact ⟨.text _, Value.whole_ofText? _, hsteps, List.forall_mem_nil _⟩

theorem Outcome.settled_toValue {o : Outcome} (h : o.duration.Proper) : o.toValue.Settled := by
  refine .record ?_
  simp only [List.forall_mem_cons]
  exact ⟨.text _, .text _, .text _, .text _, (Value.whole_ofText? _).settled, .float h,
    List.forall_mem_nil _⟩

theorem CaseResult.settled_toValue {k : CaseResult} (h : ∀ o ∈ k.outcomes, o.duration.Proper) :
    k.toValue.Settled := by
  have houtcomes : (Value.list (k.outcomes.map (·.toValue))).Settled := by
    refine .list fun v hv => ?_
    obtain ⟨o, ho, rfl⟩ := List.mem_map.1 hv
    exact Outcome.settled_toValue (h o ho)
  refine .record ?_
  simp only [List.forall_mem_cons]
  exact ⟨.text _, .text _, houtcomes, List.forall_mem_nil _⟩

/-- **A result is read as it is** if its durations are as doubles are to be
held. -/
theorem SuiteResult.settled_toValue {r : SuiteResult} (h : ∀ o ∈ r.perStep, o.duration.Proper) :
    r.toValue.Settled := by
  have hcases : (Value.list (r.cases.map (·.toValue))).Settled := by
    refine .list fun v hv => ?_
    obtain ⟨k, hk, rfl⟩ := List.mem_map.1 hv
    exact CaseResult.settled_toValue fun o ho => h o (List.mem_flatMap.2 ⟨k, hk, ho⟩)
  refine .record ?_
  simp only [List.forall_mem_cons]
  exact ⟨.text _, (Value.whole_ofText? _).settled, .int _, .int _, .int _, .text _, hcases,
    List.forall_mem_nil _⟩

end Walkthrough
