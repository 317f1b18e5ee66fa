import Walkthrough.Decimal.Shortest
import Walkthrough.Proofs.Decimal.Double
/-!
# The shortest decimal reads back

Each neighbour that is found has been tried, and the decimal that stands in
where none is found is equal to the double. So the shortest decimal of a double
reads back as it (`ofDecimal_shortest`).
-/

namespace Walkthrough.Double

variable {m : Nat} {e : Int}

/-- A neighbour that is found reads back. -/
theorem readsBack_of_neighbour {count : Nat} {g : Grid} (h : neighbour? m e count = some g) :
    readsBack m e g = true := by
  unfold neighbour? at h
  dsimp only at h
  split at h
  · next hlow hhigh =>
    split at h
    · exact Option.some.inj h ▸ hlow
    · exact Option.some.inj h ▸ hhigh
  · next hlow _ => exact Option.some.inj h ▸ hlow
  · next _ hhigh => exact Option.some.inj h ▸ hhigh
  · cases h

/-- The shortest decimal reads back, or it is the exact one. -/
theorem readsBack_or_eq_exact (m : Nat) (e : Int) :
    readsBack m e (shortest m e) = true ∨ shortest m e = exact m e := by
  unfold shortest
  cases hfound : (List.range 17).findSome? fun i => neighbour? m e (i + 1) with
  | some g =>
    obtain ⟨i, -, hneighbour⟩ := List.exists_of_findSome?_eq_some hfound
    exact .inl (readsBack_of_neighbour hneighbour)
  | none => exact .inr rfl

theorem digits_exact_pos (hm : 0 < m) (e : Int) : 0 < (exact m e).digits := by
  unfold exact
  simp only [Nat.pow_eq]
  split
  · exact Nat.mul_pos hm (by positivity)
  · exact Nat.mul_pos hm (by positivity)

/-- The exact decimal has the value of the double. -/
theorem value_exact (m : Nat) (e : Int) :
    ((exact m e).digits : ℚ) * 10 ^ (exact m e).exponent = m * 2 ^ e := by
  unfold exact
  simp only [Nat.pow_eq]
  split
  · next he =>
    obtain ⟨k, rfl⟩ := Int.eq_ofNat_of_zero_le he
    simp
  · next he =>
    obtain ⟨k, hk⟩ := Int.eq_ofNat_of_zero_le (show 0 ≤ -e by omega)
    have hten : (10 : ℚ) ^ e = 2 ^ e * 5 ^ e := by
      rw [← mul_zpow]
      norm_num
    have hfive : (5 : ℚ) ^ k * 5 ^ e = 1 := by
      rw [← zpow_natCast, ← hk, ← zpow_add₀ (by norm_num), neg_add_cancel, zpow_zero]
    rw [hk]
    simp only [Int.toNat_natCast, Nat.cast_mul, Nat.cast_pow, Nat.cast_ofNat]
    calc (m : ℚ) * 5 ^ k * 10 ^ e = m * 2 ^ e * (5 ^ k * 5 ^ e) := by
          rw [hten]
          ring
      _ = m * 2 ^ e := by rw [hfive, mul_one]

/-- The shortest decimal of a double other than zero is none of zero. -/
theorem digits_shortest_pos (hm : 0 < m) (e : Int) : 0 < (shortest m e).digits := by
  rcases readsBack_or_eq_exact m e with hreads | hexact
  · refine Nat.pos_of_ne_zero fun hzero => ?_
    unfold readsBack ofDecimal at hreads
    rw [hzero] at hreads
    simp [zero, hm.ne] at hreads
  · rw [hexact]
    exact digits_exact_pos hm e

/-- **The shortest decimal of a double reads back as it,** with either sign. -/
theorem ofDecimal_shortest (negative : Bool) (h : Held m e) (hm : 0 < m) :
    ofDecimal negative (shortest m e).digits (shortest m e).exponent = finite negative m e := by
  rcases readsBack_or_eq_exact m e with hreads | hexact
  · have hfalse := of_decide_eq_true hreads
    rw [ofDecimal_signed, hfalse]
    rfl
  · rw [hexact]
    exact ofDecimal_eq_finite negative h hm (digits_exact_pos hm e) (value_exact m e)

end Walkthrough.Double
