import Mathlib.Algebra.Order.Field.Power
import Mathlib.Data.Int.Log
import Mathlib.Data.Rat.Floor
import Mathlib.Tactic.Linarith
import Mathlib.Tactic.Positivity
import Walkthrough.Decimal.Double
/-!
# Rounding to doubles

A quotient is rounded to a double by its value alone: fractions of one value
give one double (`ofRatio_congr`), and so do decimals (`ofDecimal_congr`). What
comes out is a double as it is to be held, with its mantissa as long as it can
be (`proper_ofRatio`), and a value that such a double stands for is rounded to
that double (`ofRatio_eq_finite`, `ofDecimal_eq_finite`). Values are rational
numbers here, and logarithms those of Mathlib.
-/

namespace Walkthrough.Double

variable {num den num' den' n d m : Nat} {e : Int}

/-! ## Fractions -/

theorem log_eq_of {b : Nat} {v : ℚ} {k : Int} (hb : 1 < b) (hlow : (b : ℚ) ^ k ≤ v)
    (hhigh : v < (b : ℚ) ^ (k + 1)) : Int.log b v = k := by
  have hpos : (0 : ℚ) < v := lt_of_lt_of_le (by positivity) hlow
  have hle : k ≤ Int.log b v := (Int.zpow_le_iff_le_log hb hpos).1 hlow
  have hlt : Int.log b v < k + 1 := (Int.lt_zpow_iff_log_lt hb hpos).1 hhigh
  omega

/-- **A fraction is scaled** by a power of the base. -/
theorem scale_spec {b : Nat} (hb : 0 < b) (num : Nat) (hden : 0 < den) (e : Int) :
    0 < (scale b num den e).2 ∧
      ((scale b num den e).1 : ℚ) / (scale b num den e).2 = num / den * (b : ℚ) ^ (-e) := by
  have hbase : (b : ℚ) ≠ 0 := by positivity
  unfold scale
  simp only [Nat.pow_eq]
  split
  · next he =>
    obtain ⟨k, rfl⟩ := Int.eq_ofNat_of_zero_le he
    refine ⟨by positivity, ?_⟩
    simp only [Int.toNat_natCast, Nat.cast_mul, Nat.cast_pow, zpow_neg, zpow_natCast]
    rw [div_mul_eq_div_div, div_eq_mul_inv (_ / _)]
  · next he =>
    obtain ⟨k, hk⟩ := Int.eq_ofNat_of_zero_le (show 0 ≤ -e by omega)
    rw [hk]
    refine ⟨hden, ?_⟩
    simp only [Int.toNat_natCast, Nat.cast_mul, Nat.cast_pow, zpow_natCast]
    rw [mul_div_right_comm]

/-- Scaled by a power, a fraction is below one if it is below that power. -/
theorem scale_lt_iff {b : Nat} (hb : 0 < b) (num : Nat) (hden : 0 < den) (e : Int) :
    (scale b num den e).1 < (scale b num den e).2 ↔ (num : ℚ) / den < (b : ℚ) ^ e := by
  obtain ⟨hpos, hvalue⟩ := scale_spec hb num hden e
  rw [← Nat.cast_lt (α := ℚ), ← div_lt_one (by positivity), hvalue, zpow_neg, ← div_eq_mul_inv,
    div_lt_one (by positivity)]

/-- A quotient lies within a factor of two of what the lengths of both numbers tell. -/
theorem within_log2 (hnum : 0 < num) (hden : 0 < den) :
    (2 : ℚ) ^ ((Nat.log2 num : Int) - Nat.log2 den - 1) ≤ num / den ∧
      (num : ℚ) / den < 2 ^ ((Nat.log2 num : Int) - Nat.log2 den + 1) := by
  have hd : (0 : ℚ) < den := by positivity
  have hnumLow : (2 : ℚ) ^ (Nat.log2 num : Int) ≤ num := by
    exact_mod_cast Nat.log2_self_le hnum.ne'
  have hnumHigh : (num : ℚ) < 2 ^ ((Nat.log2 num : Int) + 1) := by
    exact_mod_cast Nat.lt_log2_self
  have hdenLow : (2 : ℚ) ^ (Nat.log2 den : Int) ≤ den := by
    exact_mod_cast Nat.log2_self_le hden.ne'
  have hdenHigh : (den : ℚ) < 2 ^ ((Nat.log2 den : Int) + 1) := by
    exact_mod_cast Nat.lt_log2_self
  generalize hk : (Nat.log2 num : Int) - Nat.log2 den = k
  constructor
  · rw [le_div_iff₀ hd]
    calc (2 : ℚ) ^ (k - 1) * den ≤ 2 ^ (k - 1) * 2 ^ ((Nat.log2 den : Int) + 1) := by gcongr
      _ = 2 ^ (Nat.log2 num : Int) := by
        rw [← zpow_add₀ (by norm_num)]
        congr 1
        omega
      _ ≤ num := hnumLow
  · rw [div_lt_iff₀ hd]
    calc (num : ℚ) < 2 ^ ((Nat.log2 num : Int) + 1) := hnumHigh
      _ = 2 ^ (k + 1) * 2 ^ (Nat.log2 den : Int) := by
        rw [← zpow_add₀ (by norm_num)]
        congr 1
        omega
      _ ≤ 2 ^ (k + 1) * den := by gcongr

/-- **The binary logarithm of a fraction** is that of its value. -/
theorem binaryLog_eq (hnum : 0 < num) (hden : 0 < den) :
    binaryLog num den = Int.log 2 ((num : ℚ) / den) := by
  obtain ⟨hlow, hhigh⟩ := within_log2 hnum hden
  have hcompare := scale_lt_iff (b := 2) (by decide) num hden (Nat.log2 num - Nat.log2 den)
  show (if (scale 2 num den (Nat.log2 num - Nat.log2 den)).1 <
      (scale 2 num den (Nat.log2 num - Nat.log2 den)).2 then _ else _) = _
  split
  · next h =>
    refine (log_eq_of (by decide) (by exact_mod_cast hlow) ?_).symm
    rw [sub_add_cancel]
    exact hcompare.1 h
  · next h =>
    exact (log_eq_of (by decide) (not_lt.1 fun hlt => h (hcompare.2 hlt))
      (by exact_mod_cast hhigh)).symm

/-! ## Rounding to natural numbers -/

theorem roundDiv_mul {c : Nat} (hc : 0 < c) (n d : Nat) :
    roundDiv (n * c) (d * c) = roundDiv n d := by
  have htwice : 2 * (n % d * c) = 2 * (n % d) * c := (Nat.mul_assoc ..).symm
  unfold roundDiv
  simp only [Nat.mul_div_mul_right _ _ hc, Nat.mul_mod_mul_right, htwice,
    Nat.mul_lt_mul_right hc]

/-- Fractions of one value are rounded to one number. -/
theorem roundDiv_congr {n' d' : Nat} (hd : 0 < d) (hd' : 0 < d') (h : (n : ℚ) / d = n' / d') :
    roundDiv n d = roundDiv n' d' := by
  have hcross : n * d' = n' * d := by
    rw [div_eq_div_iff (by positivity) (by positivity)] at h
    exact_mod_cast h
  calc roundDiv n d = roundDiv (n * d') (d * d') := (roundDiv_mul hd' n d).symm
    _ = roundDiv (n' * d) (d' * d) := by rw [hcross, Nat.mul_comm d d']
    _ = roundDiv n' d' := roundDiv_mul hd n' d'

theorem roundDiv_one (n : Nat) : roundDiv n 1 = n := by
  simp [roundDiv, Nat.mod_one]

/-- Rounding stays between natural numbers. -/
theorem le_roundDiv {c : Nat} (hd : 0 < d) (h : (c : ℚ) ≤ n / d) : c ≤ roundDiv n d := by
  have hq : c ≤ n / d := by
    rw [Nat.le_div_iff_mul_le hd]
    rw [le_div_iff₀ (by positivity)] at h
    exact_mod_cast h
  unfold roundDiv
  dsimp only
  split
  · exact hq
  · split <;> omega

theorem roundDiv_le {c : Nat} (hd : 0 < d) (h : (n : ℚ) / d < c) : roundDiv n d ≤ c := by
  have hq : n / d < c := by
    rw [Nat.div_lt_iff_lt_mul hd]
    rw [div_lt_iff₀ (by positivity)] at h
    exact_mod_cast h
  unfold roundDiv
  dsimp only
  split
  · exact hq.le
  · split <;> omega

/-! ## Doubles as they are held -/

/-- **A mantissa and an exponent as a double has them:** within their bounds, and
the mantissa as long as it can be, but for the least exponent. -/
structure Held (m : Nat) (e : Int) : Prop where
  short : m < mantissaLimit
  least : leastExponent ≤ e
  greatest : e ≤ greatestExponent
  full : mantissaLimit / 2 ≤ m ∨ e = leastExponent

/-- **A double is as it is to be held.** -/
def Proper : Double → Prop
  | finite _ m e => Held m e
  | _ => True

instance (m : Nat) (e : Int) : Decidable (Held m e) :=
  decidable_of_iff (m < mantissaLimit ∧ leastExponent ≤ e ∧ e ≤ greatestExponent ∧
      (mantissaLimit / 2 ≤ m ∨ e = leastExponent))
    ⟨fun ⟨short, least, greatest, full⟩ => ⟨short, least, greatest, full⟩,
      fun h => ⟨h.short, h.least, h.greatest, h.full⟩⟩

instance : DecidablePred Proper
  | finite _ m e => inferInstanceAs (Decidable (Held m e))
  | nan => isTrue trivial
  | infinite _ => isTrue trivial

/-- The exponent that a value is rounded to. -/
def lastPlace (v : ℚ) : Int := max leastExponent (Int.log 2 v - 52)

/-- **A quotient is rounded** at the last place of its value. -/
theorem ofRatio_eq (negative : Bool) (hnum : 0 < num) (hden : 0 < den) :
    ∃ n d : Nat, 0 < d ∧ (n : ℚ) / d = num / den * 2 ^ (-lastPlace ((num : ℚ) / den)) ∧
      ofRatio negative num den =
        normal negative (roundDiv n d) (lastPlace ((num : ℚ) / den)) := by
  obtain ⟨hd, hvalue⟩ :=
    scale_spec (b := 2) (by decide) num hden (lastPlace ((num : ℚ) / den))
  refine ⟨_, _, hd, by exact_mod_cast hvalue, ?_⟩
  unfold ofRatio
  rw [if_neg hnum.ne', binaryLog_eq hnum hden]
  rfl

/-- **Fractions of one value give one double.** -/
theorem ofRatio_congr (negative : Bool) (hden : 0 < den) (hden' : 0 < den')
    (h : (num : ℚ) / den = num' / den') :
    ofRatio negative num den = ofRatio negative num' den' := by
  have hzero : num = 0 ↔ num' = 0 := by
    rw [← Nat.cast_eq_zero (R := ℚ), ← Nat.cast_eq_zero (R := ℚ) (n := num')]
    have hd : (den : ℚ) ≠ 0 := by positivity
    have hd' : (den' : ℚ) ≠ 0 := by positivity
    rw [← div_eq_zero_iff.trans (or_iff_left hd), h, div_eq_zero_iff.trans (or_iff_left hd')]
  by_cases hnum : num = 0
  · rw [hnum, hzero.1 hnum]
    rfl
  · have hpos : 0 < num := Nat.pos_of_ne_zero hnum
    have hpos' : 0 < num' := Nat.pos_of_ne_zero fun h => hnum (hzero.2 h)
    obtain ⟨n, d, hd, hvalue, heq⟩ := ofRatio_eq negative hpos hden
    obtain ⟨n', d', hd', hvalue', heq'⟩ := ofRatio_eq negative hpos' hden'
    rw [heq, heq', h, roundDiv_congr hd hd' (by rw [hvalue, hvalue', h])]

/-- The last place of what a double stands for is its exponent. -/
theorem lastPlace_of_held (h : Held m e) (hm : 0 < m) : lastPlace (m * 2 ^ e) = e := by
  have hshort : (m : ℚ) < 2 ^ (53 : Int) := by exact_mod_cast h.short
  have hvalue : (m : ℚ) * 2 ^ e < 2 ^ (53 + e) := by
    rw [zpow_add₀ (by norm_num)]
    gcongr
  have hlog : Int.log 2 ((m : ℚ) * 2 ^ e) < 53 + e :=
    (Int.lt_zpow_iff_log_lt (by decide) (by positivity)).1 (by exact_mod_cast hvalue)
  unfold lastPlace
  rcases h.full with hfull | hleast
  · have hlong : (2 : ℚ) ^ (52 : Int) ≤ m := by exact_mod_cast hfull
    have hvalue' : (2 : ℚ) ^ (52 + e) ≤ m * 2 ^ e := by
      rw [zpow_add₀ (by norm_num)]
      gcongr
    have hlog' : 52 + e ≤ Int.log 2 ((m : ℚ) * 2 ^ e) :=
      (Int.zpow_le_iff_le_log (by decide) (by positivity)).1 (by exact_mod_cast hvalue')
    have hleast := h.least
    omega
  · omega

theorem normal_of_held (negative : Bool) (h : Held m e) :
    normal negative m e = finite negative m e := by
  unfold normal
  rw [if_pos h.short]
  exact if_neg (not_lt.2 h.greatest)

/-- **What a double stands for is rounded to it.** -/
theorem ofRatio_eq_finite (negative : Bool) (h : Held m e) (hm : 0 < m) (hden : 0 < den)
    (hvalue : (num : ℚ) / den = m * 2 ^ e) : ofRatio negative num den = finite negative m e := by
  have hnum : 0 < num := by
    rcases Nat.eq_zero_or_pos num with rfl | hpos
    · have hzero : (0 : ℚ) < m * 2 ^ e := by positivity
      rw [← hvalue] at hzero
      simp at hzero
    · exact hpos
  obtain ⟨n, d, hd, hscaled, heq⟩ := ofRatio_eq negative hnum hden
  rw [hvalue, lastPlace_of_held h hm] at heq hscaled
  have hm' : (n : ℚ) / d = (m : Nat) / (1 : Nat) := by
    rw [hscaled, mul_assoc, ← zpow_add₀ (by norm_num)]
    simp
  rw [heq, roundDiv_congr hd Nat.one_pos hm', roundDiv_one, normal_of_held negative h]

/-- A mantissa that has just become too long is held once it is halved. -/
theorem proper_normal (negative : Bool) (hm : m ≤ mantissaLimit) (he : leastExponent ≤ e)
    (hfull : mantissaLimit / 2 ≤ m ∨ e = leastExponent) : (normal negative m e).Proper := by
  unfold normal
  by_cases hshort : m < mantissaLimit
  · rw [if_pos hshort]
    dsimp only
    split
    · trivial
    · next hgreat => exact ⟨hshort, he, not_lt.1 hgreat, hfull⟩
  · rw [if_neg hshort, Nat.le_antisymm hm (not_lt.1 hshort)]
    dsimp only
    split
    · trivial
    · next hgreat => exact ⟨by decide, by omega, not_lt.1 hgreat, .inl (Nat.le_refl _)⟩

/-- **Scaled by its last place, a value is within the bounds of a mantissa,** from
below unless that place is the least there is. -/
theorem scaled_bounds {v : ℚ} (hv : 0 < v) :
    v * 2 ^ (-lastPlace v) < (mantissaLimit : Nat) ∧
      (((mantissaLimit / 2 : Nat) : ℚ) ≤ v * 2 ^ (-lastPlace v) ∨
        lastPlace v = leastExponent) := by
  have hlimit : ((mantissaLimit : Nat) : ℚ) = 2 ^ (53 : Int) := by norm_num [mantissaLimit]
  have hhalf : ((mantissaLimit / 2 : Nat) : ℚ) = 2 ^ (52 : Int) := by norm_num [mantissaLimit]
  rw [hlimit, hhalf, zpow_neg, ← div_eq_mul_inv, div_lt_iff₀ (by positivity),
    le_div_iff₀ (by positivity), ← zpow_add₀ (by norm_num), ← zpow_add₀ (by norm_num)]
  constructor
  · have hlog : Int.log 2 v + 1 ≤ 53 + lastPlace v := by
      unfold lastPlace
      omega
    calc v < 2 ^ (Int.log 2 v + 1) := by
          exact_mod_cast Int.lt_zpow_succ_log_self (b := 2) (by decide) v
      _ ≤ 2 ^ (53 + lastPlace v) := zpow_le_zpow_right₀ (by norm_num) hlog
  · by_cases hleast : lastPlace v = leastExponent
    · exact .inr hleast
    · have hplace : 52 + lastPlace v = Int.log 2 v := by
        unfold lastPlace at hleast ⊢
        omega
      rw [hplace]
      exact .inl (by exact_mod_cast Int.zpow_log_le_self (b := 2) (by decide) hv)

/-- **Whatever is rounded is a double as it is to be held.** -/
theorem proper_ofRatio (negative : Bool) (num : Nat) (hden : 0 < den) :
    (ofRatio negative num den).Proper := by
  rcases Nat.eq_zero_or_pos num with rfl | hnum
  · show Held 0 leastExponent
    decide
  · obtain ⟨n, d, hd, hscaled, heq⟩ := ofRatio_eq negative hnum hden
    have hpos : (0 : ℚ) < num / den := by positivity
    obtain ⟨hshort, hfull⟩ := scaled_bounds hpos
    rw [← hscaled] at hshort hfull
    rw [heq]
    exact proper_normal negative (roundDiv_le hd hshort) (le_max_left _ _)
      (hfull.imp_left (le_roundDiv hd))

/-! ## Decimals -/

/-- A number lies between the powers of ten that its digits tell. -/
theorem digitCount_spec (hn : 0 < n) :
    (10 : ℚ) ^ ((digitCount n : Int) - 1) ≤ n ∧ (n : ℚ) < 10 ^ (digitCount n : Int) := by
  have hiff {k : Nat} (hk : 0 < k) : digitCount n ≤ k ↔ n < 10 ^ k :=
    Nat.length_toDigits_le_iff (by decide) hk
  have hcount : 0 < digitCount n := List.length_pos_iff.2 Nat.toDigits_ne_nil
  refine ⟨?_, by exact_mod_cast (hiff hcount).1 (Nat.le_refl _)⟩
  obtain ⟨k, hk⟩ := Nat.exists_eq_add_of_lt hcount
  have hpred : (digitCount n : Int) - 1 = (k : Nat) := by omega
  rw [hpred]
  by_cases hzero : k = 0
  · rw [hzero]
    exact_mod_cast hn
  · have hnot : ¬n < 10 ^ k := fun hlt => by
      have := (hiff (Nat.pos_of_ne_zero hzero)).2 hlt
      omega
    exact_mod_cast not_lt.1 hnot

/-- **The place of the first digit** of a decimal is that of its value. -/
theorem place_eq (hn : 0 < n) (a : Int) :
    (digitCount n : Int) + a = Int.log 10 ((n : ℚ) * 10 ^ a) + 1 := by
  obtain ⟨hlow, hhigh⟩ := digitCount_spec hn
  have hlog : Int.log 10 ((n : ℚ) * 10 ^ a) = digitCount n - 1 + a := by
    refine log_eq_of (by decide) ?_ ?_
    · have hle : (10 : ℚ) ^ ((digitCount n : Int) - 1 + a) ≤ n * 10 ^ a := by
        rw [zpow_add₀ (by norm_num)]
        gcongr
      exact_mod_cast hle
    · have hlt : (n : ℚ) * 10 ^ a < 10 ^ ((digitCount n : Int) - 1 + a + 1) := by
        have hsum : (digitCount n : Int) - 1 + a + 1 = digitCount n + a := by omega
        rw [hsum, zpow_add₀ (by norm_num)]
        gcongr
      exact_mod_cast hlt
  omega

/-- **A decimal is rounded** as the quotient that it is, unless its first digit
tells all. -/
theorem ofDecimal_eq (negative : Bool) (hn : 0 < n) (a : Int) :
    ∃ num den : Nat, 0 < den ∧ (num : ℚ) / den = n * 10 ^ a ∧
      ofDecimal negative n a =
        if Int.log 10 ((n : ℚ) * 10 ^ a) + 1 < -330 then zero negative
        else if 310 < Int.log 10 ((n : ℚ) * 10 ^ a) + 1 then infinite negative
        else ofRatio negative num den := by
  obtain ⟨hd, hvalue⟩ := scale_spec (b := 10) (by decide) n Nat.one_pos (-a)
  rw [neg_neg, Nat.cast_one, div_one] at hvalue
  refine ⟨_, _, hd, by exact_mod_cast hvalue, ?_⟩
  unfold ofDecimal
  dsimp only
  rw [place_eq hn]
  simp only [hn.ne', false_or]

/-- **Decimals of one value give one double.** -/
theorem ofDecimal_congr (negative : Bool) {a b : Int} (hn : 0 < n) (hm : 0 < m)
    (h : (n : ℚ) * 10 ^ a = m * 10 ^ b) : ofDecimal negative n a = ofDecimal negative m b := by
  obtain ⟨num, den, hden, hvalue, heq⟩ := ofDecimal_eq negative hn a
  obtain ⟨num', den', hden', hvalue', heq'⟩ := ofDecimal_eq negative hm b
  rw [heq, heq', h, ofRatio_congr negative hden hden' (by rw [hvalue, hvalue', h])]

/-- Zeros at the end of the digits only move the point. -/
theorem ofDecimal_mul_pow (negative : Bool) (n k : Nat) (a : Int) :
    ofDecimal negative (n * 10 ^ k) (a - k) = ofDecimal negative n a := by
  rcases Nat.eq_zero_or_pos n with rfl | hn
  · simp [ofDecimal]
  · refine ofDecimal_congr negative (by positivity) hn ?_
    rw [Nat.cast_mul, Nat.cast_pow, mul_assoc, Nat.cast_ofNat, ← zpow_natCast,
      ← zpow_add₀ (by norm_num)]
    congr 2
    omega

/-- Doubles are greater than what is taken for zero by its first digit, and less than
what is taken for an infinity. -/
theorem log_of_held (h : Held m e) (hm : 0 < m) :
    -331 ≤ Int.log 10 ((m : ℚ) * 2 ^ e) ∧ Int.log 10 ((m : ℚ) * 2 ^ e) < 310 := by
  have hpos : (0 : ℚ) < m * 2 ^ e := by positivity
  have hleast : (10 : ℚ) ^ (-331 : Int) ≤ 2 ^ leastExponent := by
    have hpow : 2 ^ 1074 ≤ 10 ^ 331 := by decide +kernel
    rw [leastExponent, zpow_neg, zpow_neg, inv_le_inv₀ (by positivity) (by positivity)]
    exact_mod_cast hpow
  have hgreatest : (2 : ℚ) ^ (53 : Int) * 2 ^ greatestExponent ≤ 10 ^ (310 : Int) := by
    have hpow : 2 ^ 53 * 2 ^ 971 ≤ 10 ^ 310 := by decide +kernel
    unfold greatestExponent
    exact_mod_cast hpow
  constructor
  · refine (Int.zpow_le_iff_le_log (by decide) hpos).1 ?_
    have hone : (1 : ℚ) ≤ m := by exact_mod_cast hm
    calc ((10 : Nat) : ℚ) ^ (-331 : Int) ≤ 2 ^ leastExponent := by exact_mod_cast hleast
      _ ≤ 2 ^ e := zpow_le_zpow_right₀ (by norm_num) h.least
      _ ≤ m * 2 ^ e := le_mul_of_one_le_left (by positivity) hone
  · refine (Int.lt_zpow_iff_log_lt (by decide) hpos).1 ?_
    have hshort : (m : ℚ) < 2 ^ (53 : Int) := by exact_mod_cast h.short
    calc (m : ℚ) * 2 ^ e < 2 ^ (53 : Int) * 2 ^ e := by gcongr
      _ ≤ 2 ^ (53 : Int) * 2 ^ greatestExponent := by
        gcongr
        · norm_num
        · exact h.greatest
      _ ≤ ((10 : Nat) : ℚ) ^ (310 : Int) := by exact_mod_cast hgreatest

/-- **A decimal is rounded to the double that stands for its value.** -/
theorem ofDecimal_eq_finite (negative : Bool) {a : Int} (h : Held m e) (hm : 0 < m) (hn : 0 < n)
    (hvalue : (n : ℚ) * 10 ^ a = m * 2 ^ e) : ofDecimal negative n a = finite negative m e := by
  obtain ⟨num, den, hden, hratio, heq⟩ := ofDecimal_eq negative hn a
  obtain ⟨hlow, hhigh⟩ := log_of_held h hm
  rw [heq, hvalue, if_neg (by omega), if_neg (by omega),
    ofRatio_eq_finite negative h hm hden (hratio.trans hvalue)]

/-! ## Signs -/

/-- The double with a sign of its own. -/
def signed (negative : Bool) : Double → Double
  | nan => nan
  | infinite _ => infinite negative
  | finite _ m e => finite negative m e

theorem normal_signed (negative : Bool) (m : Nat) (e : Int) :
    normal negative m e = signed negative (normal false m e) := by
  unfold normal
  dsimp only
  rw [apply_ite (signed negative)]
  rfl

theorem ofRatio_signed (negative : Bool) (num den : Nat) :
    ofRatio negative num den = signed negative (ofRatio false num den) := by
  unfold ofRatio
  split
  · rfl
  · exact normal_signed negative _ _

/-- **The sign of a decimal** is that of its double, and nothing else of it. -/
theorem ofDecimal_signed (negative : Bool) (n : Nat) (a : Int) :
    ofDecimal negative n a = signed negative (ofDecimal false n a) := by
  unfold ofDecimal
  dsimp only
  split
  · rfl
  · split
    · rfl
    · exact ofRatio_signed negative _ _

end Walkthrough.Double
