/-!
# Letters and digits

Where letters and digits stand among the characters. That is all that URLs and
slugs need of them: they are no blanks, and they take one byte.
-/

namespace Walkthrough.Text

variable {c : Char}

/-- A letter stands between the two ends of the alphabets. -/
theorem toNat_of_isAlpha (h : c.isAlpha = true) : 65 ≤ c.toNat ∧ c.toNat ≤ 122 := by
  have hc : c.toNat = c.val.toNat := rfl
  have hcase : c.isUpper = true ∨ c.isLower = true := Bool.or_eq_true_iff.1 h
  rcases hcase with hupper | hlower
  · have h : 'A'.val ≤ c.val ∧ c.val ≤ 'Z'.val := of_decide_eq_true hupper
    have hlo : 65 ≤ c.val.toNat := h.1
    have hhi : c.val.toNat ≤ 90 := h.2
    omega
  · have h : decide ('a'.val ≤ c.val) = true ∧ decide (c.val ≤ 'z'.val) = true :=
      Bool.and_eq_true_iff.1 hlower
    have hlo : 97 ≤ c.val.toNat := of_decide_eq_true h.1
    have hhi : c.val.toNat ≤ 122 := of_decide_eq_true h.2
    omega

/-- Digits come before the letters. -/
theorem toNat_of_isAlphanum (h : c.isAlphanum = true) : c.toNat ≤ 122 := by
  have hcase : c.isAlpha = true ∨ c.isDigit = true := Bool.or_eq_true_iff.1 h
  rcases hcase with halpha | hdigit
  · exact (toNat_of_isAlpha halpha).2
  · have h9 : c.toNat ≤ 57 := (Char.isDigit_iff_toNat.1 hdigit).2
    omega

end Walkthrough.Text
