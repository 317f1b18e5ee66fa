import Walkthrough.Text.Utf8
/-!
# Written text is read back

Reading the UTF-8 bytes of a text gives the text again (`decode_encode`). The
reader is idle before and behind the bytes of each character, so one character
is enough (`readFrom_encodeChar`), with anything behind it. There the first byte
fixes how many more are due and each of these adds six bits (`readFrom_more`,
`readFrom_last`). That none of them is refused is where the character has to be
none that was written too long, no surrogate and not beyond the last.
-/

namespace Walkthrough.Text.Utf8

variable {p : Pending} {n : Nat} {rest : List UInt8}

/-! ## Bytes inside a sequence -/

/-- A byte inside a sequence, with the last six bits of a number. -/
def inner (n : Nat) : UInt8 := UInt8.ofNat (n % 64 + 128)

/-- A sequence takes such a byte next. -/
def Pending.Takes (p : Pending) (n : Nat) : Prop :=
  p.least ≤ n % 64 + 128 ∧ n % 64 + 128 ≤ p.greatest

theorem takes_plain (bits missing n : Nat) : (Pending.plain bits missing).Takes n := by
  show 0x80 ≤ n % 64 + 128 ∧ n % 64 + 128 ≤ 0xBF
  omega

theorem toNat_ofNat {b : Nat} (h : b < 256) : (UInt8.ofNat b).toNat = b := by
  rw [UInt8.toNat_ofNat']
  exact Nat.mod_eq_of_lt h

theorem toNat_inner (n : Nat) : (inner n).toNat = n % 64 + 128 := toNat_ofNat (by omega)

/-- What such a byte adds to the bits. -/
theorem step_inner (h : p.Takes n) :
    step (some p) (inner n).toNat =
      if p.missing ≤ 1 then ([Char.ofNat (p.bits * 64 + n % 64)], none)
      else ([], some (.plain (p.bits * 64 + n % 64) (p.missing - 1))) := by
  have h : p.least ≤ n % 64 + 128 ∧ n % 64 + 128 ≤ p.greatest := h
  rw [toNat_inner]
  unfold step
  dsimp only
  rw [if_pos h, Nat.add_sub_cancel]

/-- A byte that is not the last gives out nothing yet. -/
theorem readFrom_more (h : p.Takes n) (hp : 1 < p.missing) :
    readFrom (some p) (inner n :: rest) =
      readFrom (some (.plain (p.bits * 64 + n % 64) (p.missing - 1))) rest := by
  rw [readFrom, step_inner h, if_neg (Nat.not_le_of_lt hp)]
  rfl

theorem readFrom_middle (bits n : Nat) (rest : List UInt8) :
    readFrom (some (.plain bits 2)) (inner n :: rest) =
      readFrom (some (.plain (bits * 64 + n % 64) 1)) rest :=
  readFrom_more (takes_plain bits 2 n) Nat.one_lt_two

/-- The last byte of a sequence gives out its character. -/
theorem readFrom_last (bits n : Nat) (rest : List UInt8) :
    readFrom (some (.plain bits 1)) (inner n :: rest) =
      Char.ofNat (bits * 64 + n % 64) :: readFrom none rest := by
  rw [readFrom, step_inner (takes_plain bits 1 n)]
  rfl

/-! ## First bytes -/

/-- A byte that opens a sequence gives out nothing. -/
theorem readFrom_lead {b : Nat} (hb : b < 256) (h : lead b = ([], some p)) :
    readFrom none (UInt8.ofNat b :: rest) = readFrom (some p) rest := by
  rw [readFrom, toNat_ofNat hb]
  show (lead b).1 ++ readFrom (lead b).2 rest = _
  rw [h]
  rfl

theorem lead_one (h : n < 0x80) : lead n = ([Char.ofNat n], none) := by
  unfold lead
  rw [if_pos h]

theorem lead_two (h : 2 ≤ n) (h' : n < 32) : lead (n + 0xC0) = ([], some (.plain n 1)) := by
  unfold lead
  rw [if_neg (by omega), if_pos (by omega), Nat.add_sub_cancel]

/-- The second of three bytes is narrowed behind two of the first ones. -/
theorem exists_lead_three (h : n < 16) :
    ∃ p : Pending, lead (n + 0xE0) = ([], some p) ∧ p.bits = n ∧ p.missing = 2 ∧
      ∀ m, (n = 0 → 32 ≤ m % 64) → (n = 13 → m % 64 < 32) → p.Takes m := by
  unfold lead Pending.Takes
  rw [if_neg (by omega), if_neg (by omega)]
  by_cases hzero : n = 0
  · subst hzero
    refine ⟨_, rfl, rfl, rfl, fun m hlow _ => ?_⟩
    have := hlow rfl
    dsimp only
    omega
  by_cases hthirteen : n = 13
  · -- above the bound lie the surrogates, which no character is
    subst hthirteen
    refine ⟨_, rfl, rfl, rfl, fun m _ hhigh => ?_⟩
    have := hhigh rfl
    dsimp only
    omega
  rw [if_neg (by omega), if_neg (by omega), if_pos (by omega), Nat.add_sub_cancel]
  exact ⟨_, rfl, rfl, rfl, fun m _ _ => takes_plain n 2 m⟩

/-- So is the second of four. -/
theorem exists_lead_four (h : n < 5) :
    ∃ p : Pending, lead (n + 0xF0) = ([], some p) ∧ p.bits = n ∧ p.missing = 3 ∧
      ∀ m, (n = 0 → 16 ≤ m % 64) → (n = 4 → m % 64 < 16) → p.Takes m := by
  unfold lead Pending.Takes
  rw [if_neg (by omega), if_neg (by omega), if_neg (by omega), if_neg (by omega),
    if_neg (by omega)]
  by_cases hzero : n = 0
  · subst hzero
    refine ⟨_, rfl, rfl, rfl, fun m hlow _ => ?_⟩
    have := hlow rfl
    dsimp only
    omega
  by_cases hfour : n = 4
  · subst hfour
    refine ⟨_, rfl, rfl, rfl, fun m _ hhigh => ?_⟩
    have := hhigh rfl
    dsimp only
    omega
  rw [if_neg (by omega), if_pos (by omega), Nat.add_sub_cancel]
  exact ⟨_, rfl, rfl, rfl, fun m _ _ => takes_plain n 3 m⟩

/-! ## Characters and texts -/

/-- **The bytes of a character are read as it,** whatever follows them. -/
theorem readFrom_encodeChar (c : Char) (rest : List UInt8) :
    readFrom none (String.utf8EncodeChar c ++ rest) = c :: readFrom none rest := by
  have hvalid : c.val.toNat < 0xD800 ∨ 0xDFFF < c.val.toNat ∧ c.val.toNat < 0x110000 := c.valid
  have hchar : Char.ofNat c.val.toNat = c := Char.ofNat_toNat c
  unfold String.utf8EncodeChar
  generalize c.val.toNat = n at hvalid hchar ⊢
  dsimp only
  -- one case for each number of bytes
  split
  · next hone =>
    rw [List.singleton_append, readFrom, toNat_ofNat (by omega)]
    show (lead n).1 ++ readFrom (lead n).2 rest = _
    rw [lead_one (by omega), hchar]
    rfl
  split
  · next hone htwo =>
    have hlead : lead (n / 64 % 32 + 192) = ([], some (.plain (n / 64 % 32) 1)) :=
      lead_two (by omega) (by omega)
    have hbits : n / 64 % 32 * 64 + n % 64 = n := by omega
    show readFrom none (UInt8.ofNat _ :: inner n :: rest) = _
    rw [readFrom_lead (by omega) hlead, readFrom_last, hbits, hchar]
  split
  · next hone htwo hthree =>
    obtain ⟨p, hlead, hfirst, hmissing, htakes⟩ :=
      exists_lead_three (n := n / 4096 % 16) (by omega)
    have htakes : p.Takes (n / 64) := htakes _ (by omega) (by omega)
    have hbits : (n / 4096 % 16 * 64 + n / 64 % 64) * 64 + n % 64 = n := by omega
    show readFrom none (UInt8.ofNat _ :: inner (n / 64) :: inner n :: rest) = _
    rw [readFrom_lead (by omega) hlead, readFrom_more htakes (by omega), hfirst, hmissing,
      readFrom_last, hbits, hchar]
  · next hone htwo hthree =>
    obtain ⟨p, hlead, hfirst, hmissing, htakes⟩ :=
      exists_lead_four (n := n / 262144 % 8) (by omega)
    have htakes : p.Takes (n / 4096) := htakes _ (by omega) (by omega)
    have hbits : ((n / 262144 % 8 * 64 + n / 4096 % 64) * 64 + n / 64 % 64) * 64 + n % 64 = n := by
      omega
    show readFrom none (UInt8.ofNat _ :: inner (n / 4096) :: inner (n / 64) :: inner n :: rest) = _
    rw [readFrom_lead (by omega) hlead, readFrom_more htakes (by omega), hfirst, hmissing,
      readFrom_middle, readFrom_last, hbits, hchar]

/-- **A text is read back from its bytes.** -/
theorem decode_encode (cs : List Char) : decode (encode cs) = cs := by
  unfold decode
  induction cs with
  | nil => rfl
  | cons c rest ih =>
    show readFrom none (String.utf8EncodeChar c ++ encode rest) = _
    rw [readFrom_encodeChar, ih]

end Walkthrough.Text.Utf8
