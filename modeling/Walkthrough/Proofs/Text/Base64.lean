import Walkthrough.Text.Base64
/-!
# Bytes in letters are read back

The letters for some bytes stand for those bytes (`decode_encode`). The reader is
followed letter by letter through a group of four, with the bits that are left
over from one letter to the next; a group is read from any count of letters that
fills groups, so the groups are read one after the other.
-/

namespace Walkthrough.Text.Base64

variable {count left pads a b c d n : Nat} {rest : List Char}

/-- A letter stands for its number, and is neither padding nor beyond ASCII. -/
theorem value?_letter : ∀ n < 64, value? (letter n) = some n ∧ letter n ≠ '=' ∧
    (letter n).toNat < 128 := by decide

theorem decodeFrom_letter (h : n < 64) :
    decodeFrom count left pads (letter n :: rest) =
      match count % 4 with
      | 0 => decodeFrom (count + 1) n 0 rest
      | 1 => (decodeFrom (count + 1) (n % 16) 0 rest).map (UInt8.ofNat (left * 4 + n / 16) :: ·)
      | 2 => (decodeFrom (count + 1) (n % 4) 0 rest).map (UInt8.ofNat (left * 16 + n / 4) :: ·)
      | _ => (decodeFrom (count + 1) 0 0 rest).map (UInt8.ofNat (left * 64 + n) :: ·) := by
  obtain ⟨hvalue, hpad, -⟩ := value?_letter n h
  rewrite [decodeFrom, if_neg hpad, hvalue]
  rfl

/-! ## The letters of a group -/

/-- The first two letters hold a byte, and four bits are left. -/
theorem decodeFrom_pair (h : count % 4 = 0) (ha : a < 64) (hb : b < 64) :
    decodeFrom count left pads (letter a :: letter b :: rest) =
      (decodeFrom (count + 2) (b % 16) 0 rest).map (UInt8.ofNat (a * 4 + b / 16) :: ·) := by
  have hnext : (count + 1) % 4 = 1 := by omega
  have hfirst : decodeFrom count left pads (letter a :: letter b :: rest) =
      decodeFrom (count + 1) a 0 (letter b :: rest) := by
    rw [decodeFrom_letter ha, h]
    rfl
  rw [hfirst, decodeFrom_letter hb, hnext]
  rfl

/-- The third fills them up, and two bits are left. -/
theorem decodeFrom_third (h : count % 4 = 2) (hc : c < 64) :
    decodeFrom count left pads (letter c :: rest) =
      (decodeFrom (count + 1) (c % 4) 0 rest).map (UInt8.ofNat (left * 16 + c / 4) :: ·) := by
  rw [decodeFrom_letter hc, h]
  rfl

/-- The fourth fills up those, and nothing is left. -/
theorem decodeFrom_fourth (h : count % 4 = 3) (hd : d < 64) :
    decodeFrom count left pads (letter d :: rest) =
      (decodeFrom (count + 1) 0 0 rest).map (UInt8.ofNat (left * 64 + d) :: ·) := by
  rw [decodeFrom_letter hd, h]
  rfl

/-! ## The whole text -/

theorem ofNat_eq {x : UInt8} (h : n = x.toNat) : UInt8.ofNat n = x := by
  rw [h, UInt8.ofNat_toNat]

/-- **Letters are read as the bytes they were written for,** behind any groups
that are full. -/
theorem decodeFrom_encodeBytes (bytes : List UInt8) (h : count % 4 = 0) :
    decodeFrom count left pads (encodeBytes bytes) = .ok bytes := by
  fun_induction encodeBytes bytes generalizing count left pads with
  | case1 => rw [decodeFrom, if_pos h]
  | case2 x =>
    have hx := x.toNat_lt
    have hcount : (count + 2) % 4 = 2 := by omega
    rw [decodeFrom_pair h (by omega) (by omega), ofNat_eq (x := x) (by omega)]
    simp [decodeFrom, hcount, Except.map]
  | case3 x y =>
    have hx := x.toNat_lt
    have hy := y.toNat_lt
    have hcount : (count + 3) % 4 = 3 := by omega
    rw [decodeFrom_pair h (by omega) (by omega), decodeFrom_third (by omega) (by omega),
      ofNat_eq (x := x) (by omega), ofNat_eq (x := y) (by omega)]
    simp [decodeFrom, hcount, Except.map]
  | case4 x y z bytes ih =>
    have hx := x.toNat_lt
    have hy := y.toNat_lt
    have hz := z.toNat_lt
    rw [decodeFrom_pair h (by omega) (by omega), decodeFrom_third (by omega) (by omega),
      decodeFrom_fourth (by omega) (by omega), ih (by omega), ofNat_eq (x := x) (by omega),
      ofNat_eq (x := y) (by omega), ofNat_eq (x := z) (by omega)]
    rfl

/-- What is written for bytes are letters and padding. -/
theorem mem_encodeBytes (bytes : List UInt8) :
    ∀ c ∈ encodeBytes bytes, c = '=' ∨ ∃ n < 64, c = letter n := by
  have hletter {n : Nat} (h : n < 64) : letter n = '=' ∨ ∃ m < 64, letter n = letter m :=
    .inr ⟨n, h, rfl⟩
  fun_induction encodeBytes bytes with
  | case1 => exact List.forall_mem_nil _
  | case2 x =>
    have hx := x.toNat_lt
    simp only [List.forall_mem_cons]
    exact ⟨hletter (by omega), hletter (by omega), .inl trivial, .inl trivial,
      List.forall_mem_nil _⟩
  | case3 x y =>
    have hx := x.toNat_lt
    have hy := y.toNat_lt
    simp only [List.forall_mem_cons]
    exact ⟨hletter (by omega), hletter (by omega), hletter (by omega), .inl trivial,
      List.forall_mem_nil _⟩
  | case4 x y z bytes ih =>
    have hx := x.toNat_lt
    have hy := y.toNat_lt
    have hz := z.toNat_lt
    simp only [List.forall_mem_cons]
    exact ⟨hletter (by omega), hletter (by omega), hletter (by omega), hletter (by omega), ih⟩

/-- **The text for some bytes stands for them.** -/
theorem decode_encode (bytes : List UInt8) : decode (encode bytes) = .ok bytes := by
  have hascii : ∀ c ∈ encodeBytes bytes, c.toNat < 128 := by
    intro c hc
    rcases mem_encodeBytes bytes c hc with rfl | ⟨n, hn, rfl⟩
    · decide
    · exact (value?_letter n hn).2.2
  unfold decode encode
  rw [String.toList_ofList, if_pos (List.all_eq_true.2 fun c hc => decide_eq_true (hascii c hc)),
    decodeFrom_encodeBytes bytes (by decide)]

/-- Bytes stand in a text just where there are any. -/
theorem encode_ne_empty {bytes : List UInt8} (h : bytes ≠ []) : encode bytes ≠ "" := by
  intro hempty
  have hdecode := decode_encode bytes
  rw [hempty] at hdecode
  exact h (Except.ok.inj hdecode).symm

end Walkthrough.Text.Base64
