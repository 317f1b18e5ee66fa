import Mathlib.Data.List.Forall2
import Walkthrough.Json.Reader
import Walkthrough.Json.Writer
import Walkthrough.Text.Bytes
/-!
# Texts in JSON

A text that was written is read back as it was, and the reader stops right
behind its closing quote (`Recoverable.readText`): so it is with each way of
writing characters, since the escapes of a character are read as pieces that
join to it alone. So a text in quotes ends where it ends, whatever follows: two
values that begin with texts in quotes and are written alike hold the same
texts.
-/

namespace Walkthrough

/-- **Different texts have different bytes.** -/
theorem Text.toBytes_injective {s t : String} (h : toBytes s = toBytes t) : s = t := by
  have hbytes : s.toList.utf8Encode = t.toList.utf8Encode := congrArg List.toByteArray h
  rw [← String.toByteArray_ofList, ← String.toByteArray_ofList, String.toByteArray_inj,
    String.ofList_toList, String.ofList_toList] at hbytes
  exact hbytes

namespace Json

open Text

variable {c : Char} {s t x y : List Char}

/-- Four hexadecimal digits are read as the number they were written for. -/
theorem hex4?_hexDigits {n : Nat} (h : n < 0x10000) :
    ∃ a b c d, hexDigits 4 n = [a, b, c, d] ∧ hex4? a b c d = some n := by
  refine ⟨hexDigit (n / 16 / 16 / 16 % 16), hexDigit (n / 16 / 16 % 16), hexDigit (n / 16 % 16),
    hexDigit (n % 16), rfl, ?_⟩
  unfold hex4?
  rw [hexValue?_hexDigit (by omega), hexValue?_hexDigit (by omega), hexValue?_hexDigit (by omega),
    hexValue?_hexDigit (by omega)]
  have hvalue : ((n / 16 / 16 / 16 % 16 * 16 + n / 16 / 16 % 16) * 16 + n / 16 % 16) * 16 + n % 16 =
      n := by omega
  exact congrArg some hvalue

/-- An escape of its own is a backslash and one character more. -/
theorem exists_unescape {e : List Char} (h : shortEscape? c = some e) :
    ∃ d, e = ['\\', d] ∧ unescape? d = some c := by
  have hcode {n : Nat} (hn : c.toNat = n) : some (Char.ofNat n) = some c := by
    rw [← hn, Char.ofNat_toNat]
  unfold shortEscape? at h
  split at h
  · next hc => exact ⟨'"', (Option.some.inj h).symm, congrArg some hc.symm⟩
  split at h
  · next hc => exact ⟨'\\', (Option.some.inj h).symm, congrArg some hc.symm⟩
  split at h
  · next hc => exact ⟨'n', (Option.some.inj h).symm, congrArg some hc.symm⟩
  split at h
  · next hc => exact ⟨'r', (Option.some.inj h).symm, congrArg some hc.symm⟩
  split at h
  · next hc => exact ⟨'t', (Option.some.inj h).symm, congrArg some hc.symm⟩
  split at h
  · next hc => exact ⟨'b', (Option.some.inj h).symm, hcode hc⟩
  split at h
  · next hc => exact ⟨'f', (Option.some.inj h).symm, hcode hc⟩
  · cases h

/-! ## What is read for a character -/

/-- An escape is read as the character it stands for, -/
theorem readPieces_escape {d : Char} (hd : unescape? d = some c) (x : List Char) :
    readPieces ('\\' :: d :: x) = (readPieces x).map fun found => (.plain c :: found.1, found.2) := by
  have hu : d ≠ 'u' := by
    rintro rfl
    cases hd
  rw [readPieces.eq_4 _ _ (by simp [hu]), hd]
  cases readPieces x <;> rfl

/-- so is a character that stands for itself, -/
theorem readPieces_itself (hc : 0x20 ≤ c.toNat) (hquote : c ≠ '"') (hback : c ≠ '\\')
    (x : List Char) :
    readPieces (c :: x) = (readPieces x).map fun found => (.plain c :: found.1, found.2) := by
  rw [readPieces.eq_5 _ _ (by simpa using hquote) (by simp [hback]) (by simp [hback]),
    if_neg (by omega)]
  cases readPieces x <;> rfl

/-- and an escape by number is read as the number. -/
theorem readPieces_number {i j k l : Char} {n : Nat} (h : hex4? i j k l = some n) (x : List Char) :
    readPieces ('\\' :: 'u' :: i :: j :: k :: l :: x) =
      (readPieces x).map fun found => (.number n :: found.1, found.2) := by
  rw [readPieces, h]
  cases readPieces x <;> rfl

theorem readPieces_shortEscape {e : List Char} (h : shortEscape? c = some e) (x : List Char) :
    readPieces (e ++ x) = (readPieces x).map fun found => (.plain c :: found.1, found.2) := by
  obtain ⟨d, rfl, hread⟩ := exists_unescape h
  exact readPieces_escape hread x

theorem readPieces_self (h : shortEscape? c = none) (hc : 0x20 ≤ c.toNat) (x : List Char) :
    readPieces (c :: x) = (readPieces x).map fun found => (.plain c :: found.1, found.2) := by
  have hquote : c ≠ '"' := by
    rintro rfl
    cases h
  have hback : c ≠ '\\' := by
    rintro rfl
    cases h
  exact readPieces_itself hc hquote hback x

theorem readPieces_escape4 {n : Nat} (h : n < 0x10000) (x : List Char) :
    readPieces (escape4 n ++ x) =
      (readPieces x).map fun found => (.number n :: found.1, found.2) := by
  obtain ⟨i, j, k, l, hdigits, hvalue⟩ := hex4?_hexDigits h
  unfold escape4
  rw [hdigits]
  exact readPieces_number hvalue x

/-- The numbers by which a character is escaped. -/
def numberPieces (c : Char) : List Piece :=
  if c.toNat < 0x10000 then [.number c.toNat]
  else [.number (0xD800 + (c.toNat - 0x10000) / 1024), .number (0xDC00 + (c.toNat - 0x10000) % 1024)]

theorem readPieces_escapeByNumber (c : Char) (x : List Char) :
    readPieces (escapeByNumber c ++ x) =
      (readPieces x).map fun found => (numberPieces c ++ found.1, found.2) := by
  have hvalid : c.toNat < 0xD800 ∨ 0xDFFF < c.toNat ∧ c.toNat < 0x110000 := c.valid
  unfold escapeByNumber numberPieces
  dsimp only
  split
  · next hone => exact readPieces_escape4 hone x
  · rw [List.append_assoc, readPieces_escape4 (by omega), readPieces_escape4 (by omega)]
    cases readPieces x <;> rfl

/-! ## What pieces join to -/

/-- A number joins with nothing behind it where it is not half of a pair. -/
theorem joinPieces_number {n : Nat} (h : isHighSurrogate n = false) (ps : List Piece) :
    joinPieces (.number n :: ps) = charOfNumber n :: joinPieces ps := by
  cases ps with
  | nil => rfl
  | cons p ps =>
    cases p with
    | plain d => rfl
    | number m => rw [joinPieces, h, Bool.false_and, if_neg (by decide)]

/-- **The number of a character joins to it:** no character is a surrogate. -/
theorem joinPieces_code (c : Char) (ps : List Piece) :
    joinPieces (.number c.toNat :: ps) = c :: joinPieces ps := by
  have hvalid : c.toNat < 0xD800 ∨ 0xDFFF < c.toNat ∧ c.toNat < 0x110000 := c.valid
  have hhigh : isHighSurrogate c.toNat = false := by
    unfold isHighSurrogate
    rw [Bool.and_eq_false_iff, decide_eq_false_iff_not, decide_eq_false_iff_not]
    omega
  have hchar : charOfNumber c.toNat = c := by
    unfold charOfNumber
    rw [if_neg (by omega), Char.ofNat_toNat]
  rw [joinPieces_number hhigh, hchar]

/-- **So does its pair of surrogates,** if it has one. -/
theorem joinPieces_pair (h : 0x10000 ≤ c.toNat) (ps : List Piece) :
    joinPieces (.number (0xD800 + (c.toNat - 0x10000) / 1024) ::
      .number (0xDC00 + (c.toNat - 0x10000) % 1024) :: ps) = c :: joinPieces ps := by
  have hvalid : c.toNat < 0xD800 ∨ 0xDFFF < c.toNat ∧ c.toNat < 0x110000 := c.valid
  have hhigh : isHighSurrogate (0xD800 + (c.toNat - 0x10000) / 1024) = true := by
    unfold isHighSurrogate
    rw [decide_eq_true (by omega), decide_eq_true (by omega), Bool.and_self]
  have hlow : isLowSurrogate (0xDC00 + (c.toNat - 0x10000) % 1024) = true := by
    unfold isLowSurrogate
    rw [decide_eq_true (by omega), decide_eq_true (by omega), Bool.and_self]
  have hvalue : 0x10000 + (0xD800 + (c.toNat - 0x10000) / 1024 - 0xD800) * 1024 +
      (0xDC00 + (c.toNat - 0x10000) % 1024 - 0xDC00) = c.toNat := by omega
  rw [joinPieces, hhigh, hlow, Bool.and_self, if_pos rfl, hvalue, Char.ofNat_toNat]

theorem joinPieces_numberPieces (c : Char) (ps : List Piece) :
    joinPieces (numberPieces c ++ ps) = c :: joinPieces ps := by
  unfold numberPieces
  split
  · exact joinPieces_code c ps
  · exact joinPieces_pair (by omega) ps

/-! ## Ways to write characters -/

/-- **A way to write characters that can be read back:** each is read as some
pieces, and these join to it and with nothing behind them. -/
def Recoverable (write : Char → List Char) : Prop :=
  ∀ c, ∃ ps, (∀ x, readPieces (write c ++ x) =
      (readPieces x).map fun found => (ps ++ found.1, found.2)) ∧
    ∀ qs, joinPieces (ps ++ qs) = c :: joinPieces qs

/-- Some characters are read as one character: as pieces that join to it and with
nothing behind them. -/
def ReadAs (c : Char) (x : List Char) : Prop :=
  ∃ ps, (∀ y, readPieces (x ++ y) = (readPieces y).map fun found => (ps ++ found.1, found.2)) ∧
    ∀ qs, joinPieces (ps ++ qs) = c :: joinPieces qs

/-- **A text is read character by character,** and the reader stops behind its
quote. -/
theorem readText_of_readAs {xs : List (List Char)} (h : List.Forall₂ ReadAs s xs) (y : List Char) :
    readText (xs.flatten ++ '"' :: y) = some (s, y) := by
  have hpieces : ∃ ps, readPieces (xs.flatten ++ '"' :: y) = some (ps, y) ∧ joinPieces ps = s := by
    induction h with
    | nil => exact ⟨[], rfl, rfl⟩
    | cons hc _ ih =>
      obtain ⟨qs, hqs, hjoin⟩ := ih
      obtain ⟨ps, hread, hfront⟩ := hc
      refine ⟨ps ++ qs, ?_, by rw [hfront, hjoin]⟩
      rw [List.flatten_cons, List.append_assoc, hread, hqs]
      rfl
  obtain ⟨ps, hread, hjoin⟩ := hpieces
  unfold Json.readText
  rw [hread, ← hjoin]
  rfl

/-- **A written text is read back.** -/
theorem Recoverable.readText {write : Char → List Char} (h : Recoverable write)
    (s x : List Char) : readText (s.flatMap write ++ '"' :: x) = some (s, x) := by
  have hread : List.Forall₂ ReadAs s (s.map write) :=
    List.forall₂_map_right_iff.2 (List.forall₂_same.2 fun c _ => h c)
  rw [List.flatMap_def]
  exact readText_of_readAs hread x

/-- Whatever is escaped that has no escape of its own, every control is. -/
theorem recoverable_of {p : Char → Prop} [DecidablePred p] (hp : ∀ c, p c → 0x20 ≤ c.toNat) :
    Recoverable fun c => (shortEscape? c).getD <| if p c then [c] else escapeByNumber c := by
  intro c
  dsimp only
  cases hshort : shortEscape? c with
  | some e => exact ⟨[.plain c], readPieces_shortEscape hshort, fun _ => rfl⟩
  | none =>
    rw [Option.getD_none]
    split
    · next h => exact ⟨[.plain c], readPieces_self hshort (hp c h), fun _ => rfl⟩
    · exact ⟨numberPieces c, readPieces_escapeByNumber c, joinPieces_numberPieces c⟩

theorem recoverable_plain : Recoverable plainCharacter := recoverable_of fun _ h => h

theorem recoverable_ascii : Recoverable asciiCharacter := recoverable_of fun _ h => h.1

/-! ## Texts in quotes -/

/-- **Texts in quotes are told apart,** whatever follows them. -/
theorem quoted_append_inj (h : Style.indented.quoted s ++ x = Style.indented.quoted t ++ y) :
    s = t ∧ x = y := by
  have hbody : s.flatMap plainCharacter ++ '"' :: x = t.flatMap plainCharacter ++ '"' :: y := by
    simpa [Style.quoted, Style.indented] using h
  have hread := congrArg readText hbody
  rw [recoverable_plain.readText, recoverable_plain.readText] at hread
  exact Prod.mk.inj (Option.some.inj hread)

/-- **A record tells the texts at its front,** whatever fields follow them. -/
theorem front_texts_inj {depth : Nat} {n m a a' b b' : String} {vs vs' : List (String × Value)}
    (h : Style.indented.value depth (.record ((n, .text a) :: (m, .text b) :: vs)) =
      Style.indented.value depth (.record ((n, .text a') :: (m, .text b') :: vs'))) :
    a = a' ∧ b = b' := by
  simp only [Style.value, Style.fields, List.append_assoc, List.cons_append,
    List.append_cancel_left_eq, List.cons.injEq, true_and] at h
  obtain ⟨ha, h⟩ := quoted_append_inj h
  -- the first text ends in the same place, and the second follows it
  simp only [List.append_cancel_left_eq, List.cons.injEq, true_and] at h
  obtain ⟨hb, -⟩ := quoted_append_inj h
  exact ⟨String.toList_inj.1 ha, String.toList_inj.1 hb⟩

end Json

end Walkthrough
