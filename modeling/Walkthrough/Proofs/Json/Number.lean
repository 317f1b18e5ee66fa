import Mathlib.Data.List.Basic
import Walkthrough.Json.Reader
import Walkthrough.Json.Writer
import Walkthrough.Proofs.Decimal.Notation
/-!
# Numbers in JSON

What stands for itself, without quotes or brackets, is read back: the words,
integers with no more digits than the reader takes, and doubles. An integer is
read as itself (`readPlain_int`). A double is read as a double again, never as
an integer (`readPlain_float`), and as the same one wherever it stands; that is
the double itself, if it is as it is to be held (`reread_of_proper`).
-/

namespace Walkthrough

namespace Json

open Double

variable {x : List Char}

/-- What may follow a value: nothing, a gap, a comma, or a closing bracket. -/
def Stops (x : List Char) : Prop :=
  ∀ c, x.head? = some c → isGap c = true ∨ c = ',' ∨ c = ']' ∨ c = '}'

namespace Stops

theorem nil : Stops [] := by
  intro c h
  cases h

theorem of_head {c : Char} (h : isGap c = true ∨ c = ',' ∨ c = ']' ∨ c = '}') : Stops (c :: x) := by
  intro d hd
  cases hd
  exact h

theorem of_gap {gap : List Char} (hgap : gap.all isGap = true) (hx : Stops x) :
    Stops (gap ++ x) := by
  cases gap with
  | nil => exact hx
  | cons c gap =>
    rw [List.all_cons, Bool.and_eq_true] at hgap
    exact .of_head (.inl hgap.1)

/-- What may follow a value goes on with no part of a number. -/
theorem head {c : Char} (h : Stops (c :: x)) :
    c.isDigit = false ∧ c ≠ '.' ∧ c.toLower ≠ 'e' := by
  have hgap : ∀ d, isGap d = true → d = ' ' ∨ d = '\t' ∨ d = '\n' ∨ d = '\r' := by
    intro d hd
    simpa [isGap, or_assoc] using hd
  rcases h c rfl with h | rfl | rfl | rfl
  · rcases hgap c h with rfl | rfl | rfl | rfl
    · decide
    · decide
    · decide
    · decide
  · decide
  · decide
  · decide

theorem noDigit (h : Stops x) : NoDigit x := by
  intro c hc
  cases x with
  | nil => cases hc
  | cons d x =>
    cases hc
    exact h.head.1

theorem spanFraction (h : Stops x) : spanFraction x = ([], x) := by
  unfold Json.spanFraction
  split
  · exact absurd rfl h.head.2.1
  · rfl

theorem spanExponent (h : Stops x) : spanExponent x = (none, x) := by
  unfold Json.spanExponent
  split
  · rfl
  · next c rest =>
    dsimp only
    rw [if_neg fun he => h.head.2.2 he.1]

end Stops

/-! ## Numbers -/

/-- The digits of an exponent. -/
def exponentDigits (n : Nat) : List Char :=
  if (Nat.toDigits 10 n).length < 2 then '0' :: Nat.toDigits 10 n else Nat.toDigits 10 n

theorem allDigits_exponentDigits (n : Nat) : AllDigits (exponentDigits n) := by
  unfold exponentDigits
  split
  · exact (AllDigits.zeros 1).append (allDigits_toDigits n)
  · exact allDigits_toDigits n

theorem exponentDigits_ne_nil (n : Nat) : exponentDigits n ≠ [] := by
  unfold exponentDigits
  split
  · exact List.cons_ne_nil _ _
  · exact Nat.toDigits_ne_nil

theorem digitsValue_exponentDigits (n : Nat) : digitsValue (exponentDigits n) = n := by
  unfold exponentDigits
  split
  · exact digitsValue_toDigits n
  · exact digitsValue_toDigits n

theorem exponentText_eq (e : Int) :
    exponentText e = (if e < 0 then '-' else '+') :: exponentDigits e.natAbs := rfl

/-- **An exponent is read back.** -/
theorem spanExponent_exponentText (e : Int) (hx : Stops x) :
    spanExponent ('e' :: (exponentText e ++ x)) = (some e, x) := by
  have hsign : splitSign (exponentText e ++ x) =
      (decide (e < 0), exponentDigits e.natAbs ++ x) := by
    rw [exponentText_eq]
    by_cases he : e < 0
    · rw [if_pos he, decide_eq_true he]
      rfl
    · rw [if_neg he, decide_eq_false he]
      rfl
  have hdigits := (allDigits_exponentDigits e.natAbs).spanDigits hx.noDigit
  unfold spanExponent
  dsimp only
  rw [hsign]
  dsimp only
  rw [hdigits]
  dsimp only
  rw [if_pos ⟨by decide, exponentDigits_ne_nil _⟩, digitsValue_exponentDigits]
  have hvalue : (if decide (e < 0) = true then -(e.natAbs : Int) else e.natAbs) = e := by
    simp only [decide_eq_true_eq]
    omega
  rw [hvalue]

theorem noDigit_markText (exponent : Option Int) (hx : Stops x) :
    NoDigit (markText exponent ++ x) := by
  cases exponent with
  | none => exact hx.noDigit
  | some e =>
    intro c hc
    cases hc
    decide

theorem spanExponent_markText (exponent : Option Int) (hx : Stops x) :
    spanExponent (markText exponent ++ x) = (exponent, x) := by
  cases exponent with
  | none => exact hx.spanExponent
  | some e => exact spanExponent_exponentText e hx

theorem noDigit_pointText (fraction : List Char) {y : List Char} (hy : NoDigit y) :
    NoDigit (pointText fraction ++ y) := by
  unfold pointText
  split
  · exact hy
  · intro c hc
    cases hc
    decide

/-- **A fraction is read back.** -/
theorem spanFraction_pointText {fraction : List Char} (hfraction : AllDigits fraction)
    (exponent : Option Int) (hx : Stops x) :
    spanFraction (pointText fraction ++ (markText exponent ++ x)) =
      (fraction, markText exponent ++ x) := by
  have hdigits := hfraction.spanDigits (noDigit_markText exponent hx)
  unfold pointText
  split
  · next hnil =>
    rw [hnil]
    cases exponent with
    | none => exact hx.spanFraction
    | some e => rfl
  · next hne =>
    rw [List.cons_append]
    unfold spanFraction
    split
    · next h =>
      cases h
      rw [hdigits]
      cases fraction with
      | nil => exact absurd rfl hne
      | cons d fraction => rfl
    · next h => exact absurd rfl (h _)

/-- What is read behind the sign of a number. -/
def readUnsigned (negative : Bool) (body : List Char) : Option (Value × List Char) :=
  let (whole, rest) := spanDigits body
  let (fraction, rest) := spanFraction rest
  let (exponent, rest) := spanExponent rest
  if whole = [] ∨ (whole.head? = some '0' ∧ 1 < whole.length) then none
  else if fraction = [] ∧ exponent = none then
    if digitLimit < whole.length then none
    else
      let n : Int := digitsValue whole
      some (.int (if negative then -n else n), rest)
  else some (.float (ofParts negative whole fraction (exponent.getD 0)), rest)

theorem readNumber_signText (negative : Bool) {d : Char} (hd : d.isDigit = true)
    (y : List Char) :
    readNumber (signText negative ++ d :: y) = readUnsigned negative (d :: y) := by
  cases negative with
  | true => rfl
  | false =>
    show readNumber (d :: y) = _
    unfold readNumber
    split
    next h =>
      split at h
      · next hminus =>
        cases hminus
        cases hd
      · cases h
        rfl

/-- **A number is read back by its parts:** its whole part and what follows
that. -/
theorem readUnsigned_decimalText {whole fraction : List Char} {exponent : Option Int}
    (hwhole : AllDigits whole) (hne : whole ≠ [])
    (hfront : whole.head? = some '0' → whole.length = 1) (hfraction : AllDigits fraction)
    (hx : Stops x) (negative : Bool) :
    readUnsigned negative (decimalText whole fraction exponent ++ x) =
      if fraction = [] ∧ exponent = none then
        if digitLimit < whole.length then none
        else some (.int (if negative then -(digitsValue whole : Int) else digitsValue whole), x)
      else some (.float (ofParts negative whole fraction (exponent.getD 0)), x) := by
  have hmark := noDigit_markText exponent hx
  have hzero : ¬(whole = [] ∨ whole.head? = some '0' ∧ 1 < whole.length) := by
    rintro (h | ⟨hhead, hlen⟩)
    · exact hne h
    · have := hfront hhead
      omega
  unfold readUnsigned decimalText
  rw [List.append_assoc, List.append_assoc, hwhole.spanDigits (noDigit_pointText fraction hmark)]
  dsimp only
  rw [spanFraction_pointText hfraction exponent hx]
  dsimp only
  rw [spanExponent_markText exponent hx]
  dsimp only
  rw [if_neg hzero]

/-! ## Plain values -/

/-- No word begins with a digit, or with a sign and a digit. -/
theorem findSome?_words (negative : Bool) {d : Char} (hd : d.isDigit = true) (y : List Char) :
    (words.findSome? fun w => (w.1.isPrefixOf? (signText negative ++ d :: y)).map (w.2, ·)) =
      none := by
  have hne (c : Char) (hc : c.isDigit = false) : (c == d) = false := by
    rw [beq_eq_false_iff_ne]
    rintro rfl
    rw [hd] at hc
    cases hc
  cases negative with
  | true => simp [words, signText, List.isPrefixOf?, hne 'I' (by decide)]
  | false =>
    simp [words, signText, List.isPrefixOf?, hne 'n' (by decide), hne 't' (by decide),
      hne 'f' (by decide), hne 'N' (by decide), hne 'I' (by decide), hne '-' (by decide)]

theorem readPlain_signText (negative : Bool) {ds : List Char} (hd : AllDigits ds) (hne : ds ≠ [])
    (y : List Char) :
    readPlain (signText negative ++ (ds ++ y)) = readUnsigned negative (ds ++ y) := by
  cases ds with
  | nil => exact absurd rfl hne
  | cons d ds =>
    have hdigit := hd d List.mem_cons_self
    unfold readPlain
    rw [List.cons_append, findSome?_words negative hdigit]
    exact readNumber_signText negative hdigit _

/-- Every integer below this is short enough for the reader. -/
def integerBound : Nat := Nat.pow 10 digitLimit

theorem length_toDigits_le {n : Nat} (h : n < integerBound) :
    (Nat.toDigits 10 n).length ≤ digitLimit := by
  have hpos : 0 < digitLimit := by decide
  unfold integerBound at h
  -- the limit is only a number here: the power of it is not to be computed
  generalize digitLimit = k at h hpos ⊢
  exact (Nat.length_toDigits_le_iff (by decide) hpos).2 h

/-- A number of one digit is. -/
theorem lt_integerBound {n : Nat} (h : n < 10) : n < integerBound := by
  have hpos : digitLimit ≠ 0 := by decide
  unfold integerBound
  generalize digitLimit = k at hpos ⊢
  exact Nat.lt_of_lt_of_le h (Nat.le_self_pow hpos 10)

/-- **An integer is read back** if it is not too long for the reader. -/
theorem readPlain_int {n : Int} (hn : n.natAbs < integerBound) (hx : Stops x) :
    readPlain (intText n ++ x) = some (.int n, x) := by
  have htext : intText n ++ x =
      signText (decide (n < 0)) ++ (decimalText (Nat.toDigits 10 n.natAbs) [] none ++ x) := by
    simp [intText, signText, decimalText, pointText, markText]
  have hlen : (Nat.toDigits 10 n.natAbs).length ≤ digitLimit := length_toDigits_le hn
  have hfront : (Nat.toDigits 10 n.natAbs).head? = some '0' →
      (Nat.toDigits 10 n.natAbs).length = 1 := by
    intro h
    by_cases hzero : n.natAbs = 0
    · rw [hzero]
      rfl
    · exact absurd h (head?_toDigits hzero)
  have hdigits := allDigits_toDigits n.natAbs
  rw [htext, decimalText, List.append_assoc, readPlain_signText _ hdigits Nat.toDigits_ne_nil,
    ← List.append_assoc]
  refine (readUnsigned_decimalText hdigits Nat.toDigits_ne_nil hfront (fun _ h => by cases h) hx
    _).trans ?_
  rw [if_pos ⟨rfl, rfl⟩, if_neg (Nat.not_lt.2 hlen), digitsValue_toDigits]
  have hvalue : (if decide (n < 0) = true then -(n.natAbs : Int) else n.natAbs) = n := by
    simp only [decide_eq_true_eq]
    omega
  rw [hvalue]

/-- A decimal is read as a double. -/
theorem readPlain_decimalText {whole fraction : List Char} {exponent : Option Int}
    (h : IsDecimal whole fraction exponent) (negative : Bool) (hx : Stops x) :
    readPlain (signText negative ++ decimalText whole fraction exponent ++ x) =
      some (.float (ofParts negative whole fraction (exponent.getD 0)), x) := by
  have hmarked : ¬(fraction = [] ∧ exponent = none) := by
    rintro ⟨rfl, rfl⟩
    rcases h.marked with hmarked | hmarked
    · exact hmarked rfl
    · cases hmarked
  rw [decimalText, List.append_assoc, List.append_assoc,
    readPlain_signText negative h.wholeDigits h.ne_nil, ← List.append_assoc]
  refine (readUnsigned_decimalText h.wholeDigits h.ne_nil h.front h.fractionDigits hx
    negative).trans ?_
  rw [if_neg hmarked]

end Json

/-- The double that the text of a double states. -/
def Double.reread (d : Double) : Double :=
  match Json.readPlain (d.toText Json.numberSpelling) with
  | some (.float d', _) => d'
  | _ => d

namespace Json

open Double

/-- **A word is read as what it stands for,** whatever follows. -/
theorem readPlain_word {w : List Char} {v : Value} (h : (w, v) ∈ words) (x : List Char) :
    readPlain (w ++ x) = some (v, x) := by
  simp only [words, List.mem_cons, List.not_mem_nil, or_false, Prod.mk.injEq] at h
  rcases h with ⟨rfl, rfl⟩ | ⟨rfl, rfl⟩ | ⟨rfl, rfl⟩ | ⟨rfl, rfl⟩ | ⟨rfl, rfl⟩ | ⟨rfl, rfl⟩
  all_goals simp [readPlain, words, List.isPrefixOf?]

/-- **The text of a double is read as one double** wherever it stands: as the
same one, if that is as it is to be held. -/
theorem exists_readPlain_toText (d : Double) : ∃ d' : Double,
    (∀ {x}, Stops x → readPlain (d.toText numberSpelling ++ x) = some (.float d', x)) ∧
      (d.Proper → d' = d) := by
  cases d with
  | nan =>
    exact ⟨.nan, fun _ => readPlain_word (w := "NaN".toList) (by simp [words]) _, fun _ => rfl⟩
  | infinite negative =>
    refine ⟨.infinite negative, fun _ => ?_, fun _ => rfl⟩
    cases negative with
    | true => exact readPlain_word (w := "-Infinity".toList) (by simp [words]) _
    | false => exact readPlain_word (w := "Infinity".toList) (by simp [words]) _
  | finite negative m e =>
    obtain ⟨whole, fraction, exponent, htext, hdecimal, hparts⟩ :=
      exists_toText numberSpelling negative m e
    refine ⟨ofParts negative whole fraction (exponent.getD 0), fun hx => ?_, hparts⟩
    rw [htext]
    exact readPlain_decimalText hdecimal negative hx

theorem reread_eq {d d' : Double}
    (h : ∀ {x}, Stops x → readPlain (d.toText numberSpelling ++ x) = some (.float d', x)) :
    d.reread = d' := by
  have hread := h .nil
  rw [List.append_nil] at hread
  unfold Double.reread
  rw [hread]

/-- **A double is read as a double,** the same one wherever it stands. -/
theorem readPlain_float (d : Double) (hx : Stops x) :
    readPlain (d.toText numberSpelling ++ x) = some (.float d.reread, x) := by
  obtain ⟨d', hread, -⟩ := exists_readPlain_toText d
  rw [reread_eq hread, hread hx]

/-- **A double is read back** if it is as it is to be held. -/
theorem reread_of_proper {d : Double} (h : d.Proper) : d.reread = d := by
  obtain ⟨d', hread, hsame⟩ := exists_readPlain_toText d
  rw [reread_eq hread, hsame h]

end Json

end Walkthrough
