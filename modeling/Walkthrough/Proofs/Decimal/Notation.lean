import Mathlib.Data.List.TakeDrop
import Walkthrough.Decimal.Notation
import Walkthrough.Proofs.Decimal.Shortest
import Walkthrough.Proofs.Text.Blank
/-!
# Decimal texts

Digits written for a number are read back as it, and the text of a positive
double is a decimal: a whole part without needless zeros in front, a fraction,
an exponent, and at least one of the latter two (`exists_gridText`). So such a
text is never that of an integer. However the point is set, the text states the
decimal it was written for, up to zeros at the end (`States`), and so its parts
make the double again (`exists_toText`).
-/

namespace Walkthrough.Double

open Text

/-- A list of decimal digits. -/
def AllDigits (ds : List Char) : Prop := ∀ d ∈ ds, d.isDigit = true

/-- A text that goes on with no digit. -/
def NoDigit (cs : List Char) : Prop := ∀ c, cs.head? = some c → c.isDigit = false

namespace AllDigits

variable {ds es : List Char}

theorem append (hd : AllDigits ds) (he : AllDigits es) : AllDigits (ds ++ es) := by
  intro d h
  rcases List.mem_append.1 h with h | h
  · exact hd d h
  · exact he d h

theorem of_sublist (hd : AllDigits ds) (h : es.Sublist ds) : AllDigits es :=
  fun d hmem => hd d (h.subset hmem)

theorem zeros (n : Nat) : AllDigits (List.replicate n '0') := by
  intro d h
  rw [List.eq_of_mem_replicate h]
  rfl

/-- **Digits are read up to their end.** -/
theorem spanDigits (hd : AllDigits ds) {x : List Char} (hx : NoDigit x) :
    spanDigits (ds ++ x) = (ds, x) := by
  unfold Double.spanDigits
  rw [List.span_eq_takeWhile_dropWhile, List.takeWhile_append_of_pos hd,
    List.dropWhile_append_of_pos hd]
  cases x with
  | nil => simp
  | cons c x =>
    have hc : c.isDigit = false := hx c rfl
    simp [hc]

end AllDigits

/-! ## Digits of numbers -/

theorem allDigits_toDigits (n : Nat) : AllDigits (Nat.toDigits 10 n) :=
  fun _ h => Nat.isDigit_of_mem_toDigits (by decide) (by decide) h

theorem digitsValue_toDigits (n : Nat) : digitsValue (Nat.toDigits 10 n) = n := by
  have hvalue (ds : List Char) : digitsValue ds = Nat.ofDigitChars 10 ds 0 := by
    unfold digitsValue
    rw [Nat.ofDigitChars_eq_foldl]
    congr 1
    funext sofar d
    rw [Nat.mul_comm]
    rfl
  rw [hvalue, Nat.ofDigitChars_ten_toDigits]

theorem digitsValue_append (ds es : List Char) :
    digitsValue (ds ++ es) = digitsValue ds * 10 ^ es.length + digitsValue es := by
  have hfrom (n : Nat) : es.foldl (fun n d => n * 10 + (d.toNat - 48)) n =
      n * 10 ^ es.length + digitsValue es := by
    unfold digitsValue
    -- on the digits, with the number that stands in front of them
    induction es generalizing n with
    | nil => simp
    | cons d es ih =>
      rw [List.foldl_cons, List.foldl_cons, ih, ih (0 * 10 + (d.toNat - 48)), List.length_cons,
        Nat.pow_succ]
      ring
  unfold digitsValue at hfrom ⊢
  rw [List.foldl_append, hfrom]

theorem digitsValue_zeros (n : Nat) : digitsValue (List.replicate n '0') = 0 := by
  induction n with
  | zero => rfl
  | succ n ih =>
    rw [List.replicate_succ', digitsValue_append, ih]
    rfl

theorem digitsValue_append_zeros (ds : List Char) (n : Nat) :
    digitsValue (ds ++ List.replicate n '0') = digitsValue ds * 10 ^ n := by
  rw [digitsValue_append, digitsValue_zeros, List.length_replicate, Nat.add_zero]

theorem digitsValue_zeros_append (n : Nat) (ds : List Char) :
    digitsValue (List.replicate n '0' ++ ds) = digitsValue ds := by
  rw [digitsValue_append, digitsValue_zeros, Nat.zero_mul, Nat.zero_add]

theorem head?_append_of_ne_nil {ds es : List Char} (h : ds ≠ []) :
    (ds ++ es).head? = ds.head? := by
  cases ds with
  | nil => exact absurd rfl h
  | cons d ds => rfl

/-- A number other than zero has no zero in front. -/
theorem head?_toDigits {n : Nat} (h : n ≠ 0) : (Nat.toDigits 10 n).head? ≠ some '0' := by
  induction n using Nat.strongRecOn with
  | _ n ih =>
    have hdigit : ∀ n < 10, n ≠ 0 → [n.digitChar].head? ≠ some '0' := by decide
    by_cases hn : n < 10
    · rw [Nat.toDigits_of_lt_base hn]
      exact hdigit n hn h
    · rw [Nat.toDigits_of_base_le (by decide) (by omega),
        head?_append_of_ne_nil Nat.toDigits_ne_nil]
      exact ih (n / 10) (by omega) (by omega)

/-! ## Shape -/

/-- A point and the digits behind it, or nothing. -/
def pointText (fraction : List Char) : List Char := if fraction = [] then [] else '.' :: fraction

/-- The mark of an exponent and the exponent, or nothing. -/
def markText : Option Int → List Char
  | none => []
  | some e => 'e' :: exponentText e

/-- The text of a decimal: its whole part, its fraction, its exponent. -/
def decimalText (whole fraction : List Char) (exponent : Option Int) : List Char :=
  whole ++ (pointText fraction ++ markText exponent)

/-- **A decimal that is written as one:** digits before and behind the point,
without needless zeros in front, and a fraction or an exponent. -/
structure IsDecimal (whole fraction : List Char) (exponent : Option Int) : Prop where
  wholeDigits : AllDigits whole
  fractionDigits : AllDigits fraction
  ne_nil : whole ≠ []
  front : whole.head? = some '0' → whole.length = 1
  marked : fraction ≠ [] ∨ exponent.isSome = true

/-- **Which decimal a text states:** that of some digits with the point at a place,
up to zeros at the end. -/
def States (whole fraction : List Char) (exponent : Option Int) (digits : List Char)
    (point : Int) : Prop :=
  ∃ k : Nat, digitsValue (whole ++ fraction) = digitsValue digits * 10 ^ k ∧
    exponent.getD 0 - fraction.length = point - digits.length - k

/-- Its parts are rounded as the decimal. -/
theorem States.ofParts {whole fraction digits : List Char} {exponent : Option Int} {point : Int}
    (h : States whole fraction exponent digits point) (negative : Bool) :
    ofParts negative whole fraction (exponent.getD 0) =
      ofDecimal negative (digitsValue digits) (point - digits.length) := by
  obtain ⟨k, hvalue, hexponent⟩ := h
  unfold Double.ofParts
  rw [hvalue, hexponent, ofDecimal_mul_pow]

/-- The digits that are kept of a decimal, with the place of its point, are rounded
as the decimal. -/
theorem ofDecimal_places (negative : Bool) (g : Grid) :
    ofDecimal negative (digitsValue (places g).1) ((places g).2 - (places g).1.length) =
      ofDecimal negative g.digits g.exponent := by
  obtain ⟨tail, hall, htail⟩ := exists_dropTail_append (· = '0') (Nat.toDigits 10 g.digits)
  have hzeros : tail = List.replicate tail.length '0' :=
    List.eq_replicate_of_mem fun c hc => of_decide_eq_true (htail c hc)
  have hvalue : g.digits = digitsValue (places g).1 * 10 ^ tail.length := by
    rw [← digitsValue_append_zeros, ← hzeros, ← digitsValue_toDigits g.digits]
    exact congrArg digitsValue hall
  have hpoint : (places g).2 - (places g).1.length = g.exponent + tail.length := by
    have hlength := congrArg List.length hall
    rw [List.length_append] at hlength
    have hplace : (places g).2 = (Nat.toDigits 10 g.digits).length + g.exponent := rfl
    rw [hplace, hlength]
    unfold places
    dsimp only
    omega
  have hmoved := ofDecimal_mul_pow negative (digitsValue (places g).1) tail.length
    (g.exponent + tail.length)
  rw [← hvalue, Int.add_sub_cancel] at hmoved
  rw [hpoint, hmoved]

/-- The digits of a decimal that are kept, and the place of its point. -/
theorem places_of_ne_zero {g : Grid} (h : g.digits ≠ 0) :
    AllDigits (places g).1 ∧ (places g).1 ≠ [] ∧ (places g).1.head? ≠ some '0' := by
  unfold places
  dsimp only
  have hprefix := dropTail_isPrefix (· = '0') (Nat.toDigits 10 g.digits)
  have hhead := head?_toDigits h
  cases hdigits : Nat.toDigits 10 g.digits with
  | nil => exact absurd hdigits Nat.toDigits_ne_nil
  | cons d rest =>
    rw [hdigits] at hprefix hhead
    have hd : d ≠ '0' := by simpa using hhead
    have hkept : ∃ kept, dropTail (· = '0') (d :: rest) = d :: kept := by
      unfold dropTail
      split
      · exact ⟨[], by simp [hd]⟩
      · exact ⟨_, rfl⟩
    obtain ⟨kept, hkept⟩ := hkept
    refine ⟨?_, ?_, ?_⟩
    · rw [← hdigits] at hprefix ⊢
      exact (allDigits_toDigits _).of_sublist hprefix.sublist
    · rw [hkept]
      exact List.cons_ne_nil _ _
    · rw [hkept]
      simpa using hd

theorem exists_positional {digits : List Char} (hd : AllDigits digits) (hne : digits ≠ [])
    (hfront : digits.head? ≠ some '0') (point : Int) : ∃ whole fraction,
      positional digits point = decimalText whole fraction none ∧
        IsDecimal whole fraction none ∧ States whole fraction none digits point := by
  unfold positional
  split
  · refine ⟨['0'], List.replicate (-point).toNat '0' ++ digits, ?_, ?_, 0, ?_, ?_⟩
    · simp [decimalText, pointText, markText, hne]
    · exact ⟨.zeros 1, (AllDigits.zeros _).append hd, by decide, fun _ => rfl, .inl (by simp [hne])⟩
    · rw [Nat.pow_zero, Nat.mul_one]
      exact (digitsValue_zeros_append 1 _).trans (digitsValue_zeros_append _ digits)
    · rw [List.length_append, List.length_replicate, Option.getD_none]
      omega
  · next hpoint =>
    dsimp only
    split
    · refine ⟨digits ++ List.replicate (point.toNat - digits.length) '0', ['0'], ?_, ?_,
        point.toNat - digits.length + 1, ?_, ?_⟩
      · simp [decimalText, pointText, markText]
      · refine ⟨hd.append (.zeros _), .zeros 1, by simp [hne], fun h => ?_, .inl (by decide)⟩
        rw [head?_append_of_ne_nil hne] at h
        exact absurd h hfront
      · rw [← digitsValue_append_zeros, List.replicate_succ', List.append_assoc]
      · rw [List.length_singleton, Option.getD_none]
        omega
    · next hlen =>
      have hrest : digits.drop point.toNat ≠ [] := by
        rw [Ne, List.drop_eq_nil_iff]
        exact hlen
      have hpos : 0 < point.toNat := by omega
      refine ⟨digits.take point.toNat, digits.drop point.toNat, ?_, ?_, 0, ?_, ?_⟩
      · simp [decimalText, pointText, markText, hrest]
      · refine ⟨hd.of_sublist (List.take_sublist _ _), hd.of_sublist (List.drop_sublist _ _), ?_,
          fun h => ?_, .inl hrest⟩
        · simp [hne]
          omega
        · rw [List.head?_take, if_neg (by omega)] at h
          exact absurd h hfront
      · rw [List.take_append_drop, Nat.pow_zero, Nat.mul_one]
      · rw [List.length_drop, Option.getD_none]
        omega

theorem exists_scientific {digits : List Char} (hd : AllDigits digits) (hne : digits ≠ [])
    (point : Int) : ∃ whole fraction,
      scientific digits point = decimalText whole fraction (some (point - 1)) ∧
        IsDecimal whole fraction (some (point - 1)) ∧
        States whole fraction (some (point - 1)) digits point := by
  cases digits with
  | nil => exact absurd rfl hne
  | cons d rest =>
    refine ⟨[d], rest, ?_, ?_, 0, (Nat.mul_one _).symm, ?_⟩
    · cases rest with
      | nil => rfl
      | cons d' rest => simp [scientific, decimalText, pointText, markText]
    · exact ⟨hd.of_sublist (by simp), hd.of_sublist (by simp), by simp, fun _ => rfl, .inr rfl⟩
    · rw [Option.getD_some, List.length_cons]
      omega

/-- **The text of a positive decimal is a decimal,** and its parts are rounded as
it is. -/
theorem exists_gridText {g : Grid} (h : g.digits ≠ 0) : ∃ whole fraction exponent,
    gridText g = decimalText whole fraction exponent ∧ IsDecimal whole fraction exponent ∧
      ∀ negative, ofParts negative whole fraction (exponent.getD 0) =
        ofDecimal negative g.digits g.exponent := by
  obtain ⟨hd, hne, hfront⟩ := places_of_ne_zero h
  unfold gridText
  dsimp only
  split
  · obtain ⟨whole, fraction, htext, hdecimal, hstates⟩ :=
      exists_positional hd hne hfront (places g).2
    exact ⟨whole, fraction, none, htext, hdecimal,
      fun negative => (hstates.ofParts negative).trans (ofDecimal_places negative g)⟩
  · obtain ⟨whole, fraction, htext, hdecimal, hstates⟩ := exists_scientific hd hne (places g).2
    exact ⟨whole, fraction, _, htext, hdecimal,
      fun negative => (hstates.ofParts negative).trans (ofDecimal_places negative g)⟩

/-! ## Doubles -/

/-- The sign in front of a number. -/
def signText (negative : Bool) : List Char := if negative then ['-'] else []

/-- **The text of a finite double is a decimal** with its sign, and the parts of the
decimal make the double again. -/
theorem exists_toText (sp : Spelling) (negative : Bool) (m : Nat) (e : Int) :
    ∃ whole fraction exponent,
      (finite negative m e).toText sp = signText negative ++ decimalText whole fraction exponent ∧
        IsDecimal whole fraction exponent ∧
        (Held m e → ofParts negative whole fraction (exponent.getD 0) = finite negative m e) := by
  unfold toText
  by_cases hm : m = 0
  · refine ⟨['0'], ['0'], none, by simp [hm, signText, decimalText, pointText, markText],
      ⟨.zeros 1, .zeros 1, by decide, fun _ => rfl, .inl (by decide)⟩, fun h => ?_⟩
    have hleast : e = leastExponent := h.full.resolve_left (by rw [hm]; decide)
    rw [hm, hleast]
    rfl
  · have hpos := Nat.pos_of_ne_zero hm
    obtain ⟨whole, fraction, exponent, htext, hdecimal, hparts⟩ :=
      exists_gridText (digits_shortest_pos hpos e).ne'
    exact ⟨whole, fraction, exponent, by simp [hm, signText, htext], hdecimal,
      fun h => (hparts negative).trans (ofDecimal_shortest negative h hpos)⟩

end Walkthrough.Double
