import Walkthrough.Proofs.Text.Line
import Walkthrough.Proofs.Text.Utf8
import Walkthrough.Text.Bytes
/-!
# Damaged bytes and what follows them

Whatever bytes have been read, a byte below `0x80` stands for itself: it ends an
unfinished sequence and continues none. So it parts the bytes above it from those
below (`decode_append_ascii`), and how one part is read does not hang on the
other. And only such a byte is read as a character below `0x80`, since no longer
sequence stands for one (`getLast?_of_decode`): what ends in a carriage return when
it is read ended in one before.
-/

namespace Walkthrough.Text

namespace Utf8

variable {p : Pending} {s : State} {b : Nat}

/-! ## States that are reached -/

/-- An unfinished sequence as bytes lead to it: no byte below `0x80` continues
it, and the number that it comes to is not below `0x80`. -/
structure Pending.Sound (p : Pending) : Prop where
  least : 0x80 ≤ p.least
  more : 2 ≤ p.bits * 64 + (p.least - 0x80)
  last : p.missing ≤ 1 → 2 ≤ p.bits

/-- The reader is idle or inside such a sequence. -/
def Reached (s : State) : Prop := ∀ p ∈ s, p.Sound

theorem reached_none : Reached none := fun _ hp => nomatch hp

theorem reached_some (h : p.Sound) : Reached (some p) := by
  rintro q hq
  rw [← Option.some.inj hq]
  exact h

theorem sound_plain {bits missing : Nat} (hmore : 1 ≤ bits) (hlast : missing ≤ 1 → 2 ≤ bits) :
    (Pending.plain bits missing).Sound where
  least := Nat.le_refl _
  more := by
    show 2 ≤ bits * 64 + (0x80 - 0x80)
    omega
  last := hlast

/-- A first byte leaves bits that count, or narrows the range of the second. -/
theorem reached_lead (b : Nat) : Reached (lead b).2 := by
  unfold lead
  split
  · exact reached_none
  split
  · exact reached_some (sound_plain (by omega) (by omega))
  split
  · exact reached_some ⟨by decide, by decide, by decide⟩
  split
  · exact reached_some ⟨by decide, by decide, by decide⟩
  split
  · exact reached_some (sound_plain (by omega) (by omega))
  split
  · exact reached_some ⟨by decide, by decide, by decide⟩
  split
  · exact reached_some (sound_plain (by omega) (by omega))
  split
  · exact reached_some ⟨by decide, by decide, by decide⟩
  · exact reached_none

/-- **What bytes lead to is reached.** -/
theorem Reached.step (hs : Reached s) (b : Nat) : Reached (step s b).2 := by
  cases s with
  | none => exact reached_lead b
  | some p =>
    have hp := hs p rfl
    have hmore := hp.more
    unfold Utf8.step
    dsimp only
    split
    · next hb =>
      split
      · exact reached_none
      · exact reached_some (sound_plain (by omega) (by omega))
    · exact reached_lead b

/-- What has been read of some bytes is read already, and the rest is read from
the state they lead to. -/
theorem exists_readFrom_append (hs : Reached s) (front : List UInt8) :
    ∃ out next, Reached next ∧ ∀ rest, readFrom s (front ++ rest) = out ++ readFrom next rest := by
  induction front generalizing s with
  | nil => exact ⟨[], s, hs, fun _ => rfl⟩
  | cons b front ih =>
    obtain ⟨out, next, hnext, hread⟩ := ih (hs.step b.toNat)
    refine ⟨(step s b.toNat).1 ++ out, next, hnext, fun rest => ?_⟩
    rw [List.append_assoc, ← hread]
    rfl

/-! ## Bytes that stand for themselves -/

/-- A byte below `0x80` ends what is unfinished and stands for itself, -/
theorem step_ascii (hs : Reached s) (hb : b < 0x80) :
    step s b = (flush s ++ [Char.ofNat b], none) := by
  cases s with
  | none => exact lead_one hb
  | some p =>
    have hleast := (hs p rfl).least
    unfold step
    dsimp only
    rw [if_neg (by omega), lead_one hb]
    rfl

/-- **so it parts the bytes above it from those below.** -/
theorem decode_append_ascii {b : UInt8} (hb : b.toNat < 0x80) (above below : List UInt8) :
    decode (above ++ b :: below) = decode above ++ Char.ofNat b.toNat :: decode below := by
  obtain ⟨out, next, hnext, hread⟩ := exists_readFrom_append reached_none above
  have habove : decode above = out ++ flush next := by
    have hend := hread []
    rwa [List.append_nil] at hend
  have hfeed : readFrom next (b :: below) = flush next ++ Char.ofNat b.toNat :: decode below := by
    rw [readFrom, step_ascii hnext hb, List.append_assoc]
    rfl
  have hall : decode (above ++ b :: below) = out ++ readFrom next (b :: below) := hread _
  rw [hall, hfeed, habove, List.append_assoc]

/-! ## Bytes that do not -/

/-- A first byte that does not stand for itself is no character yet, or damaged. -/
theorem lead_flush (hb : 0x80 ≤ b) : (lead b).1 ++ flush (lead b).2 = [replacement] := by
  unfold lead
  rw [if_neg (by omega)]
  repeat' split
  all_goals rfl

/-- There is one number for a carriage return. -/
theorem eq_of_ofNat_eq_return {n : Nat} (h : Char.ofNat n = '\r') : n = 13 := by
  unfold Char.ofNat at h
  by_cases hn : n.isValidChar
  · rw [dif_pos hn] at h
    exact congrArg Char.toNat h
  · rw [dif_neg hn] at h
    exact absurd (congrArg Char.toNat h) (by decide)

theorem ofNat_ne_return {n : Nat} (h : 0x80 ≤ n) : Char.ofNat n ≠ '\r' := by
  intro heq
  have hn := eq_of_ofNat_eq_return heq
  omega

/-- Where such a byte comes last, what is read ends in no carriage return. -/
theorem exists_last_step (hs : Reached s) (hb : 0x80 ≤ b) :
    ∃ front c, (step s b).1 ++ flush (step s b).2 = front ++ [c] ∧ c ≠ '\r' := by
  have hreplacement : replacement ≠ '\r' := ofNat_ne_return (by decide)
  cases s with
  | none => exact ⟨[], replacement, lead_flush hb, hreplacement⟩
  | some p =>
    have hlast := (hs p rfl).last
    unfold step
    dsimp only
    split
    · split
      · next hmissing =>
        have hbits := hlast hmissing
        exact ⟨[], _, rfl, ofNat_ne_return (by omega)⟩
      · exact ⟨[], replacement, rfl, hreplacement⟩
    · exact ⟨[replacement], replacement, congrArg (replacement :: ·) (lead_flush hb), hreplacement⟩

/-- **What is read ends in a carriage return only where the bytes do.** -/
theorem getLast?_of_decode {bytes : List UInt8} (h : (decode bytes).getLast? = some '\r') :
    bytes.getLast? = some 0x0D := by
  rcases List.eq_nil_or_concat bytes with rfl | ⟨front, b, rfl⟩
  · cases h
  · rw [List.concat_eq_append] at h ⊢
    obtain ⟨out, next, hnext, hread⟩ := exists_readFrom_append reached_none front
    have hdecode : decode (front ++ [b]) =
        out ++ ((step next b.toNat).1 ++ flush (step next b.toNat).2) := hread [b]
    rw [hdecode] at h
    by_cases hb : b.toNat < 0x80
    · rw [step_ascii hnext hb, flush, List.append_nil, ← List.append_assoc, List.getLast?_concat] at h
      have hcode : b.toNat = (0x0D : UInt8).toNat := eq_of_ofNat_eq_return (Option.some.inj h)
      rw [List.getLast?_concat, UInt8.toNat_inj.1 hcode]
    · obtain ⟨last, c, hlast, hne⟩ := exists_last_step hnext (Nat.le_of_not_lt hb)
      rw [hlast, ← List.append_assoc, List.getLast?_concat] at h
      exact absurd (Option.some.inj h) hne

end Utf8

/-! ## Line ends -/

/-- **A line feed that completes no line end** parts a text. -/
theorem unifyLineEnds_append_feed {above : List Char} (h : above.getLast? ≠ some '\r')
    (below : List Char) :
    unifyLineEnds (above ++ '\n' :: below) = unifyLineEnds above ++ '\n' :: unifyLineEnds below := by
  induction above using unifyLineEnds.induct with
  | case1 => exact unifyLineEnds_cons (by decide) below
  | case2 above ih =>
    refine congrArg ('\n' :: ·) (ih fun hlast => h ?_)
    rw [List.getLast?_cons, List.getLast?_cons, hlast]
    rfl
  | case3 c above hc ih =>
    have hbelow : ∀ rest, c = '\r' → above ++ '\n' :: below = '\n' :: rest → False := by
      intro rest hreturn hfeed
      cases above with
      | nil => exact h (congrArg some hreturn)
      | cons d above => exact hc above hreturn (by rw [(List.cons.inj hfeed).1])
    have hrest := ih fun hlast => h (by rw [List.getLast?_cons, hlast]; rfl)
    rw [List.cons_append, unifyLineEnds.eq_3 c _ hbelow, unifyLineEnds.eq_3 c above hc, hrest]
    rfl

/-- **A line feed parts what is read** above it from what is read below, damaged or
not. -/
theorem ofBytes_append_feed {above : List UInt8} (h : above.getLast? ≠ some 0x0D)
    (below : List UInt8) :
    ofBytes (above ++ 0x0A :: below) = ofBytes above ++ "\n" ++ ofBytes below := by
  have hfeed : Utf8.decode (above ++ 0x0A :: below) =
      Utf8.decode above ++ '\n' :: Utf8.decode below := Utf8.decode_append_ascii (by decide) _ _
  have hlast : (Utf8.decode above).getLast? ≠ some '\r' := fun hlast =>
    h (Utf8.getLast?_of_decode hlast)
  have hline : "\n" = String.ofList ['\n'] := rfl
  unfold ofBytes
  rw [hfeed, unifyLineEnds_append_feed hlast, hline, ← String.ofList_append, ← String.ofList_append,
    List.append_assoc]
  rfl

end Walkthrough.Text
