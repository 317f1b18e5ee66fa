import Walkthrough.Proofs.Json.Value
import Walkthrough.Proofs.Text.Blank
/-!
# Values on one line

A value without doubles is read back from one line as it is, whatever gaps stand
around that line (`parse?_toLine`). The line holds nothing but printable characters
of ASCII, with no blank at either end: so no line feed in a text of the value
breaks it, and no trimming takes anything off it. With a limit to its room a reader
reads it as well, if there is room for the value (`parse_line`).
-/

namespace Walkthrough.Json

open Text

variable {st : Style} {c : Char} {s t : List Char} {v : Value} {room : Room}

theorem legible_line : Style.line.Legible where
  text := recoverable_ascii.readText
  opening _ := rfl
  between _ := rfl
  closing _ := rfl

namespace Value

/-- **A whole value:** there is no double in it, its integers are not too long for
the reader, and no record of it has two fields of one name. -/
inductive Whole : Value → Prop
  | null : Whole .null
  | bool (b : Bool) : Whole (.bool b)
  | int {n : Int} (h : n.natAbs < integerBound) : Whole (.int n)
  | text (s : String) : Whole (.text s)
  | list {vs : List Value} (h : ∀ v ∈ vs, Whole v) : Whole (.list vs)
  | record {fs : List (String × Value)} (hnames : (fs.map (·.1)).Nodup)
    (h : ∀ f ∈ fs, Whole f.2) : Whole (.record fs)

theorem Whole.legible (hv : v.Whole) : v.Legible := by
  induction hv with
  | null => exact .null
  | bool b => exact .bool b
  | int h => exact .int h
  | text s => exact .text s
  | list _ ih => exact .list ih
  | record hnames _ ih => exact .record hnames ih

/-- Without doubles there is none that would be out of place. -/
theorem Whole.settled (hv : v.Whole) : v.Settled := by
  induction hv with
  | null => exact .null
  | bool b => exact .bool b
  | int _ => exact .int _
  | text s => exact .text s
  | list _ ih => exact .list ih
  | record _ _ ih => exact .record ih

end Value

/-! ## What a line holds -/

/-- A text of printable characters of ASCII. -/
def InAscii (cs : List Char) : Prop := ∀ c ∈ cs, 0x20 ≤ c.toNat ∧ c.toNat ≤ 0x7E

instance : Decidable (InAscii s) := List.decidableBAll _ s

namespace InAscii

theorem append (hs : InAscii s) (ht : InAscii t) : InAscii (s ++ t) :=
  List.forall_mem_append.2 ⟨hs, ht⟩

theorem cons (hc : 0x20 ≤ c.toNat ∧ c.toNat ≤ 0x7E) (hs : InAscii s) : InAscii (c :: s) :=
  List.forall_mem_cons.2 ⟨hc, hs⟩

theorem of_allDigits (hs : Double.AllDigits s) : InAscii s := by
  intro c hc
  have hdigit : 48 ≤ c.toNat ∧ c.toNat ≤ 57 := Char.isDigit_iff_toNat.1 (hs c hc)
  omega

end InAscii

theorem inAscii_hexDigits (width n : Nat) : InAscii (hexDigits width n) := by
  have hdigit : ∀ m < 16, InAscii [hexDigit m] := by decide
  induction width generalizing n with
  | zero => exact List.forall_mem_nil _
  | succ width ih => exact (ih _).append (hdigit _ (Nat.mod_lt _ (by decide)))

theorem inAscii_escape4 (n : Nat) : InAscii (escape4 n) :=
  .cons (by decide) (.cons (by decide) (inAscii_hexDigits 4 n))

theorem inAscii_shortEscape {e : List Char} (h : shortEscape? c = some e) : InAscii e := by
  unfold shortEscape? at h
  repeat' split at h
  all_goals cases h
  all_goals decide

theorem inAscii_asciiCharacter (c : Char) : InAscii (asciiCharacter c) := by
  unfold asciiCharacter
  cases hshort : shortEscape? c with
  | some e => exact inAscii_shortEscape hshort
  | none =>
    rw [Option.getD_none]
    split
    · next h => exact .cons h (List.forall_mem_nil _)
    · unfold escapeByNumber
      dsimp only
      split
      · exact inAscii_escape4 _
      · exact (inAscii_escape4 _).append (inAscii_escape4 _)

theorem inAscii_quoted (s : List Char) : InAscii (Style.line.quoted s) := by
  have hbody : InAscii (s.flatMap asciiCharacter) := by
    intro c hc
    obtain ⟨d, -, hc⟩ := List.mem_flatMap.1 hc
    exact inAscii_asciiCharacter d c hc
  exact .cons (by decide) (hbody.append (by decide))

theorem inAscii_intText (n : Int) : InAscii (intText n) := by
  refine InAscii.append ?_ (.of_allDigits (Double.allDigits_toDigits _))
  split
  · decide
  · decide

theorem inAscii_items {vs : List Value} (depth : Nat)
    (h : ∀ v ∈ vs, InAscii (Style.line.value (depth + 1) v)) :
    InAscii (Style.line.items depth vs) := by
  induction vs with
  | nil => exact List.forall_mem_nil _
  | cons v vs ih =>
    have hrest := ih fun u hu => h u (List.mem_cons_of_mem _ hu)
    have hv : InAscii ([' '] ++ Style.line.value (depth + 1) v) :=
      .cons (by decide) (h v List.mem_cons_self)
    exact .cons (by decide) (hv.append hrest)

theorem inAscii_field (name : String) (depth : Nat) (h : InAscii (Style.line.value depth v)) :
    InAscii (Style.line.quoted name.toList ++ [':', ' '] ++ Style.line.value depth v) :=
  ((inAscii_quoted _).append (by decide)).append h

theorem inAscii_fields {fs : List (String × Value)} (depth : Nat)
    (h : ∀ f ∈ fs, InAscii (Style.line.value (depth + 1) f.2)) :
    InAscii (Style.line.fields depth fs) := by
  induction fs with
  | nil => exact List.forall_mem_nil _
  | cons f fs ih =>
    have hrest := ih fun g hg => h g (List.mem_cons_of_mem _ hg)
    have hf : InAscii ([' '] ++ Style.line.quoted f.1.toList ++ [':', ' '] ++
        Style.line.value (depth + 1) f.2) :=
      .cons (by decide) (inAscii_field f.1 (depth + 1) (h f List.mem_cons_self))
    exact .cons (by decide) (hf.append hrest)

/-- **A line is in ASCII,** whatever characters the value holds. -/
theorem Value.Whole.inAscii (hv : v.Whole) (depth : Nat) : InAscii (Style.line.value depth v) := by
  -- a member stands one level deeper, so the depth is not fixed in the induction
  have hnil : InAscii [] := List.forall_mem_nil _
  induction hv generalizing depth with
  | null =>
    show InAscii "null".toList
    decide
  | bool b =>
    cases b with
    | true =>
      show InAscii "true".toList
      decide
    | false =>
      show InAscii "false".toList
      decide
  | int _ => exact inAscii_intText _
  | text s => exact inAscii_quoted _
  | @list vs _ ih =>
    cases vs with
    | nil => exact .cons (by decide) (.cons (by decide) hnil)
    | cons v vs =>
      have hv := ih v List.mem_cons_self (depth + 1)
      have hrest := inAscii_items depth fun u hu => ih u (List.mem_cons_of_mem _ hu) (depth + 1)
      have hclose : InAscii ([] ++ [']']) := .cons (by decide) hnil
      refine .cons (by decide) ?_
      rw [List.append_assoc]
      exact (hv.append hrest).append hclose
  | @record fs _ _ ih =>
    cases fs with
    | nil => exact .cons (by decide) (.cons (by decide) hnil)
    | cons f fs =>
      have hf := inAscii_field f.1 (depth + 1) (ih f List.mem_cons_self (depth + 1))
      have hrest := inAscii_fields depth fun g hg => ih g (List.mem_cons_of_mem _ hg) (depth + 1)
      have hclose : InAscii ([] ++ ['}']) := .cons (by decide) hnil
      refine .cons (by decide) ?_
      rw [List.append_assoc]
      exact (hf.append hrest).append hclose

/-! ## Where a line begins and ends -/

/-- The blank itself is the one blank among these characters. -/
theorem isBlank_of_printable (hc : 0x20 < c.toNat ∧ c.toNat ≤ 0x7E) : isBlank c = false := by
  unfold isBlank isBlankPoint
  simp only [Bool.or_eq_false_iff, Bool.and_eq_false_iff, decide_eq_false_iff_not, beq_eq_false_iff_ne]
  omega

/-- A whole value ends with no blank. -/
theorem Value.Whole.exists_last (hv : v.Whole) (st : Style) (depth : Nat) :
    ∃ front c, st.value depth v = front ++ [c] ∧ isBlank c = false := by
  cases hv with
  | null => exact ⟨"nul".toList, 'l', rfl, by decide⟩
  | bool b =>
    cases b with
    | true => exact ⟨"tru".toList, 'e', rfl, by decide⟩
    | false => exact ⟨"fals".toList, 'e', rfl, by decide⟩
  | @int n h =>
    obtain hnil | ⟨ds, d, hds⟩ := List.eq_nil_or_concat (Nat.toDigits 10 n.natAbs)
    · exact absurd hnil Nat.toDigits_ne_nil
    · have hdigit : 48 ≤ d.toNat ∧ d.toNat ≤ 57 :=
        Char.isDigit_iff_toNat.1 (Double.allDigits_toDigits n.natAbs d (by simp [hds]))
      refine ⟨(if n < 0 then ['-'] else []) ++ ds, d, ?_, isBlank_of_printable (by omega)⟩
      rw [Style.value, intText, hds, List.concat_eq_append, List.append_assoc]
  | text s => exact ⟨'"' :: s.toList.flatMap st.character, '"', rfl, by decide⟩
  | @list vs h =>
    cases vs with
    | nil => exact ⟨['['], ']', rfl, by decide⟩
    | cons v vs => exact ⟨_ :: _, ']', rfl, by decide⟩
  | @record fs _ h =>
    cases fs with
    | nil => exact ⟨['{'], '}', rfl, by decide⟩
    | cons f fs => exact ⟨_ :: _, '}', rfl, by decide⟩

/-- **Trimming takes nothing off a line.** -/
theorem Value.Whole.trim_line (hv : v.Whole) : trim (Style.line.value 0 v) = Style.line.value 0 v := by
  refine trim_eq_self_iff.2 ⟨fun c hc => ?_, fun c hc => ?_⟩
  · obtain ⟨d, y, hy, hgap, -⟩ := begins_value Style.line 0 v
    have hd := hv.inAscii 0 d (by rw [hy]; exact List.mem_cons_self)
    rw [hy] at hc
    cases hc
    -- the blank is a gap, and a value does not begin with one
    have hspace : c.toNat ≠ ' '.toNat := by
      intro heq
      rw [Char.toNat_inj.1 heq] at hgap
      cases hgap
    have hcode : ' '.toNat = 0x20 := rfl
    exact isBlank_of_printable (by omega)
  · obtain ⟨front, d, hd, hblank⟩ := hv.exists_last Style.line 0
    rw [hd, List.getLast?_concat] at hc
    cases hc
    exact hblank

/-- **A whole value is read back from its line,** with any gaps around that. -/
theorem parse_line (hv : v.Whole) (hroom : room.Holds v.depth) {front back : List Char}
    (hfront : front.all isGap = true) (hback : back.all isGap = true) :
    Value.parse room (String.ofList (front ++ (Style.line.value 0 v ++ back))) = .ok v := by
  unfold Value.parse
  rw [String.toList_ofList, parseChars_value legible_line hv.legible hroom hfront hback,
    hv.settled.reread]

theorem parse_toLine (hv : v.Whole) (hroom : room.Holds v.depth) :
    Value.parse room v.toLine = .ok v := by
  have hline : v.toLine = String.ofList ([] ++ (Style.line.value 0 v ++ [])) := by
    rw [List.nil_append, List.append_nil]
    rfl
  rw [hline]
  exact parse_line hv hroom rfl rfl

theorem parse?_toLine (hv : v.Whole) : Value.parse? v.toLine = some v := by
  unfold Value.parse?
  rw [parse_toLine hv Room.holds_none]
  rfl

end Walkthrough.Json
