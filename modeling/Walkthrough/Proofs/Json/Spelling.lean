import Walkthrough.Proofs.Json.Value
/-!
# Ways to spell a text

JSON leaves open how the characters of a text are spelled. Each may stand for itself
or be escaped, by a letter or by its number, and there is a choice for most of
them (`Spells`). However they are spelled, the text that was meant is read
(`parse_of_quotes`).
-/

namespace Walkthrough.Json

variable {c : Char} {x m line : List Char}

/-- **The ways to spell a character** of a text in quotes: as itself, unless it is a
control, a quotation mark or a backslash; by an escape of its own; or by its number,
which is cut into a pair of surrogates where it has more than sixteen bits. -/
inductive Spells (c : Char) : List Char → Prop
  | itself (hc : 0x20 ≤ c.toNat) (hquote : c ≠ '"') (hback : c ≠ '\\') : Spells c [c]
  | escape {d : Char} (hd : unescape? d = some c) : Spells c ['\\', d]
  | number {i j k l : Char} (h : hex4? i j k l = some c.toNat) : Spells c ['\\', 'u', i, j, k, l]
  | pair {i j k l i' j' k' l' : Char} (hc : 0x10000 ≤ c.toNat)
    (hhigh : hex4? i j k l = some (0xD800 + (c.toNat - 0x10000) / 1024))
    (hlow : hex4? i' j' k' l' = some (0xDC00 + (c.toNat - 0x10000) % 1024)) :
    Spells c ['\\', 'u', i, j, k, l, '\\', 'u', i', j', k', l']

/-- **The JSON texts for a text:** its characters, each spelled in some way, between
quotation marks. -/
def Quotes (m line : List Char) : Prop :=
  ∃ xs, List.Forall₂ Spells m xs ∧ line = '"' :: (xs.flatten ++ ['"'])

/-- **A character is read however it is spelled.** -/
theorem Spells.readAs (h : Spells c x) : ReadAs c x := by
  cases h with
  | itself hc hquote hback =>
    exact ⟨[.plain c], readPieces_itself hc hquote hback, fun _ => rfl⟩
  | escape hd => exact ⟨[.plain c], readPieces_escape hd, fun _ => rfl⟩
  | number h => exact ⟨[.number c.toNat], readPieces_number h, joinPieces_code c⟩
  | pair hc hhigh hlow =>
    refine ⟨[.number _, .number _], fun y => ?_, joinPieces_pair hc⟩
    show readPieces ('\\' :: 'u' :: _ :: _ :: _ :: _ :: '\\' :: 'u' :: _ :: _ :: _ :: _ :: y) = _
    rw [readPieces_number hhigh, readPieces_number hlow]
    cases readPieces y <;> rfl

/-- A line feed has no hexadecimal value, so it is none of four digits. -/
theorem newline_notMem_digits {i j k l : Char} {n : Nat} (h : hex4? i j k l = some n) :
    '\n' ∉ [i, j, k, l] := by
  have hvalue : Text.hexValue? '\n' = none := rfl
  intro hmem
  simp only [List.mem_cons, List.not_mem_nil, or_false] at hmem
  unfold hex4? at h
  rcases hmem with rfl | rfl | rfl | rfl
  · rw [hvalue] at h
    cases h
  · cases hi : Text.hexValue? i <;> rw [hi, hvalue] at h <;> cases h
  · cases hi : Text.hexValue? i <;> cases hj : Text.hexValue? j <;> rw [hi, hj, hvalue] at h <;>
      cases h
  · cases hi : Text.hexValue? i <;> cases hj : Text.hexValue? j <;> cases hk : Text.hexValue? k <;>
      rw [hi, hj, hk, hvalue] at h <;> cases h

/-- No spelling breaks the line. -/
theorem Spells.newline_notMem (h : Spells c x) : '\n' ∉ x := by
  cases h with
  | itself hc hquote hback =>
    intro hmem
    rw [← List.mem_singleton.1 hmem] at hc
    revert hc
    decide
  | escape hd =>
    intro hmem
    simp only [List.mem_cons, List.not_mem_nil, or_false] at hmem
    rcases hmem with hmem | rfl
    · revert hmem
      decide
    · cases hd
  | number h =>
    have hdigits := newline_notMem_digits h
    simp only [List.mem_cons, not_or] at hdigits ⊢
    exact ⟨by decide, by decide, hdigits⟩
  | pair hc hhigh hlow =>
    have hdigits := newline_notMem_digits hhigh
    have hdigits' := newline_notMem_digits hlow
    simp only [List.mem_cons, not_or, List.not_mem_nil, not_false_eq_true, and_true]
      at hdigits hdigits' ⊢
    exact ⟨by decide, by decide, hdigits.1, hdigits.2.1, hdigits.2.2.1, hdigits.2.2.2, by decide,
      by decide, hdigits'⟩

theorem Quotes.newline_notMem (h : Quotes m line) : '\n' ∉ line := by
  obtain ⟨xs, hxs, rfl⟩ := h
  have hbody : '\n' ∉ xs.flatten := by
    induction hxs with
    | nil => exact List.not_mem_nil
    | cons hc _ ih =>
      rw [List.flatten_cons, List.mem_append]
      exact fun hmem => hmem.elim hc.newline_notMem ih
  simp [hbody]

/-- **A JSON text is read as the text it is for,** however that is spelled, and with
any gaps around. -/
theorem parse_of_quotes (h : Quotes m line) (room : Room) {front back : List Char}
    (hfront : front.all isGap = true) (hback : back.all isGap = true) :
    Value.parse room (String.ofList (front ++ (line ++ back))) =
      .ok (.text (String.ofList m)) := by
  obtain ⟨xs, hxs, rfl⟩ := h
  have hread : readText (xs.flatten ++ '"' :: back) = some (m, back) :=
    readText_of_readAs (hxs.imp fun _ _ hc => hc.readAs) back
  have hrest : skipGap back = [] := by
    rw [← List.append_nil back, skipGap_append hback]
    rfl
  have hline : '"' :: (xs.flatten ++ ['"']) ++ back = '"' :: (xs.flatten ++ '"' :: back) := by simp
  have hquote (fuel : Nat) : readValue (fuel + 1) room ('"' :: (xs.flatten ++ '"' :: back)) =
      (found (readText (xs.flatten ++ '"' :: back))).map fun found =>
        (.text (String.ofList found.1), found.2) := rfl
  unfold Value.parse parseChars
  rw [String.toList_ofList, skipGap_append hfront, hline, skipGap_cons rfl, hquote, hread]
  show (if skipGap back = [] then _ else _) = _
  rw [if_pos hrest]

end Walkthrough.Json
