/-!
# Blank characters and trimming

A blank is one of the twenty-nine Unicode characters that separate words: the
ASCII controls from tab to carriage return and from file to unit separator,
the space, and the spaces and line separators beyond ASCII. Every rule of the
library that trims, or that asks for a gap between two words, means these
characters. Only around numbers the separators from file to unit do not count.
Trimming is defined on character lists, where it is proved about, and lifted to
strings at the end.
-/

namespace Walkthrough.Text

/-- The blank characters, as code points. -/
def isBlankPoint (n : Nat) : Bool :=
  (9 ≤ n && n ≤ 13) || (28 ≤ n && n ≤ 32) || n == 0x85 || n == 0xA0 || n == 0x1680 ||
    (0x2000 ≤ n && n ≤ 0x200A) || n == 0x2028 || n == 0x2029 || n == 0x202F || n == 0x205F ||
    n == 0x3000

/-- A character that separates words. -/
def isBlank (c : Char) : Bool := isBlankPoint c.toNat

/-- A blank other than the four ASCII separators of data. -/
def isSpace (c : Char) : Bool := isBlank c && !(28 ≤ c.toNat && c.toNat ≤ 31)

/-- A list without its longest tail of members satisfying `p`. -/
def dropTail (p : α → Bool) : List α → List α
  | [] => []
  | c :: rest =>
    match dropTail p rest with
    | [] => if p c then [] else [c]
    | kept => c :: kept

/-- Characters without the blanks in front. -/
def trimStart (cs : List Char) : List Char := cs.dropWhile isBlank

/-- Characters without the blanks at the end. -/
def trimEnd (cs : List Char) : List Char := dropTail isBlank cs

/-- Characters without the blanks at either end. -/
def trim (cs : List Char) : List Char := trimEnd (trimStart cs)

/-- Characters without the spaces at either end. -/
def trimSpace (cs : List Char) : List Char := dropTail isSpace (cs.dropWhile isSpace)

/-- A string without the blanks at either end. -/
def trimmed (s : String) : String := String.ofList (trim s.toList)

/-- What is kept in front of a dropped tail is an initial part. -/
theorem dropTail_isPrefix (p : α → Bool) (cs : List α) : dropTail p cs <+: cs := by
  induction cs with
  | nil => exact List.nil_prefix
  | cons c rest ih =>
    unfold dropTail
    split
    · split
      · exact List.nil_prefix
      · exact List.cons_prefix_cons.2 ⟨rfl, List.nil_prefix⟩
    · exact List.cons_prefix_cons.2 ⟨rfl, ih⟩

/-- **A dropped tail leaves nothing more to drop.** The last member kept does
not satisfy `p`. -/
theorem not_of_getLast?_dropTail {p : α → Bool} {cs : List α} {c : α}
    (h : (dropTail p cs).getLast? = some c) : p c = false := by
  induction cs with
  | nil => simp [dropTail] at h
  | cons d rest ih =>
    unfold dropTail at h
    split at h
    · split at h
      · simp at h
      · next hd => simp_all
    · next kept hk => exact ih (by rw [List.getLast?_cons_of_ne_nil hk] at h; exact h)

end Walkthrough.Text
