import Walkthrough.Proofs.Slug
import Walkthrough.Proofs.Text.Blank
import Walkthrough.Proofs.Text.Piece
/-!
# The words of a slug

The words of a text are its runs of characters that a slug keeps. A slug is these
words with one dash between any two, cut to its length (`whole_eq_joined`). So it
never starts with a dash and never has two in a row, however it is cut. The two ways
in which it can fall short of a name for files are a letter beyond ASCII and a cut
right behind a dash (`friendly_iff`).
-/

namespace Walkthrough.Slug

open Walkthrough.Text

variable {c d : Char} {cs w : List Char} {ws : List (List Char)}

/-- The runs of characters of a text that a slug keeps. -/
def words (cs : List Char) : List (List Char) := (cs.splitOnP (!isKept ·)).filter (· ≠ [])

/-- Words with one dash between two of them. -/
def joined (ws : List (List Char)) : List Char := ['-'].intercalate ws

/-! ## Words -/

/-- What a slug does not keep is in no word, -/
theorem words_cons_of_not (h : isKept c = false) (cs : List Char) : words (c :: cs) = words cs := by
  unfold words
  rw [List.splitOnP_cons_eq_if_modifyHead, if_pos (by simp [h])]
  rfl

/-- and ends the word in front of it. -/
theorem words_cons_of_end (h : isKept c = true) (hcs : ∀ d ∈ cs.head?, isKept d = false) :
    words (c :: cs) = [c] :: words cs := by
  unfold words
  rw [List.splitOnP_cons_eq_if_modifyHead, if_neg (by simp [h])]
  cases cs with
  | nil => rfl
  | cons d rest =>
    have hd : isKept d = false := hcs d rfl
    rw [List.splitOnP_cons_eq_if_modifyHead, if_pos (by simp [hd])]
    rfl

/-- Two characters in a row that a slug keeps are in one word. -/
theorem exists_words_cons (h : isKept c = true) (hd : isKept d = true) (cs : List Char) :
    ∃ w ws, words (d :: cs) = w :: ws ∧ words (c :: d :: cs) = (c :: w) :: ws := by
  obtain ⟨p, ps, hp⟩ := List.exists_cons_of_ne_nil (List.splitOnP_ne_nil (!isKept ·) cs)
  refine ⟨d :: p, ps.filter (· ≠ []), ?_, ?_⟩
  · unfold words
    rw [List.splitOnP_cons_eq_if_modifyHead, if_neg (by simp [hd]), hp]
    rfl
  · unfold words
    rw [List.splitOnP_cons_eq_if_modifyHead, if_neg (by simp [h]),
      List.splitOnP_cons_eq_if_modifyHead, if_neg (by simp [hd]), hp]
    rfl

/-- A run of characters that a slug keeps. -/
def IsWord (w : List Char) : Prop := w ≠ [] ∧ ∀ c ∈ w, isKept c = true

/-- **Words are such runs.** -/
theorem isWord_of_mem_words (h : w ∈ words cs) : IsWord w := by
  obtain ⟨hpiece, hne⟩ := List.mem_filter.1 h
  refine ⟨of_decide_eq_true hne, fun c hc => ?_⟩
  simpa using (mem_splitOnP hpiece).1 c hc

/-- What a slug keeps is no dash. -/
theorem ne_dash_of_isKept (h : isKept c = true) : c ≠ '-' := by
  rintro rfl
  revert h
  decide

theorem IsWord.dash_notMem (h : IsWord w) : '-' ∉ w :=
  fun hdash => ne_dash_of_isKept (h.2 '-' hdash) rfl

/-! ## Joined words -/

theorem joined_cons_of_ne_nil (h : ws ≠ []) (w : List Char) :
    joined (w :: ws) = w ++ '-' :: joined ws := by
  cases ws with
  | nil => exact absurd rfl h
  | cons next rest =>
    unfold joined
    rw [List.intercalate_cons_cons, List.append_assoc]
    rfl

theorem joined_cons_cons (c : Char) (w : List Char) (ws : List (List Char)) :
    joined ((c :: w) :: ws) = c :: joined (w :: ws) := by
  cases ws with
  | nil => simp [joined]
  | cons next rest =>
    unfold joined
    rw [List.intercalate_cons_cons, List.intercalate_cons_cons]
    rfl

/-- **Dashes stand between words only:** at neither end, and no two in a row. -/
theorem dashes_joined (h : ∀ w ∈ ws, IsWord w) :
    (joined ws).head? ≠ some '-' ∧ (joined ws).getLast? ≠ some '-' ∧
      ¬['-', '-'] <:+: joined ws := by
  by_cases hne : ws = []
  · subst hne
    exact ⟨nofun, nofun, fun hdouble => absurd (List.eq_nil_of_infix_nil hdouble) nofun⟩
  · refine of_nil_notMem_splitOn ?_
    -- cut at its dashes, the text falls into the words again
    have hsplit : (joined ws).splitOn '-' = ws :=
      List.splitOn_intercalate '-' (fun w hw => (h w hw).dash_notMem) hne
    rw [hsplit]
    exact fun hnil => (h [] hnil).1 rfl

/-! ## Slugs -/

/-- Outside of a run a dash is written where one begins. -/
theorem dashed_false (cs : List Char) :
    dashed false cs = if cs.head?.any (!isKept ·) then '-' :: dashed true cs else dashed true cs := by
  cases cs with
  | nil => rfl
  | cons c cs => cases hc : isKept c <;> simp [dashed, hc]

/-- **With its first dash left out, a dashed text is its words joined,** and at most one
dash behind them. -/
theorem exists_dashed_true (cs : List Char) : ∃ tail,
    dashed true cs = joined (words cs) ++ tail ∧ (tail = [] ∨ tail = ['-'] ∧ words cs ≠ []) := by
  induction cs with
  | nil => exact ⟨[], rfl, .inl rfl⟩
  | cons c cs ih =>
    obtain ⟨tail, hdashed, htail⟩ := ih
    cases hc : isKept c with
    | false =>
      have hskip : dashed true (c :: cs) = dashed true cs := by simp [dashed, hc]
      rw [hskip, words_cons_of_not hc]
      exact ⟨tail, hdashed, htail⟩
    | true =>
      have hkeep : dashed true (c :: cs) = c :: dashed false cs := by simp [dashed, hc]
      rw [hkeep, dashed_false]
      cases cs with
      | nil =>
        have hend : ∀ e ∈ ([] : List Char).head?, isKept e = false := by simp
        rw [words_cons_of_end hc hend]
        exact ⟨[], rfl, .inl rfl⟩
      | cons d rest =>
        cases hd : isKept d with
        | true =>
          -- the word goes on
          obtain ⟨w, ws, hrest, hwords⟩ := exists_words_cons hc hd rest
          rw [hrest] at hdashed htail
          refine ⟨tail, ?_, htail.imp id fun h => ⟨h.1, by rw [hwords]; exact nofun⟩⟩
          rw [if_neg (by simp [hd]), hdashed, hwords, joined_cons_cons, List.cons_append]
        | false =>
          -- the word ends, and a dash is written for what follows
          have hend : ∀ e ∈ (d :: rest).head?, isKept e = false :=
            fun e he => Option.some.inj he ▸ hd
          have hwords := words_cons_of_end hc hend
          rw [if_pos (by simp [hd]), hdashed, hwords]
          by_cases hne : words (d :: rest) = []
          · have hnil : tail = [] := htail.resolve_right fun h => h.2 hne
            subst hnil
            refine ⟨['-'], ?_, .inr ⟨rfl, List.cons_ne_nil _ _⟩⟩
            simp [hne, joined]
          · refine ⟨tail, ?_, htail.imp id fun h => ⟨h.1, List.cons_ne_nil _ _⟩⟩
            simp [joined_cons_of_ne_nil hne]

theorem head?_dashed_true (cs : List Char) : (dashed true cs).head? ≠ some '-' := by
  induction cs with
  | nil => nofun
  | cons c cs ih =>
    unfold dashed
    split
    · next hc => simpa using ne_dash_of_isKept hc
    · exact ih

/-- **A slug is made of words:** those of the name, with single dashes between them. -/
theorem whole_eq_joined (name : List Char) : whole name = joined (words name) := by
  obtain ⟨tail, hdashed, htail⟩ := exists_dashed_true name
  have hwords : ∀ w ∈ words name, IsWord w := fun w hw => isWord_of_mem_words hw
  have hlast := (dashes_joined hwords).2.1
  have hkept : (dashed true name).dropWhile (· = '-') = dashed true name := by
    have hhead := head?_dashed_true name
    cases hcs : dashed true name with
    | nil => rfl
    | cons c cs =>
      rw [hcs] at hhead
      exact List.dropWhile_cons_of_neg (by simpa using hhead)
  have hfront : (dashed false name).dropWhile (· = '-') = dashed true name := by
    rw [dashed_false]
    split
    · rw [List.dropWhile_cons_of_pos (by decide), hkept]
    · exact hkept
  have hdashes : ∀ c ∈ tail, decide (c = '-') = true := by
    rcases htail with rfl | ⟨rfl, -⟩
    · nofun
    · simp
  unfold whole
  rw [hfront, hdashed, dropTail_append_of_pos _ hdashes]
  refine dropTail_eq_self fun c hc => decide_eq_false ?_
  rintro rfl
  exact hlast hc

/-! ## Friendly names -/

/-- **A name friendly to file systems:** ASCII letters, digits and dashes, no dash at
either end and no two in a row, and no more characters than a limit. -/
structure IsFriendly (limit : Nat) (name : List Char) : Prop where
  chars : ∀ c ∈ name, c.isAlphanum = true ∨ c = '-'
  front : name.head? ≠ some '-'
  back : name.getLast? ≠ some '-'
  single : ¬['-', '-'] <:+: name
  short : name.length ≤ limit

/-- The slug of a text, cut to a limit. -/
theorem ofText_eq (name : String) (limit : Nat) :
    (ofText name limit).toList = (joined (words name.toList)).take limit := by
  unfold ofText cut
  rw [String.toList_ofList, whole_eq_joined, if_pos (Int.natCast_nonneg limit), Int.toNat_natCast]

/-- **A slug ends in a dash** just where it is cut right behind one. -/
theorem getLast?_take_joined (h : ∀ w ∈ ws, IsWord w) (limit : Nat) :
    ((joined ws).take limit).getLast? = some '-' ↔ (joined ws)[limit - 1]? = some '-' := by
  obtain ⟨hhead, hlast, -⟩ := dashes_joined h
  rw [List.getLast?_take]
  split
  · next hzero =>
    subst hzero
    rw [Nat.zero_sub, ← List.head?_eq_getElem?]
    exact ⟨nofun, fun hdash => absurd hdash hhead⟩
  · cases hat : (joined ws)[limit - 1]? with
    | none => exact ⟨fun hdash => absurd hdash hlast, nofun⟩
    | some c => rfl

/-- A slug character is an ASCII letter, a digit or a dash unless it is one of the four
letters beyond. -/
theorem isAlphanum_or_dash_iff (h : isSlugChar c = true) :
    (c.isAlphanum = true ∨ c = '-') ↔ foldsToLetter c = false := by
  constructor
  · rintro (hc | rfl)
    · have hle := toNat_of_isAlphanum hc
      simp only [foldsToLetter, Bool.or_eq_false_iff, decide_eq_false_iff_not]
      omega
    · decide
  · intro hfolds
    simp only [isSlugChar, isKept, hfolds, Bool.or_false, Bool.or_eq_true, decide_eq_true_eq] at h
    exact h

/-- **What a slug is,** for every name and limit: the words of the name with single
dashes between them, cut to the limit. So it has no dash in front and no two in a row.
It is a friendly name just where it holds none of the four letters beyond ASCII and is
not cut right behind a dash. -/
theorem friendly_iff (name : String) (limit : Nat) :
    (ofText name limit).toList = (joined (words name.toList)).take limit ∧
      (ofText name limit).toList.length ≤ limit ∧
      (ofText name limit).toList.head? ≠ some '-' ∧
      ¬['-', '-'] <:+: (ofText name limit).toList ∧
      (IsFriendly limit (ofText name limit).toList ↔
        (∀ c ∈ (ofText name limit).toList, foldsToLetter c = false) ∧
          (joined (words name.toList))[limit - 1]? ≠ some '-') := by
  have hwords : ∀ w ∈ words name.toList, IsWord w := fun w hw => isWord_of_mem_words hw
  have hslug := ofText_eq name limit
  have hchars (c : Char) (hc : c ∈ (ofText name limit).toList) :=
    isAlphanum_or_dash_iff (isSlugChar_of_mem_ofText hc)
  obtain ⟨hhead, -, hdouble⟩ := dashes_joined hwords
  have hshort : (ofText name limit).toList.length ≤ limit := by
    rw [hslug]
    exact List.length_take_le limit _
  have hfront : (ofText name limit).toList.head? ≠ some '-' := by
    rw [hslug, List.head?_take]
    split
    · nofun
    · exact hhead
  have hsingle : ¬['-', '-'] <:+: (ofText name limit).toList := by
    rw [hslug]
    exact fun h => hdouble (h.trans (List.take_prefix _ _).isInfix)
  have hback : (ofText name limit).toList.getLast? ≠ some '-' ↔
      (joined (words name.toList))[limit - 1]? ≠ some '-' := by
    rw [hslug]
    exact not_congr (getLast?_take_joined hwords limit)
  refine ⟨hslug, hshort, hfront, hsingle, fun h => ⟨fun c hc => ?_, hback.1 h.back⟩, fun h => ?_⟩
  · exact (hchars c hc).1 (h.chars c hc)
  · exact ⟨fun c hc => (hchars c hc).2 (h.1 c hc), hfront, hback.2 h.2, hsingle, hshort⟩

/-- **Not every slug is a friendly name.** The sign for kelvin is kept as a letter, and
a cut can leave a dash at the end. -/
theorem not_friendly : ¬IsFriendly 80 (ofText "300 \u212A" 80).toList ∧
    ¬IsFriendly 4 (ofText "300 km" 4).toList := by
  constructor
  · intro h
    have hkelvin := h.chars '\u212A' (by decide)
    revert hkelvin
    decide
  · intro h
    exact h.back (by decide)

end Walkthrough.Slug
