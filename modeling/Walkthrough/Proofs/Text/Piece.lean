/-!
# Texts cut at a character

The pieces of a text between its slashes, or its dots: none of them holds the
character at which the text is cut, and all that stands in them stands in the text
(`mem_splitOn`). A text goes on in its last piece (`exists_splitOn_append`), and that
piece is what stands behind the last such character (`exists_last_cut`). Empty pieces
tell of such characters at an end, or side by side (`of_nil_notMem_splitOn`).
-/

namespace Walkthrough.Text

variable {c d : Char} {cs back piece sep : List Char} {pieces : List (List Char)}

/-- A text can be cut at the last of the characters. -/
theorem exists_last_cut (h : c ∈ cs) : ∃ front back, cs = front ++ c :: back ∧ c ∉ back := by
  obtain ⟨back, front, hcs, hback⟩ := List.eq_append_cons_of_mem (List.mem_reverse.2 h)
  refine ⟨front.reverse, back.reverse, ?_, by simpa using hback⟩
  rw [← List.reverse_reverse cs, hcs]
  simp

/-- Behind it stands what is found from the end. -/
theorem takeWhile_reverse (h : c ∉ back) (front : List Char) :
    ((front ++ c :: back).reverse.takeWhile (· ≠ c)).reverse = back := by
  have hback : ∀ d ∈ back.reverse, decide (d ≠ c) = true := by
    intro d hd
    rw [decide_eq_true_iff]
    rintro rfl
    exact h (List.mem_reverse.1 hd)
  rw [List.reverse_append, List.reverse_cons, List.append_assoc, List.takeWhile_append_of_pos hback]
  simp

/-- **A piece** holds no character at which the text is cut, and nothing that is not in
the text. -/
theorem mem_splitOnP {p : Char → Bool} (h : piece ∈ cs.splitOnP p) :
    (∀ d ∈ piece, p d = false) ∧ piece ⊆ cs := by
  induction cs generalizing piece with
  | nil =>
    rw [List.splitOnP_nil, List.mem_singleton] at h
    subst h
    exact ⟨nofun, List.Subset.refl []⟩
  | cons d cs ih =>
    rw [List.splitOnP_cons_eq_if_modifyHead] at h
    split at h
    · rcases List.mem_cons.1 h with rfl | h
      · exact ⟨nofun, List.nil_subset _⟩
      · exact ⟨(ih h).1, List.subset_cons_of_subset _ (ih h).2⟩
    · next hd =>
      obtain ⟨first, rest, hsplit⟩ := List.exists_cons_of_ne_nil (List.splitOnP_ne_nil p cs)
      rw [hsplit] at h ih
      rcases List.mem_cons.1 h with rfl | h
      · obtain ⟨hfirst, hsub⟩ := ih List.mem_cons_self
        refine ⟨fun e he => ?_, List.cons_subset_cons _ hsub⟩
        rcases List.mem_cons.1 he with rfl | he
        · simpa using hd
        · exact hfirst e he
      · obtain ⟨hpiece, hsub⟩ := ih (List.mem_cons_of_mem _ h)
        exact ⟨hpiece, List.subset_cons_of_subset _ hsub⟩

theorem mem_splitOn (h : piece ∈ cs.splitOn c) : c ∉ piece ∧ piece ⊆ cs := by
  obtain ⟨hpiece, hsub⟩ := mem_splitOnP h
  exact ⟨fun hc => by simpa using hpiece c hc, hsub⟩

/-- **A text goes on in its last piece,** until it is cut again. -/
theorem exists_splitOn_append (h : c ∉ back) (front : List Char) :
    ∃ pieces last, front.splitOn c = pieces ++ [last] ∧
      (front ++ back).splitOn c = pieces ++ [last ++ back] := by
  by_cases hc : c ∈ front
  · obtain ⟨above, last, rfl, hlast⟩ := exists_last_cut hc
    have hboth : c ∉ last ++ back := by simp [hlast, h]
    refine ⟨above.splitOn c, last, ?_, ?_⟩
    · rw [List.splitOn_append_cons_self, List.splitOn_eq_singleton hlast]
    · rw [List.append_assoc, List.cons_append, List.splitOn_append_cons_self,
        List.splitOn_eq_singleton hboth]
  · have hboth : c ∉ front ++ back := by simp [hc, h]
    exact ⟨[], front, List.splitOn_eq_singleton hc, List.splitOn_eq_singleton hboth⟩

/-- **Where no piece is empty** the text has the character at neither end, and nowhere
twice in a row. -/
theorem of_nil_notMem_splitOn (h : [] ∉ cs.splitOn c) :
    cs.head? ≠ some c ∧ cs.getLast? ≠ some c ∧ ¬[c, c] <:+: cs := by
  have hcut (front back : List Char) (hcs : cs = front ++ c :: back) :
      [] ∉ front.splitOn c ∧ [] ∉ back.splitOn c := by
    rw [hcs, List.splitOn_append_cons_self, List.mem_append, not_or] at h
    exact h
  have hnil : [] ∈ ([] : List Char).splitOn c := by simp
  refine ⟨fun hhead => ?_, fun hlast => ?_, ?_⟩
  · obtain ⟨back, hback⟩ := List.head?_eq_some_iff.1 hhead
    exact (hcut [] back hback).1 hnil
  · obtain ⟨front, hfront⟩ := List.getLast?_eq_some_iff.1 hlast
    exact (hcut front [] hfront).2 hnil
  · rintro ⟨front, back, hcs⟩
    have hback := (hcut front (c :: back) (by rw [← hcs]; simp)).2
    rw [List.splitOn_cons_eq_if_modifyHead, if_pos (beq_self_eq_true c)] at hback
    exact hback List.mem_cons_self

/-- What stands in joined pieces stands in one of them or between two. -/
theorem mem_intercalate (h : d ∈ sep.intercalate pieces) : d ∈ sep ∨ ∃ piece ∈ pieces, d ∈ piece := by
  induction pieces with
  | nil => cases h
  | cons first rest ih =>
    have hrest (h : d ∈ sep.intercalate rest) : d ∈ sep ∨ ∃ piece ∈ first :: rest, d ∈ piece :=
      (ih h).imp_right fun ⟨piece, hpiece, hd⟩ => ⟨piece, List.mem_cons_of_mem _ hpiece, hd⟩
    cases rest with
    | nil =>
      rw [List.intercalate_singleton] at h
      exact .inr ⟨first, List.mem_cons_self, h⟩
    | cons next rest =>
      rw [List.intercalate_cons_cons] at h
      rcases List.mem_append.1 h with h | h
      · rcases List.mem_append.1 h with h | h
        · exact .inr ⟨first, List.mem_cons_self, h⟩
        · exact .inl h
      · exact hrest h

end Walkthrough.Text
