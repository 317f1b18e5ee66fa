import Walkthrough.Path
import Walkthrough.Proofs.Text.Piece
/-!
# Paths put together from names

A name is a part of a path that holds no slash. A path put together from names
has these as its parts (`parts_join`), and one below it has one name more
(`child_join`); so what reports call their files can be read off the names
alone. Of any other path the end is known by its text: the parts behind a slash
are those of the text behind it (`parts_slash`), and the last part ends as the
text does (`exists_last_part`). Of the name the extension is what its last dot leaves
behind, if it leaves something on both sides (`extension_eq_empty_iff`).
-/

namespace Walkthrough.Path

variable {ps : List String} {part : String}

/-- A text that names something, in one part. -/
def IsName (part : String) : Prop := '/' ∉ part.toList ∧ isPart part = true

/-- Names joined by slashes are split into them again. -/
theorem split_join (h : ∀ p ∈ ps, IsName p) (hne : ps ≠ []) : split (join ps) = ps := by
  have hslash : ∀ l ∈ ps.map String.toList, '/' ∉ l := by
    intro l hl
    obtain ⟨p, hp, rfl⟩ := List.mem_map.1 hl
    exact (h p hp).1
  unfold split join
  rw [String.toList_intercalate]
  have hsep : "/".toList = ['/'] := rfl
  rw [hsep, List.splitOn_intercalate '/' hslash (by simpa using hne), List.map_map]
  simp

theorem parts_join (h : ∀ p ∈ ps, IsName p) (hne : ps ≠ []) : parts (join ps) = ps := by
  unfold parts
  rw [split_join h hne]
  exact List.filter_eq_self.2 fun p hp => (h p hp).2

/-- A slash at either end of a path leaves an empty piece. -/
theorem mem_split_of_slash {path : String} {front back : List Char}
    (h : path.toList = front ++ '/' :: back) (he : front = [] ∨ back = []) : "" ∈ split path := by
  unfold split
  rw [h, List.splitOn_append_cons_self, List.map_append]
  rcases he with rfl | rfl
  · exact List.mem_append_left _ List.mem_cons_self
  · exact List.mem_append_right _ List.mem_cons_self

/-- A path put together from names has a slash at neither end. -/
theorem ne_slash_join (h : ∀ p ∈ ps, IsName p) (hne : ps ≠ []) {front back : List Char}
    (hj : (join ps).toList = front ++ '/' :: back) : front ≠ [] ∧ back ≠ [] := by
  have hmem : "" ∉ split (join ps) := by
    rw [split_join h hne]
    intro hm
    cases (h "" hm).2
  exact ⟨fun hf => hmem (mem_split_of_slash hj (.inl hf)),
    fun hb => hmem (mem_split_of_slash hj (.inr hb))⟩

/-- So it starts below the current directory. -/
theorem root_join (h : ∀ p ∈ ps, IsName p) (hne : ps ≠ []) : root (join ps) = "" := by
  have hstart : ∀ rest, (join ps).toList ≠ '/' :: rest := by
    intro rest hj
    have hj : (join ps).toList = [] ++ '/' :: rest := hj
    exact (ne_slash_join h hne hj).1 rfl
  unfold root
  split
  · next heq => exact absurd heq (hstart _)
  · next heq => exact absurd heq (hstart _)
  · next heq => exact absurd heq (hstart _)
  · rfl

/-- **A name below a path put together from names** is one name more. -/
theorem child_join (h : ∀ p ∈ ps, IsName p) (hne : ps ≠ []) :
    child (join ps) part = join (ps ++ [part]) := by
  have hdot : join ps ≠ "." := by
    intro hj
    have hp := parts_join h hne
    rw [hj] at hp
    exact hne hp.symm
  have hlast : (join ps).toList.getLast? ≠ some '/' := by
    intro hl
    obtain ⟨front, hf⟩ := List.getLast?_eq_some_iff.1 hl
    exact (ne_slash_join h hne hf).2 rfl
  unfold child
  rw [if_neg hdot, if_neg hlast]
  unfold join
  rw [String.intercalate_append_of_ne_nil hne (by simp), String.intercalate_singleton]

/-! ## The end of a path -/

/-- **The parts on both sides of a slash** are the parts of the whole. -/
theorem parts_slash (front back : String) :
    parts (front ++ "/" ++ back) = parts front ++ parts back := by
  have hslash : (front ++ "/" ++ back).toList = front.toList ++ '/' :: back.toList := by
    simp [String.toList_append]
  unfold parts split
  rw [hslash, List.splitOn_append_cons_self, List.map_append, List.filter_append]

theorem parts_of_isName (h : IsName part) : parts part = [part] := by
  have hjoin : join [part] = part := String.intercalate_singleton ..
  have hparts : parts (join [part]) = [part] := parts_join (by simpa using h) (by simp)
  rwa [hjoin] at hparts

theorem parts_slash_end (front : String) : parts (front ++ "/") = parts front := by
  have hempty : front ++ "/" ++ "" = front ++ "/" := String.append_empty
  rw [← hempty, parts_slash]
  exact List.append_nil _

/-- **A name below a path** is one part more. -/
theorem parts_child (path : String) (h : IsName part) :
    parts (child path part) = parts path ++ [part] := by
  unfold child
  split
  · next hdot =>
    rw [hdot]
    exact parts_of_isName h
  · split
    · next hlast =>
      obtain ⟨front, hfront⟩ := List.getLast?_eq_some_iff.1 hlast
      have hpath : path = String.ofList front ++ "/" := by
        rw [← String.toList_inj, hfront, String.toList_append, String.toList_ofList]
        rfl
      rw [hpath, parts_slash, parts_of_isName h, parts_slash_end]
    · rw [parts_slash, parts_of_isName h]

/-- A part below a path is the last one, -/
theorem exists_parts_child (path : String) (h : IsName part) :
    ∃ front, parts (child path part) = front ++ [part] := ⟨parts path, parts_child path h⟩

/-- and the text ends with it. -/
theorem isSuffix_child (path part : String) : part.toList <:+ (child path part).toList := by
  unfold child
  split
  · exact List.suffix_refl _
  · split
    · exact ⟨path.toList, by simp⟩
    · exact ⟨path.toList ++ ['/'], by simp⟩

/-- **Below a name** a part stands behind a slash. -/
theorem child_child {name : String} (path : String) (h : IsName name) :
    child (child path name) part = child path name ++ "/" ++ part := by
  obtain ⟨pre, hpre⟩ := isSuffix_child path name
  have hne : name.toList ≠ [] := by
    intro hnil
    have hempty : name = "" := by rwa [← String.toList_inj]
    rw [hempty] at h
    cases h.2
  have hdot : child path name ≠ "." := by
    intro hdot
    rw [hdot] at hpre
    -- a name is not all of a dot, nor is it empty
    cases pre with
    | nil =>
      have hname : name = "." := by
        rw [← String.toList_inj]
        exact hpre
      rw [hname] at h
      cases h.2
    | cons c pre =>
      have hlen := congrArg List.length hpre
      rw [List.length_append, List.length_cons] at hlen
      have hpos := List.length_pos_iff.2 hne
      have hone : ".".toList.length = 1 := rfl
      omega
  have hlast : (child path name).toList.getLast? ≠ some '/' := by
    rw [← hpre, List.getLast?_append, List.getLast?_eq_some_getLast hne, Option.some_or]
    intro hslash
    exact h.1 (Option.some.inj hslash ▸ List.getLast_mem hne)
  unfold child at hdot hlast ⊢
  rw [if_neg hdot, if_neg hlast]

/-- So the last two parts are known. -/
theorem exists_parts_child_child {name : String} (path : String) (hname : IsName name)
    (h : IsName part) : ∃ front, parts (child (child path name) part) = front ++ [name, part] := by
  obtain ⟨front, hfront⟩ := exists_parts_child path hname
  rw [child_child path hname, parts_slash, parts_of_isName h, hfront]
  exact ⟨front, by simp⟩

/-! ## The start of a path -/

theorem root_eq_empty_iff {path : String} : root path = "" ↔ path.toList.head? ≠ some '/' := by
  unfold root
  split
  · next hpath => simp [hpath]
  · next hpath => simp [hpath]
  · next hpath => simp [hpath]
  · next hpath =>
    refine ⟨fun _ hhead => ?_, fun _ => rfl⟩
    obtain ⟨rest, hrest⟩ := List.head?_eq_some_iff.1 hhead
    exact hpath rest hrest

/-- A path goes on below as it starts, but for the dot, where the part stands
alone. -/
theorem exists_child_eq {path : String} (hdot : path ≠ ".") (part : String) :
    ∃ back, child path part = path ++ back := by
  unfold child
  rw [if_neg hdot]
  split
  · exact ⟨part, rfl⟩
  · exact ⟨"/" ++ part, String.append_assoc⟩

/-- A path starts at the root where one below it does. -/
theorem root_child {path : String} (hne : path ≠ "") (h : IsName part) :
    root (child path part) = "" ↔ root path = "" := by
  by_cases hdot : path = "."
  · rw [hdot]
    refine ⟨fun _ => rfl, fun _ => root_eq_empty_iff.2 fun hhead => h.1 ?_⟩
    exact List.mem_of_head? hhead
  · obtain ⟨back, hback⟩ := exists_child_eq hdot part
    obtain ⟨c, cs, hcons⟩ := List.exists_cons_of_ne_nil
      fun hnil : path.toList = [] => hne (String.toList_inj.1 hnil)
    rw [root_eq_empty_iff, root_eq_empty_iff, hback, String.toList_append, hcons]
    exact Iff.rfl

theorem plain_ne_empty (path : String) : plain path ≠ "" := by
  unfold plain
  dsimp only
  split
  · decide
  · next hne => exact hne

/-- An ending of a name below a path is one of the path. -/
theorem child_append (path part ending : String) :
    child path part ++ ending = child path (part ++ ending) := by
  unfold child
  split
  · rfl
  · split
    · exact String.append_assoc
    · exact String.append_assoc

/-- What stands below one path under different names stands at different
paths. -/
theorem child_inj {path part part' : String} :
    child path part = child path part' ↔ part = part' := by
  unfold child
  split
  · exact Iff.rfl
  · split
    · exact String.append_right_inj path
    · exact String.append_right_inj (path ++ "/")

/-- The path of some parts below a path. -/
def below (path : String) (ps : List String) : String := ps.foldl child path

/-- What ends a text, and holds no slash, ends the last piece of it. -/
theorem exists_last_piece (pre : List Char) {ending : List Char} (h : '/' ∉ ending) :
    ∃ front name, (pre ++ ending).splitOn '/' = front ++ [name] ∧ ending <:+ name := by
  induction pre with
  | nil => exact ⟨[], ending, List.splitOn_eq_singleton h, List.suffix_refl _⟩
  | cons c pre ih =>
    obtain ⟨front, name, hsplit, hname⟩ := ih
    rw [List.cons_append, List.splitOn_cons_eq_if_modifyHead, hsplit]
    split
    · exact ⟨[] :: front, name, rfl, hname⟩
    · cases front with
      | nil => exact ⟨[], c :: name, rfl, hname.trans (List.suffix_cons _ _)⟩
      | cons first front => exact ⟨(c :: first) :: front, name, rfl, hname⟩

/-- **The last part of a path ends as its text does.** -/
theorem exists_last_part {path : String} {ending : List Char} (h : ending <:+ path.toList)
    (hslash : '/' ∉ ending) (hlen : 2 ≤ ending.length) :
    ∃ front name, parts path = front ++ [name] ∧ (split path).getLast? = some name ∧
      isPart name = true ∧ ending <:+ name.toList := by
  obtain ⟨pre, hpre⟩ := h
  obtain ⟨front, name, hsplit, hname⟩ := exists_last_piece pre hslash
  have hpieces : split path = front.map String.ofList ++ [String.ofList name] := by
    unfold split
    rw [← hpre, hsplit, List.map_append]
    rfl
  -- the ending is too long for the piece to be empty or a dot
  have hlong : 2 ≤ name.length := Nat.le_trans hlen hname.length_le
  have hpart : isPart (String.ofList name) = true := by
    have hempty : String.ofList name ≠ "" := by
      intro h
      rw [← String.toList_inj, String.toList_ofList] at h
      rw [h] at hlong
      exact absurd hlong (by decide)
    have hdot : String.ofList name ≠ "." := by
      intro h
      rw [← String.toList_inj, String.toList_ofList] at h
      rw [h] at hlong
      exact absurd hlong (by decide)
    simp [isPart, hempty, hdot]
  refine ⟨(front.map String.ofList).filter isPart, String.ofList name, ?_, ?_, hpart, ?_⟩
  · unfold parts
    rw [hpieces, List.filter_append, List.filter_cons_of_pos hpart, List.filter_nil]
  · rw [hpieces, List.getLast?_concat]
  · rwa [String.toList_ofList]

/-! ## Extensions -/

/-- **A name with an extension:** there is something in front of its last dot, and
something behind. -/
def HasExtension (name : List Char) : Prop :=
  ∃ before after, name = before ++ '.' :: after ∧ '.' ∉ after ∧ before ≠ [] ∧ after ≠ []

/-- A name is cut at its last dot. -/
theorem cutName_append {after : List Char} (h : '.' ∉ after) (before : List Char) :
    cutName (before ++ '.' :: after) =
      if before ≠ [] ∧ after ≠ [] then (before, '.' :: after) else (before ++ '.' :: after, []) := by
  have hlast := Text.takeWhile_reverse h before
  have hlength : (before ++ '.' :: after).length - after.length - 1 = before.length := by
    rw [List.length_append, List.length_cons]
    omega
  unfold cutName
  dsimp only
  rw [hlast, hlength, List.take_left]
  simp

theorem cutName_snd_eq_nil_iff {name : List Char} :
    (cutName name).2 = [] ↔ ¬HasExtension name := by
  by_cases hdot : '.' ∈ name
  · obtain ⟨before, after, rfl, hafter⟩ := Text.exists_last_cut hdot
    rw [cutName_append hafter]
    constructor
    · rintro hnil ⟨before', after', hname, hafter', hne⟩
      -- there is one last dot
      have hsame : after = after' := by
        rw [← Text.takeWhile_reverse hafter before, hname, Text.takeWhile_reverse hafter']
      subst hsame
      rw [if_pos (List.append_cancel_right hname ▸ hne)] at hnil
      cases hnil
    · intro hnone
      rw [if_neg fun hne => hnone ⟨before, after, rfl, hafter, hne⟩]
  · have hcut : cutName name = (name, []) := by
      unfold cutName
      exact if_neg fun h => hdot h.1
    rw [hcut]
    refine ⟨fun _ => ?_, fun _ => rfl⟩
    rintro ⟨before, after, rfl, -⟩
    exact hdot (by simp)

/-- **A path has an extension** if its name has. -/
theorem extension_eq_empty_iff (path : String) :
    extension path = "" ↔ ¬HasExtension (name path).toList := by
  rw [← cutName_snd_eq_nil_iff, ← String.toList_inj]
  unfold extension
  rw [String.toList_ofList]
  rfl

end Walkthrough.Path
