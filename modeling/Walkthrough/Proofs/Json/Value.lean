import Mathlib.Data.List.Nodup
import Walkthrough.Proofs.Json.Number
import Walkthrough.Proofs.Json.Room
import Walkthrough.Proofs.Json.Text
/-!
# Values in JSON

A value that was written is read back from its text (`parse?_toIndented`), if
its integers are not too long for the reader and no record of it has two fields
of one name. Each double in it is replaced by the one that its digits state. A
reader with a limit to its room reads it back as well, if there is room for its
depth (`parseChars_value`). The proof goes along the reader: what it reads with so
much fuel it reads of every value whose text is no longer than half of that.
-/

namespace Walkthrough.Json

variable {st : Style} {n : Nat} {room : Room} {x : List Char}

/-! ## What can be read back -/

/-- **A style that can be read back:** so can its texts, and its gaps are gaps. -/
structure Style.Legible (st : Style) : Prop where
  text (s x : List Char) : readText (s.flatMap st.character ++ '"' :: x) = some (s, x)
  opening (depth : Nat) : (st.opening depth).all isGap = true
  between (depth : Nat) : (st.between depth).all isGap = true
  closing (depth : Nat) : (st.closing depth).all isGap = true

theorem all_isGap_lineAt (depth : Nat) : (lineAt depth).all isGap = true := by
  unfold lineAt
  rw [List.all_cons, List.all_eq_true.2 fun c hc => ?_]
  · rfl
  · rw [List.eq_of_mem_replicate hc]
    rfl

theorem legible_indented : Style.indented.Legible where
  text := recoverable_plain.readText
  opening depth := all_isGap_lineAt (depth + 1)
  between depth := all_isGap_lineAt (depth + 1)
  closing depth := all_isGap_lineAt depth

namespace Value

/-- **A value that can be read back:** its integers are not too long for the
reader, and no record of it has two fields of one name. -/
inductive Legible : Value → Prop
  | null : Legible .null
  | bool (b : Bool) : Legible (.bool b)
  | int {n : Int} (h : n.natAbs < integerBound) : Legible (.int n)
  | float (d : Double) : Legible (.float d)
  | text (s : String) : Legible (.text s)
  | list {vs : List Value} (h : ∀ v ∈ vs, Legible v) : Legible (.list vs)
  | record {fs : List (String × Value)} (hnames : (fs.map (·.1)).Nodup)
    (h : ∀ f ∈ fs, Legible f.2) : Legible (.record fs)

mutual

/-- A value with each double replaced by the one that its digits state. -/
def reread : Value → Value
  | .null => .null
  | .bool b => .bool b
  | .int n => .int n
  | .float d => .float d.reread
  | .text s => .text s
  | .list vs => .list (rereadItems vs)
  | .record fs => .record (rereadFields fs)

/-- The members of a list, each reread. -/
def rereadItems : List Value → List Value
  | [] => []
  | v :: vs => v.reread :: rereadItems vs

/-- The fields of a record, each reread. -/
def rereadFields : List (String × Value) → List (String × Value)
  | [] => []
  | (name, v) :: fs => (name, v.reread) :: rereadFields fs

end

theorem rereadItems_eq (vs : List Value) : rereadItems vs = vs.map reread := by
  induction vs with
  | nil => rfl
  | cons v vs ih => rw [rereadItems, ih, List.map_cons]

theorem rereadFields_eq (fs : List (String × Value)) :
    rereadFields fs = fs.map fun f => (f.1, f.2.reread) := by
  induction fs with
  | nil => rfl
  | cons f fs ih => rw [rereadFields, ih, List.map_cons]

/-- **A settled value:** each double in it is as it is to be held. -/
inductive Settled : Value → Prop
  | null : Settled .null
  | bool (b : Bool) : Settled (.bool b)
  | int (n : Int) : Settled (.int n)
  | float {d : Double} (h : d.Proper) : Settled (.float d)
  | text (s : String) : Settled (.text s)
  | list {vs : List Value} (h : ∀ v ∈ vs, Settled v) : Settled (.list vs)
  | record {fs : List (String × Value)} (h : ∀ f ∈ fs, Settled f.2) : Settled (.record fs)

/-- **There is nothing in it that reading would replace.** -/
theorem Settled.reread {v : Value} (hv : v.Settled) : v.reread = v := by
  induction hv with
  | float h => rw [Value.reread, reread_of_proper h]
  | list _ ih => rw [Value.reread, rereadItems_eq, List.map_congr_left ih, List.map_id']
  | @record fs _ ih =>
    have hsame : fs.map (fun f => (f.1, f.2.reread)) = fs.map id :=
      List.map_congr_left fun f hf => Prod.ext rfl (ih f hf)
    rw [Value.reread, rereadFields_eq, hsame, List.map_id]
  | _ => rfl

mutual

/-- How many lists and records stand inside of each other in a value. -/
def depth : Value → Nat
  | .list vs => depthOfItems vs + 1
  | .record fs => depthOfFields fs + 1
  | _ => 0

/-- How deep the deepest of some values is. -/
def depthOfItems : List Value → Nat
  | [] => 0
  | v :: vs => max v.depth (depthOfItems vs)

/-- How deep the deepest of some fields is. -/
def depthOfFields : List (String × Value) → Nat
  | [] => 0
  | (_, v) :: fs => max v.depth (depthOfFields fs)

end

theorem depth_le_depthOfItems {v : Value} {vs : List Value} (h : v ∈ vs) :
    v.depth ≤ depthOfItems vs := by
  induction vs with
  | nil => cases h
  | cons u us ih =>
    rw [depthOfItems]
    rcases List.mem_cons.1 h with rfl | h
    · exact Nat.le_max_left _ _
    · exact (ih h).trans (Nat.le_max_right _ _)

theorem depth_le_depthOfFields {f : String × Value} {fs : List (String × Value)} (h : f ∈ fs) :
    f.2.depth ≤ depthOfFields fs := by
  induction fs with
  | nil => cases h
  | cons g gs ih =>
    obtain ⟨name, u⟩ := g
    rw [depthOfFields]
    rcases List.mem_cons.1 h with rfl | h
    · exact Nat.le_max_left _ _
    · exact (ih h).trans (Nat.le_max_right _ _)

end Value

/-! ## Gaps and fronts -/

theorem skipGap_append {gap : List Char} (h : gap.all isGap = true) (y : List Char) :
    skipGap (gap ++ y) = skipGap y :=
  List.dropWhile_append_of_pos (List.all_eq_true.1 h)

theorem skipGap_cons {c : Char} (h : isGap c = false) (y : List Char) :
    skipGap (c :: y) = c :: y := by
  unfold skipGap
  rw [List.dropWhile_cons_of_neg (by rw [h]; decide)]

/-- A text that begins as a value does: with no gap and no closing bracket. -/
def Begins (cs : List Char) : Prop := ∃ c y, cs = c :: y ∧ isGap c = false ∧ c ≠ ']'

/-- A text that begins as what stands for itself does. -/
def BeginsPlain (cs : List Char) : Prop :=
  ∃ c y, cs = c :: y ∧ isGap c = false ∧ c ≠ ']' ∧ c ≠ '"' ∧ c ≠ '[' ∧ c ≠ '{'

theorem BeginsPlain.begins {cs : List Char} (h : BeginsPlain cs) : Begins cs := by
  obtain ⟨c, y, rfl, hgap, hclose, -⟩ := h
  exact ⟨c, y, rfl, hgap, hclose⟩

theorem Begins.skipGap {cs : List Char} (h : Begins cs) (y : List Char) :
    skipGap (cs ++ y) = cs ++ y := by
  obtain ⟨c, z, rfl, hgap, -⟩ := h
  exact skipGap_cons hgap _

theorem Begins.length_pos {cs : List Char} (h : Begins cs) : 1 ≤ cs.length := by
  obtain ⟨c, y, rfl, -⟩ := h
  exact Nat.le_add_left _ _

theorem beginsPlain_signText (negative : Bool) {ds : List Char} (hd : Double.AllDigits ds)
    (hne : ds ≠ []) (y : List Char) : BeginsPlain (Double.signText negative ++ (ds ++ y)) := by
  cases negative with
  | true => exact ⟨'-', _, rfl, by decide, by decide, by decide, by decide, by decide⟩
  | false =>
    cases ds with
    | nil => exact absurd rfl hne
    | cons d ds =>
      have hdigit := hd d List.mem_cons_self
      refine ⟨d, ds ++ y, rfl, ?_, ?_, ?_, ?_, ?_⟩
      · cases hgap : isGap d with
        | false => rfl
        | true => exact absurd hdigit (by simp [(Stops.of_head (x := []) (.inl hgap)).head.1])
      · rintro rfl
        cases hdigit
      · rintro rfl
        cases hdigit
      · rintro rfl
        cases hdigit
      · rintro rfl
        cases hdigit

theorem beginsPlain_intText (n : Int) : BeginsPlain (intText n) := by
  have htext : intText n =
      Double.signText (decide (n < 0)) ++ (Nat.toDigits 10 n.natAbs ++ []) := by
    simp [intText, Double.signText]
  rw [htext]
  exact beginsPlain_signText _ (Double.allDigits_toDigits _) Nat.toDigits_ne_nil _

theorem beginsPlain_toText (d : Double) : BeginsPlain (d.toText numberSpelling) := by
  cases d with
  | nan => exact ⟨'N', _, rfl, by decide, by decide, by decide, by decide, by decide⟩
  | infinite negative =>
    cases negative with
    | true => exact ⟨'-', _, rfl, by decide, by decide, by decide, by decide, by decide⟩
    | false => exact ⟨'I', _, rfl, by decide, by decide, by decide, by decide, by decide⟩
  | finite negative m e =>
    obtain ⟨whole, fraction, exponent, htext, hdecimal, -⟩ :=
      Double.exists_toText numberSpelling negative m e
    rw [htext]
    exact beginsPlain_signText _ hdecimal.wholeDigits hdecimal.ne_nil _

theorem beginsPlain_word {w : List Char} (h : w ∈ words.map (·.1)) : BeginsPlain w := by
  simp only [words, List.map_cons, List.map_nil, List.mem_cons, List.not_mem_nil, or_false] at h
  rcases h with rfl | rfl | rfl | rfl | rfl | rfl
  all_goals exact ⟨_, _, rfl, by decide, by decide, by decide, by decide, by decide⟩

/-- **A value begins as a value.** -/
theorem begins_value (st : Style) (depth : Nat) (v : Value) : Begins (st.value depth v) := by
  cases v with
  | null => exact (beginsPlain_word (w := "null".toList) (by simp [words])).begins
  | bool b =>
    cases b with
    | true => exact (beginsPlain_word (w := "true".toList) (by simp [words])).begins
    | false => exact (beginsPlain_word (w := "false".toList) (by simp [words])).begins
  | int n => exact (beginsPlain_intText n).begins
  | float d => exact (beginsPlain_toText d).begins
  | text s => exact ⟨'"', _, rfl, by decide, by decide⟩
  | list vs =>
    cases vs with
    | nil => exact ⟨'[', _, rfl, by decide, by decide⟩
    | cons v vs => exact ⟨'[', _, rfl, by decide, by decide⟩
  | record fs =>
    cases fs with
    | nil => exact ⟨'{', _, rfl, by decide, by decide⟩
    | cons f fs => exact ⟨'{', _, rfl, by decide, by decide⟩

/-! ## Reading -/

theorem readValue_plain {cs : List Char} (h : BeginsPlain cs) (n : Nat) (x : List Char) :
    readValue (n + 1) room (cs ++ x) = found (readPlain (cs ++ x)) := by
  obtain ⟨c, y, rfl, -, -, hquote, hlist, hrecord⟩ := h
  show readValue (n + 1) room (c :: (y ++ x)) = found (readPlain (c :: (y ++ x)))
  unfold readValue
  split
  · next h =>
    cases h
    exact absurd rfl hquote
  · next h =>
    cases h
    exact absurd rfl hlist
  · next h =>
    cases h
    exact absurd rfl hrecord
  · rfl

section

variable {cs rest more after : List Char} {v : Value} {name : List Char}

theorem readItems_last (hv : readValue n room cs = .ok (v, rest))
    (hrest : skipGap rest = ']' :: after) : readItems (n + 1) room cs = .ok ([v], after) := by
  simp [readItems, bind, Except.bind, hv, hrest]

theorem readItems_more {vs : List Value} (hv : readValue n room cs = .ok (v, rest))
    (hrest : skipGap rest = ',' :: more)
    (hvs : readItems n room (skipGap more) = .ok (vs, after)) :
    readItems (n + 1) room cs = .ok (v :: vs, after) := by
  simp [readItems, bind, Except.bind, hv, hrest, hvs]

theorem readFields_last (hname : readText cs = some (name, ':' :: ' ' :: rest))
    (hgap : skipGap rest = rest) (hv : readValue n room rest = .ok (v, more))
    (hmore : skipGap more = '}' :: after) :
    readFields (n + 1) room ('"' :: cs) = .ok ([(String.ofList name, v)], after) := by
  have hblank : skipGap (' ' :: rest) = rest := hgap
  have hcolon : skipGap (':' :: ' ' :: rest) = ':' :: ' ' :: rest := rfl
  simp [readFields, bind, Except.bind, found, hname, hcolon, hblank, hv, hmore]

theorem readFields_more {fs : List (String × Value)} {back : List Char}
    (hname : readText cs = some (name, ':' :: ' ' :: rest)) (hgap : skipGap rest = rest)
    (hv : readValue n room rest = .ok (v, back)) (hback : skipGap back = ',' :: more)
    (hfs : readFields n room (skipGap more) = .ok (fs, after)) :
    readFields (n + 1) room ('"' :: cs) = .ok ((String.ofList name, v) :: fs, after) := by
  have hblank : skipGap (' ' :: rest) = rest := hgap
  have hcolon : skipGap (':' :: ' ' :: rest) = ':' :: ' ' :: rest := rfl
  simp [readFields, bind, Except.bind, found, hname, hcolon, hblank, hv, hback, hfs]

theorem readValue_list {vs : List Value} {inner : Room} (hroom : room.Leaves inner)
    (hbegins : Begins cs) (hgap : skipGap rest = cs) (hvs : readItems n inner cs = .ok (vs, after)) :
    readValue (n + 1) room ('[' :: rest) = .ok (.list vs, after) := by
  obtain ⟨c, y, rfl, -, hc⟩ := hbegins
  rw [readValue, hroom]
  simp [Except.map, hgap, hvs, hc]

theorem readValue_record {fs : List (String × Value)} {inner : Room} (hroom : room.Leaves inner)
    (hgap : skipGap rest = '"' :: cs) (hfs : readFields n inner ('"' :: cs) = .ok (fs, after)) :
    readValue (n + 1) room ('{' :: rest) = .ok (recordOf fs, after) := by
  rw [readValue, hroom]
  simp [Except.map, hgap, hfs]

end

/-! ## One step of fuel -/

/-- With so much fuel the reader reads back every value whose text is short enough
and for whose depth there is room, -/
def ReadsValues (st : Style) (n : Nat) : Prop :=
  ∀ ⦃v : Value⦄ ⦃room : Room⦄ (depth : Nat) ⦃x : List Char⦄, v.Legible → room.Holds v.depth →
    Stops x → 2 * (st.value depth v).length ≤ n →
    readValue n room (st.value depth v ++ x) = .ok (v.reread, x)

/-- every list of members up to its bracket, -/
def ReadsItems (st : Style) (n : Nat) : Prop :=
  ∀ ⦃v : Value⦄ ⦃vs : List Value⦄ ⦃room : Room⦄ (depth : Nat) (x : List Char),
    (∀ u ∈ v :: vs, u.Legible) → (∀ u ∈ v :: vs, room.Holds u.depth) →
    2 * ((st.value (depth + 1) v).length + (st.items depth vs).length) + 1 ≤ n →
    readItems n room
      (st.value (depth + 1) v ++ (st.items depth vs ++ (st.closing depth ++ ']' :: x))) =
      .ok (v.reread :: Value.rereadItems vs, x)

/-- and every list of fields up to its bracket. -/
def ReadsFields (st : Style) (n : Nat) : Prop :=
  ∀ (name : String) ⦃v : Value⦄ ⦃fs : List (String × Value)⦄ ⦃room : Room⦄ (depth : Nat)
    (x : List Char), (∀ f ∈ (name, v) :: fs, f.2.Legible) →
    (∀ f ∈ (name, v) :: fs, room.Holds f.2.depth) →
    2 * ((st.value (depth + 1) v).length + (st.fields depth fs).length) + 1 ≤ n →
    readFields n room (st.quoted name.toList ++ (':' :: ' ' :: (st.value (depth + 1) v ++
      (st.fields depth fs ++ (st.closing depth ++ '}' :: x))))) =
      .ok ((name, v.reread) :: Value.rereadFields fs, x)

theorem items_append (st : Style) (u : Value) (us : List Value) (depth : Nat) (y : List Char) :
    st.items depth (u :: us) ++ y = ',' :: (st.between depth ++ (st.value (depth + 1) u ++
      (st.items depth us ++ y))) := by
  simp [Style.items]

theorem fields_append (st : Style) (name : String) (u : Value) (gs : List (String × Value))
    (depth : Nat) (y : List Char) : st.fields depth ((name, u) :: gs) ++ y = ',' :: (st.between depth ++
      (st.quoted name.toList ++ (':' :: ' ' :: (st.value (depth + 1) u ++
        (st.fields depth gs ++ y))))) := by
  simp [Style.fields]

theorem quoted_append (name y : List Char) :
    st.quoted name ++ y = '"' :: (name.flatMap st.character ++ '"' :: y) := by
  simp [Style.quoted]

theorem readsItems_succ (hst : st.Legible) (hvalues : ReadsValues st n)
    (hitems : ReadsItems st n) : ReadsItems st (n + 1) := by
  intro v vs room depth x hvs hroom hfuel
  have hv := hvs v List.mem_cons_self
  have hheld := hroom v List.mem_cons_self
  cases vs with
  | nil =>
    have hstops : Stops (st.closing depth ++ ']' :: x) :=
      .of_gap (hst.closing depth) (.of_head (by simp))
    exact readItems_last (hvalues _ hv hheld hstops (by omega))
      (skipGap_append (hst.closing depth) (']' :: x))
  | cons u us =>
    have hlen := congrArg List.length (items_append st u us depth [])
    simp only [List.append_nil, List.length_cons, List.length_append] at hlen
    rw [items_append]
    refine readItems_more (hvalues _ hv hheld (.of_head (by simp)) (by omega)) rfl ?_
    rw [skipGap_append (hst.between depth), (begins_value st (depth + 1) u).skipGap]
    exact hitems depth x (fun u hu => hvs u (List.mem_cons_of_mem _ hu))
      (fun u hu => hroom u (List.mem_cons_of_mem _ hu)) (by omega)

theorem readsFields_succ (hst : st.Legible) (hvalues : ReadsValues st n)
    (hfields : ReadsFields st n) : ReadsFields st (n + 1) := by
  intro name v fs room depth x hfs hroom hfuel
  have hv : v.Legible := hfs (name, v) List.mem_cons_self
  have hheld : room.Holds v.depth := hroom (name, v) List.mem_cons_self
  have hfront := (begins_value st (depth + 1) v).skipGap
  have hname : name = String.ofList name.toList := String.ofList_toList.symm
  rw [quoted_append, hname, String.toList_ofList]
  cases fs with
  | nil =>
    have hstops : Stops (st.closing depth ++ '}' :: x) :=
      .of_gap (hst.closing depth) (.of_head (by simp))
    exact readFields_last (hst.text _ _) (hfront _) (hvalues _ hv hheld hstops (by omega))
      (skipGap_append (hst.closing depth) ('}' :: x))
  | cons g gs =>
    obtain ⟨name', u⟩ := g
    have hlen := congrArg List.length (fields_append st name' u gs depth [])
    simp only [List.append_nil, List.length_cons, List.length_append] at hlen
    rw [fields_append]
    refine readFields_more (hst.text _ _) (hfront _)
      (hvalues _ hv hheld (.of_head (by simp)) (by omega)) rfl ?_
    rw [skipGap_append (hst.between depth), quoted_append, skipGap_cons (by decide),
      ← quoted_append]
    exact hfields name' depth x (fun g hg => hfs g (List.mem_cons_of_mem _ hg))
      (fun g hg => hroom g (List.mem_cons_of_mem _ hg)) (by omega)

/-! ## Records -/

theorem put_of_notMem {fs : List (String × Value)} {name : String} (h : name ∉ fs.map (·.1))
    (v : Value) : Value.put fs name v = fs ++ [(name, v)] := by
  unfold Value.put
  rw [if_neg]
  rw [List.any_eq_true]
  rintro ⟨f, hf, hname⟩
  exact h (List.mem_map.2 ⟨f, hf, of_decide_eq_true hname⟩)

/-- **Fields of different names are all kept,** in their order. -/
theorem recordOf_of_nodup {fs : List (String × Value)} (h : (fs.map (·.1)).Nodup) :
    recordOf fs = .record fs := by
  have hkept (front back : List (String × Value)) (h : ((front ++ back).map (·.1)).Nodup) :
      back.foldl (fun kept f => Value.put kept f.1 f.2) front = front ++ back := by
    induction back generalizing front with
    | nil => rw [List.foldl_nil, List.append_nil]
    | cons f back ih =>
      have hnew : f.1 ∉ front.map (·.1) := by
        rw [List.map_append, List.map_cons, List.nodup_middle, List.nodup_cons] at h
        exact fun hmem => h.1 (List.mem_append_left _ hmem)
      have hall : front ++ [f] ++ back = front ++ f :: back := by simp
      rw [List.foldl_cons, put_of_notMem hnew, ih (front ++ [f]) (hall ▸ h), hall]
  unfold recordOf
  rw [hkept [] fs h, List.nil_append]

theorem names_rereadFields (fs : List (String × Value)) :
    (Value.rereadFields fs).map (·.1) = fs.map (·.1) := by
  rw [Value.rereadFields_eq, List.map_map]
  rfl

/-! ## Values -/

theorem readValue_word {w : List Char} {v : Value} (h : (w, v) ∈ words) (n : Nat)
    (x : List Char) : readValue (n + 1) room (w ++ x) = .ok (v, x) := by
  rw [readValue_plain (beginsPlain_word (List.mem_map_of_mem h)) n x, readPlain_word h x]
  rfl

/-- A list is read back if its members are. -/
theorem readValue_items (hst : st.Legible) (hitems : ReadsItems st n) {u : Value}
    {us : List Value} (depth : Nat) (x : List Char) (h : ∀ v ∈ u :: us, v.Legible)
    (hroom : room.Holds (Value.list (u :: us)).depth)
    (hfuel : 2 * (st.value depth (.list (u :: us))).length ≤ n + 1) :
    readValue (n + 1) room (st.value depth (.list (u :: us)) ++ x) =
      .ok ((Value.list (u :: us)).reread, x) := by
  have htext : st.value depth (.list (u :: us)) ++ x = '[' :: (st.opening depth ++
      (st.value (depth + 1) u ++ (st.items depth us ++ (st.closing depth ++ ']' :: x)))) := by
    simp [Style.value]
  have hlen := congrArg List.length htext
  simp only [List.length_append, List.length_cons] at hlen
  have hbegins : Begins (st.value (depth + 1) u ++
      (st.items depth us ++ (st.closing depth ++ ']' :: x))) := by
    obtain ⟨c, y, hy, hc⟩ := begins_value st (depth + 1) u
    exact ⟨c, _, by rw [hy]; rfl, hc⟩
  obtain ⟨inner, hleaves, hheld⟩ := Room.Holds.enter hroom
  have hread := hitems depth x h (fun v hv => hheld.mono (Value.depth_le_depthOfItems hv)) (by omega)
  rw [htext]
  refine readValue_list hleaves hbegins ?_ hread
  rw [skipGap_append (hst.opening depth), (begins_value st (depth + 1) u).skipGap]

/-- A record is read back if its fields are. -/
theorem readValue_fields (hst : st.Legible) (hfields : ReadsFields st n) {name : String}
    {u : Value} {gs : List (String × Value)} (depth : Nat) (x : List Char)
    (hnames : (((name, u) :: gs).map (·.1)).Nodup) (h : ∀ f ∈ (name, u) :: gs, f.2.Legible)
    (hroom : room.Holds (Value.record ((name, u) :: gs)).depth)
    (hfuel : 2 * (st.value depth (.record ((name, u) :: gs))).length ≤ n + 1) :
    readValue (n + 1) room (st.value depth (.record ((name, u) :: gs)) ++ x) =
      .ok ((Value.record ((name, u) :: gs)).reread, x) := by
  have htext : st.value depth (.record ((name, u) :: gs)) ++ x = '{' :: (st.opening depth ++
      (st.quoted name.toList ++ (':' :: ' ' :: (st.value (depth + 1) u ++
        (st.fields depth gs ++ (st.closing depth ++ '}' :: x)))))) := by
    simp [Style.value]
  have hlen := congrArg List.length htext
  simp only [List.length_append, List.length_cons] at hlen
  obtain ⟨inner, hleaves, hheld⟩ := Room.Holds.enter hroom
  have hread := hfields name depth x h (fun g hg => hheld.mono (Value.depth_le_depthOfFields hg))
    (by omega)
  rw [quoted_append] at hread htext
  have hnodup : ((Value.rereadFields ((name, u) :: gs)).map (·.1)).Nodup := by
    rwa [names_rereadFields]
  rw [htext]
  refine (readValue_record hleaves ?_ hread).trans ?_
  · rw [skipGap_append (hst.opening depth)]
    rfl
  · rw [← Value.rereadFields, recordOf_of_nodup hnodup, Value.reread]

theorem readsValues_succ (hst : st.Legible) (hitems : ReadsItems st n)
    (hfields : ReadsFields st n) : ReadsValues st (n + 1) := by
  intro v room depth x hv hroom hx hfuel
  cases hv with
  | null => exact readValue_word (w := "null".toList) (v := .null) (by simp [words]) n x
  | bool b =>
    cases b with
    | true => exact readValue_word (w := "true".toList) (v := .bool true) (by simp [words]) n x
    | false => exact readValue_word (w := "false".toList) (v := .bool false) (by simp [words]) n x
  | int h =>
    refine (readValue_plain (beginsPlain_intText _) n x).trans ?_
    rw [readPlain_int h hx]
    rfl
  | float d =>
    refine (readValue_plain (beginsPlain_toText d) n x).trans ?_
    rw [readPlain_float d hx]
    rfl
  | text s =>
    show readValue (n + 1) room (st.quoted s.toList ++ x) = _
    rw [quoted_append]
    simp [readValue, found, Except.map, hst.text, Value.reread]
  | @list vs h =>
    cases vs with
    | nil =>
      obtain ⟨inner, hleaves, -⟩ := Room.Holds.enter hroom
      show readValue (n + 1) room ('[' :: ']' :: x) = _
      rw [readValue, hleaves]
      rfl
    | cons u us => exact readValue_items hst hitems depth x h hroom hfuel
  | @record fs hnames h =>
    cases fs with
    | nil =>
      obtain ⟨inner, hleaves, -⟩ := Room.Holds.enter hroom
      show readValue (n + 1) room ('{' :: '}' :: x) = _
      rw [readValue, hleaves]
      rfl
    | cons f gs => exact readValue_fields hst hfields depth x hnames h hroom hfuel

/-- **The reader reads back** whatever its fuel suffices for. -/
theorem reads (hst : st.Legible) (n : Nat) :
    ReadsValues st n ∧ ReadsItems st n ∧ ReadsFields st n := by
  induction n with
  | zero =>
    refine ⟨fun v room depth x _ _ _ hfuel => ?_, fun _ _ _ _ _ _ _ hfuel => ?_,
      fun _ _ _ _ _ _ _ _ hfuel => ?_⟩
    · have hpos := (begins_value st depth v).length_pos
      omega
    · omega
    · omega
  | succ n ih =>
    obtain ⟨hvalues, hitems, hfields⟩ := ih
    exact ⟨readsValues_succ hst hitems hfields, readsItems_succ hst hvalues hitems,
      readsFields_succ hst hvalues hfields⟩

/-- **A written value is read back,** with any gaps around it, and each double in
it as what its digits state. -/
theorem parseChars_value (hst : st.Legible) {v : Value} (hv : v.Legible)
    (hroom : room.Holds v.depth) {front back : List Char} (hfront : front.all isGap = true)
    (hback : back.all isGap = true) :
    parseChars room (front ++ (st.value 0 v ++ back)) = .ok v.reread := by
  have hstops : Stops back := by
    rw [← List.append_nil back]
    exact .of_gap hback .nil
  have hrest : skipGap back = [] := by
    rw [← List.append_nil back, skipGap_append hback]
    rfl
  have hread := (reads hst (2 * (front ++ (st.value 0 v ++ back)).length + 2)).1 0 hv hroom hstops
    (by simp only [List.length_append]; omega)
  unfold parseChars
  rw [skipGap_append hfront, (begins_value st 0 v).skipGap, hread]
  show (if skipGap back = [] then _ else _) = _
  rw [if_pos hrest]

/-- **What is written over several lines is read back.** -/
theorem parse?_toIndented {v : Value} (hv : v.Legible) :
    Value.parse? v.toIndented = some v.reread := by
  have hread : parseChars none ([] ++ (Style.indented.value 0 v ++ [])) = .ok v.reread :=
    parseChars_value legible_indented hv Room.holds_none rfl rfl
  rw [List.nil_append, List.append_nil] at hread
  unfold Value.parse? Value.parse Value.toIndented
  rw [String.toList_ofList, hread]
  rfl

end Walkthrough.Json
