import Walkthrough.Chronicle
/-!
# What is printed and written

The chronicle holds what is printed and what is written beside all else. A
notice is known by how its text begins (`Notice.begins_eq`), so the marks of
steps and the verdict on a suite can be found in what is printed.
-/

namespace Walkthrough

namespace Chronicle

variable {c d : Chronicle}

/-- The files written, in order, with what was written. -/
def written (c : Chronicle) : List (String × List UInt8) :=
  c.filterMap fun
    | .wrote path bytes => some (path, bytes)
    | _ => none

@[simp] theorem notices_append : notices (c ++ d) = notices c ++ notices d :=
  List.filterMap_append

@[simp] theorem written_append : written (c ++ d) = written c ++ written d :=
  List.filterMap_append

@[simp] theorem written_wrote {path : String} {bytes : List UInt8} :
    written (.wrote path bytes :: c) = (path, bytes) :: written c := rfl

@[simp] theorem written_printed {n : Notice} : written (.printed n :: c) = written c := rfl

end Chronicle

namespace Notice

/-- How what is printed begins. -/
def front : Notice → String
  | suiteStarted _ _ _ => "[exec] suite="
  | caseStarted _ => "  case: "
  | stepPassed _ => "   ✓ "
  | stepFailed _ _ => "   ✕ "
  | suiteFinished _ _ failed => if failed = 0 then "\n PASS " else "\n FAIL "
  | probed _ _ => "[probe] "

/-- All that can begin a notice. -/
def fronts : List String :=
  ["[exec] suite=", "  case: ", "   ✓ ", "   ✕ ", "\n PASS ", "\n FAIL ", "[probe] "]

theorem front_mem_fronts (n : Notice) : n.front ∈ fronts := by
  cases n with
  | suiteFinished source passed failed =>
    by_cases hfailed : failed = 0
    · simp [front, fronts, hfailed]
    · simp [front, fronts, hfailed]
  | _ => simp [front, fronts]

theorem front_isPrefix (n : Notice) : n.front.toList <+: n.text.toList := by
  cases n with
  | suiteFinished source passed failed =>
    unfold front text
    dsimp only
    by_cases hfailed : failed = 0
    · rw [if_pos hfailed, if_pos hfailed]
      simp only [String.append_assoc, String.toList_append]
      exact List.prefix_append _ _
    · rw [if_neg hfailed, if_neg hfailed]
      simp only [String.append_assoc, String.toList_append]
      exact List.prefix_append _ _
  | _ =>
    unfold front text
    simp only [String.append_assoc, String.toList_append]
    exact List.prefix_append _ _

/-- What is printed begins with the given text. -/
def begins (m : String) (n : Notice) : Bool := m.toList.isPrefixOf n.text.toList

/-- **A notice is known by how it begins.** -/
theorem begins_eq {m : String} (hm : m ∈ fronts) (n : Notice) :
    n.begins m = decide (n.front = m) := by
  have hapart : ∀ a ∈ fronts, ∀ b ∈ fronts,
      a.toList <+: b.toList ∨ b.toList <+: a.toList → a = b := by decide
  rw [Bool.eq_iff_iff, decide_eq_true_iff, begins, List.isPrefixOf_iff_prefix]
  constructor
  · intro h
    exact hapart _ n.front_mem_fronts m hm
      (List.prefix_or_prefix_of_prefix n.front_isPrefix h)
  · rintro rfl
    exact n.front_isPrefix

/-- A check mark is printed. -/
def isTick : Notice → Bool := begins "   ✓ "

/-- A cross is printed. -/
def isCross : Notice → Bool := begins "   ✕ "

/-- A mark is printed. -/
def isMark (n : Notice) : Bool := n.isTick || n.isCross

/-- That all steps passed is printed. -/
def saysPass : Notice → Bool := begins "\n PASS "

/-- That some step failed is printed. -/
def saysFail : Notice → Bool := begins "\n FAIL "

theorem isTick_eq (n : Notice) : n.isTick = decide (n.front = "   ✓ ") :=
  begins_eq (by simp [fronts]) n

theorem isCross_eq (n : Notice) : n.isCross = decide (n.front = "   ✕ ") :=
  begins_eq (by simp [fronts]) n

theorem saysPass_eq (n : Notice) : n.saysPass = decide (n.front = "\n PASS ") :=
  begins_eq (by simp [fronts]) n

theorem saysFail_eq (n : Notice) : n.saysFail = decide (n.front = "\n FAIL ") :=
  begins_eq (by simp [fronts]) n

end Notice

/-- How many check marks are printed. -/
def ticks (ns : List Notice) : Nat := ns.countP (·.isTick)

/-- How many crosses are printed. -/
def crosses (ns : List Notice) : Nat := ns.countP (·.isCross)

end Walkthrough
