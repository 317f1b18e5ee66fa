import Walkthrough.Proofs.Suite.File
import Walkthrough.Proofs.Suite.Reader
import Walkthrough.Proofs.Text.Damage
/-!
# Documents with damaged bytes

The cases of a document are put together from what its lines state, titles and steps,
and from nothing else (`cases_parse`). A line feed parts what is read of a file, so
the lines above one and the lines below it state what they state, whatever bytes
stand on its other side (`damage_confined`).
-/

namespace Walkthrough.Suite

open Walkthrough.Text

/-- What a line may state: the title of a case that it opens, or a step. -/
inductive Statement where
  | title (name : String)
  | step (text : String)
deriving DecidableEq, Repr

/-- What a line states, if anything. -/
def statement? (line : List Char) : Option Statement :=
  if isMark line then some (.title (titleOf line))
  else if isBullet line then some (.step (stepOf line))
  else none

/-- **What the lines of a text state,** in order. -/
def statements (text : String) : List Statement := (lines text.toList).filterMap statement?

/-- A statement in front of the sections below it. -/
def Sections.state : Statement → Sections → Sections
  | .title name, below => ⟨[], ⟨name, below.loose⟩ :: below.cases⟩
  | .step text, below => ⟨text :: below.loose, below.cases⟩

/-- The sections of some statements. -/
def sectionsStated (stated : List Statement) : Sections := stated.foldr .state ⟨[], []⟩

/-- The cases of some statements; without a title there is one case, of all steps. -/
def casesStated (stated : List Statement) : List Case :=
  match sectionsStated stated with
  | ⟨loose, []⟩ => [⟨defaultCaseTitle, loose⟩]
  | ⟨_, cases⟩ => cases

/-! ## Cases are what the lines state -/

/-- A line that states nothing changes nothing. -/
theorem sections_eq_sectionsStated (ls : List (List Char)) :
    sections ls = sectionsStated (ls.filterMap statement?) := by
  induction ls with
  | nil => rfl
  | cons line ls ih =>
    rw [List.filterMap_cons]
    cases hmark : isMark line with
    | true =>
      rw [sections_of_isMark ls hmark, ih, statement?, if_pos hmark]
      rfl
    | false =>
      obtain ⟨hcases, hloose⟩ := sections_of_not_isMark ls hmark
      rw [ih] at hcases hloose
      rw [statement?, if_neg (by simp [hmark])]
      cases hbullet : isBullet line with
      | true =>
        rw [hbullet, if_pos rfl] at hloose
        exact congrArg₂ Sections.mk hloose hcases
      | false =>
        rw [hbullet, if_neg (by decide)] at hloose
        exact congrArg₂ Sections.mk hloose hcases

/-- **The cases of a document** are put together from what its lines state. -/
theorem cases_parse (text : String) (source : Option String) :
    (parse text source).cases = casesStated (statements text) := by
  have hsections := sections_eq_sectionsStated (lines text.toList)
  show casesOf text.toList = _
  unfold casesOf casesStated statements
  generalize sections (lines text.toList) = all at hsections ⊢
  subst hsections
  rfl

/-- An empty line states nothing, so a line feed parts what the lines above it state
from what those below do. -/
theorem statements_append_feed (above below : String) :
    statements (above ++ "\n" ++ below) = statements above ++ statements below := by
  have htext : (above ++ "\n" ++ below).toList = above.toList ++ '\n' :: below.toList := by
    simp [String.toList_append]
  unfold statements
  rw [htext, lines_append_feed, List.filterMap_append]
  congr 1
  rcases lines_feed above.toList with h | h
  · rw [h]
  · rw [h, List.filterMap_append]
    exact List.append_nil _

/-! ## Files -/

/-- **Damaged bytes stay on their own line.** A line feed parts what is read of a file,
unless it completes the line end above it: the lines on both sides state what they
state without the other side, and the cases are put together from that. And where no
byte is damaged, what is read is what was written. -/
theorem damage_confined (above below : List UInt8) (text path : String) :
    (above.getLast? ≠ some 0x0D →
      ofBytes (above ++ 0x0A :: below) = ofBytes above ++ "\n" ++ ofBytes below ∧
        statements (ofBytes (above ++ 0x0A :: below)) =
          statements (ofBytes above) ++ statements (ofBytes below) ∧
        (ofFile path (above ++ 0x0A :: below)).cases =
          casesStated (statements (ofBytes above) ++ statements (ofBytes below))) ∧
      ('\r' ∉ text.toList → ofFile path (toBytes text) = parse text (some path)) := by
  refine ⟨fun hreturn => ?_, fun hreturn => ?_⟩
  · have hread := ofBytes_append_feed hreturn below
    have hstated : statements (ofBytes (above ++ 0x0A :: below)) =
        statements (ofBytes above) ++ statements (ofBytes below) := by
      rw [hread, statements_append_feed]
    refine ⟨hread, hstated, ?_⟩
    show (parse (ofBytes (above ++ 0x0A :: below)) (some path)).cases = _
    rw [cases_parse, hstated]
  · have hread := ofBytes_endedBy .lf hreturn
    rw [endedBy_lf] at hread
    unfold ofFile
    rw [hread]

/-- Bytes that break off within a character. -/
def cutShort : List UInt8 := toBytes "case: a\n- b" ++ [0xE3, 0x81]

/-- Bytes that begin within one. -/
def cutOff : List UInt8 := 0x82 :: toBytes "\n- c"

/-- A sequence that a line feed breaks is lost on both lines, and no more is. -/
theorem damage_confined_cutShort :
    cutShort.getLast? ≠ some 0x0D ∧ '\r' ∉ "- かな".toList ∧
      ofBytes (cutShort ++ 0x0A :: cutOff) = "case: a\n- b\uFFFD" ++ "\n" ++ "\uFFFD\n- c" ∧
      statements (ofBytes (cutShort ++ 0x0A :: cutOff)) =
        [.title "a", .step "b\uFFFD"] ++ [.step "c"] ∧
      (ofFile "a.md" (cutShort ++ 0x0A :: cutOff)).cases = [⟨"a", ["b\uFFFD", "c"]⟩] ∧
      ofFile "a.md" (toBytes "- かな") = parse "- かな" (some "a.md") := by
  have hreturn : cutShort.getLast? ≠ some 0x0D := by decide
  have hplain : '\r' ∉ "- かな".toList := by decide
  have habove : ofBytes cutShort = "case: a\n- b\uFFFD" := by decide
  have hbelow : ofBytes cutOff = "\uFFFD\n- c" := by decide
  have hstated : statements "case: a\n- b\uFFFD" = [.title "a", .step "b\uFFFD"] := by decide
  have hstated' : statements "\uFFFD\n- c" = [.step "c"] := by decide
  obtain ⟨hparts, hfile⟩ := damage_confined cutShort cutOff "- かな" "a.md"
  obtain ⟨hread, hall, hcases⟩ := hparts hreturn
  rw [habove, hbelow] at hread
  rw [habove, hbelow, hstated, hstated'] at hall hcases
  exact ⟨hreturn, hplain, hread, hall, hcases, hfile hplain⟩

end Walkthrough.Suite
