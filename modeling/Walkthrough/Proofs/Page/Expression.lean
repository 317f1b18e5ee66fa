import Mathlib.Data.List.Forall2
import Walkthrough.Page.Expression
import Walkthrough.Proofs.Json.Line
/-!
# Texts inside page expressions

A resolver is called with texts of a scenario, which may hold any characters. In the
expression each of them is a string literal that ends where it ends, whatever stands
behind it (`isLiteral_toLine`), and all of it is in ASCII. So the literals are told
apart again at their commas, and an expression tells its resolver and its texts
(`expression_faithful`).
-/

namespace Walkthrough.Page

open Json

variable {texts : List String}

/-- The expression that calls a resolver with some texts. -/
def expression (r : Resolver) (texts : List String) : String := call r (texts.map .text)

-- what a step has evaluated is such an expression
example (label value : String) :
    typeByLabel label value = expression .typeByLabel [label, value] ∧
      clickByText label = expression .clickByText [label] ∧
      visibleTextExists label = expression .visibleTextExists [label] := ⟨rfl, rfl, rfl⟩

/-- **A string literal** with what it stands for: read behind its opening quote it is
this text, and the reader stops right behind it, whatever follows. -/
def IsLiteral (literal : List Char) (text : String) : Prop :=
  ∃ body, literal = '"' :: body ∧
    ∀ behind, readText (body ++ behind) = some (text.toList, behind)

/-- What stands between two literals. -/
def comma : List Char := [',', ' ']

/-- The literal for a text. -/
def literalOf (text : String) : List Char := Style.line.quoted text.toList

theorem isLiteral_literalOf (text : String) : IsLiteral (literalOf text) text := by
  refine ⟨text.toList.flatMap asciiCharacter ++ ['"'], rfl, fun behind => ?_⟩
  rw [List.append_assoc]
  exact recoverable_ascii.readText text.toList behind

/-! ## The arguments -/

/-- The arguments are literals with commas between them. -/
theorem toList_argumentText (texts : List String) :
    (argumentText (texts.map .text)).toList = comma.intercalate (texts.map literalOf) := by
  have hline (text : String) : (Value.text text).toLine.toList = literalOf text :=
    String.toList_ofList
  unfold argumentText
  rw [String.toList_intercalate, List.map_map, List.map_map]
  exact congrArg comma.intercalate (List.map_congr_left fun text _ => hline text)

/-- A literal in front of others, each with its comma. -/
theorem intercalate_literals (text : String) (texts : List String) (depth : Nat) :
    comma.intercalate ((text :: texts).map literalOf) =
      literalOf text ++ Style.line.items depth (texts.map .text) := by
  induction texts generalizing text with
  | nil => simp [Style.items]
  | cons next texts ih =>
    have hnext := ih next
    rw [List.map_cons] at hnext
    rw [List.map_cons, List.map_cons, List.intercalate_cons_cons, hnext, List.append_assoc]
    rfl

/-- **Between brackets the arguments are a list of texts.** -/
theorem toLine_texts (texts : List String) :
    (Value.texts texts).toLine = "[" ++ argumentText (texts.map .text) ++ "]" := by
  rw [← String.toList_inj, String.toList_append, String.toList_append, toList_argumentText]
  unfold Value.toLine Value.texts
  rw [String.toList_ofList]
  cases texts with
  | nil => rfl
  | cons text texts =>
    rw [intercalate_literals text texts 0]
    simp [Style.value, Style.line, literalOf]

theorem whole_texts (texts : List String) : (Value.texts texts).Whole := by
  refine .list fun v hv => ?_
  obtain ⟨text, -, rfl⟩ := List.mem_map.1 hv
  exact .text text

/-- So they are read back, -/
theorem parse?_argumentText (texts : List String) :
    Value.parse? ("[" ++ argumentText (texts.map .text) ++ "]") = some (Value.texts texts) := by
  rw [← toLine_texts]
  exact parse?_toLine (whole_texts texts)

/-- are different for different texts, -/
theorem argumentText_inj {texts' : List String}
    (h : argumentText (texts.map .text) = argumentText (texts'.map .text)) : texts = texts' := by
  have hread := parse?_argumentText texts
  rw [h, parse?_argumentText] at hread
  have hvalues : texts'.map Value.text = texts.map Value.text :=
    Value.list.inj (Option.some.inj hread)
  have htext : Function.Injective Value.text := fun _ _ heq => Value.text.inj heq
  exact (htext.list_map hvalues).symm

/-- and are in ASCII. -/
theorem inAscii_argumentText (texts : List String) :
    InAscii (argumentText (texts.map .text)).toList := by
  intro c hc
  have hline : (Value.texts texts).toLine.toList = Style.line.value 0 (Value.texts texts) :=
    String.toList_ofList
  refine (whole_texts texts).inAscii 0 c ?_
  rw [← hline, toLine_texts, String.toList_append, String.toList_append]
  exact List.mem_append_left _ (List.mem_append_right _ hc)

/-! ## The expression -/

/-- What stands in front of the name of a resolver. -/
def opening : List Char := (globalName ++ " ? " ++ globalName ++ ".").toList

/-- What stands behind its arguments. -/
def closing : List Char := (") : " ++ (Value.text scriptMissing).toLine).toList

theorem toList_expression (r : Resolver) (texts : List String) :
    (expression r texts).toList =
      opening ++ (r.name.toList ++ '(' :: ((argumentText (texts.map .text)).toList ++ closing)) := by
  unfold expression call opening closing
  simp [String.toList_append]

theorem takeWhile_name (r : Resolver) (x : List Char) :
    (r.name.toList ++ '(' :: x).takeWhile (· ≠ '(') = r.name.toList := by
  have hname : r.name.toList.all (· ≠ '(') = true := by cases r <;> decide
  rw [List.takeWhile_append_of_pos (List.all_eq_true.1 hname)]
  simp

/-- The name of a resolver ends at the parenthesis, and there is one resolver of that
name. -/
theorem name_append_inj {r' : Resolver} {x y : List Char}
    (h : r.name.toList ++ '(' :: x = r'.name.toList ++ '(' :: y) : r = r' ∧ x = y := by
  have hname : r.name.toList = r'.name.toList := by
    rw [← takeWhile_name r x, h, takeWhile_name]
  have hr : r = r' := by
    revert hname
    cases r <;> cases r' <;> decide
  subst hr
  exact ⟨rfl, (List.cons.inj (List.append_cancel_left h)).2⟩

/-- **No text breaks out of an expression.** Whatever texts a resolver is called with,
the expression is in ASCII; its arguments are literals of these texts with commas
between them, none of which ends early; read as a list they are these texts; and
different resolvers and different texts have different expressions. -/
theorem expression_faithful (r r' : Resolver) (texts texts' : List String) :
    InAscii (expression r texts).toList ∧
      (∃ literals, List.Forall₂ IsLiteral literals texts ∧
        (expression r texts).toList =
          opening ++ (r.name.toList ++ '(' :: (comma.intercalate literals ++ closing))) ∧
      Value.parse? ("[" ++ argumentText (texts.map .text) ++ "]") = some (Value.texts texts) ∧
      (expression r texts = expression r' texts' ↔ r = r' ∧ texts = texts') := by
  refine ⟨?_, ⟨texts.map literalOf, ?_, ?_⟩, parse?_argumentText texts, ?_⟩
  · have hname : InAscii r.name.toList := by cases r <;> decide
    have hclosing : InAscii closing := by decide
    rw [toList_expression]
    exact InAscii.append (by decide)
      (hname.append (.cons (by decide) ((inAscii_argumentText texts).append hclosing)))
  · rw [List.forall₂_map_left_iff, List.forall₂_same]
    exact fun text _ => isLiteral_literalOf text
  · rw [toList_expression, toList_argumentText]
  · refine ⟨fun heq => ?_, by rintro ⟨rfl, rfl⟩; rfl⟩
    rw [← String.toList_inj, toList_expression, toList_expression, List.append_cancel_left_eq] at heq
    obtain ⟨hr, hrest⟩ := name_append_inj heq
    exact ⟨hr, argumentText_inj (String.toList_inj.1 (List.append_cancel_right hrest))⟩

end Walkthrough.Page
