import Walkthrough.Proofs.Session.Call
/-!
# Calls on which a step hangs

Of all the calls of a run only those of the page script and of its resolvers
are primary: whatever else is asked can be answered in any way. `Agree` says
of two lists of exchanges that the primary calls in them were answered alike,
place by place; it passes to the front parts of the lists, and to what follows
them where these hold as many primary calls (`Agree.front`, `Agree.back`).
-/

namespace Walkthrough

/-- How the function starts that calls a resolver of the page script. -/
def Page.callOpening (r : Page.Resolver) : List Char :=
  ("() => (" ++ Page.globalName ++ " ? " ++ Page.globalName ++ "." ++ r.name ++ "(").toList

/-- The code is that of the page script, or of a call of a resolver on which a
step hangs. -/
def Page.isPrimary (code : String) : Bool :=
  code = Page.statementFunction Page.script ||
    [Page.Resolver.typeByLabel, .clickByText, .visibleTextExists].any fun r =>
      (Page.callOpening r).isPrefixOf code.toList

/-- **The calls on which a step hangs.** -/
def Request.isPrimary : Request → Bool
  | .call tool [(name, .text code)] =>
    tool = Session.evaluateTool && name = "function" && Page.isPrimary code
  | _ => false

/-- The primary calls among some exchanges, with their answers. -/
def primaries (es : List Exchange) : List Exchange := es.filter (·.1.isPrimary)

/-- Two answers say the same, with as much room to read them, however long they
took. -/
structure Answer.Alike (a b : Answer) : Prop where
  outcome : a.outcome = b.outcome
  room : a.room = b.room

/-- **Two lists of exchanges agree** if their primary calls were answered alike,
place by place, as far as both go. -/
def Agree (es fs : List Exchange) : Prop :=
  ∀ (k : Nat) (a b : Exchange), (primaries es)[k]? = some a → (primaries fs)[k]? = some b →
    a.2.Alike b.2

theorem primaries_append (es fs : List Exchange) :
    primaries (es ++ fs) = primaries es ++ primaries fs := List.filter_append ..

theorem Agree.front {es₁ es₂ fs₁ fs₂ : List Exchange} (h : Agree (es₁ ++ es₂) (fs₁ ++ fs₂)) :
    Agree es₁ fs₁ := by
  intro k a b ha hb
  refine h k a b ?_ ?_
  · rw [primaries_append, List.getElem?_append_left (List.getElem?_eq_some_iff.1 ha).1, ha]
  · rw [primaries_append, List.getElem?_append_left (List.getElem?_eq_some_iff.1 hb).1, hb]

theorem Agree.back {es₁ es₂ fs₁ fs₂ : List Exchange} (h : Agree (es₁ ++ es₂) (fs₁ ++ fs₂))
    (hlen : (primaries es₁).length = (primaries fs₁).length) : Agree es₂ fs₂ := by
  intro k a b ha hb
  refine h ((primaries es₁).length + k) a b ?_ ?_
  · rw [primaries_append, List.getElem?_append_right (by omega), Nat.add_sub_cancel_left, ha]
  · rw [primaries_append, hlen, List.getElem?_append_right (by omega), Nat.add_sub_cancel_left, hb]

/-! ## Which calls are primary -/

theorem isPrimary_script :
    (Request.call Session.evaluateTool
      [("function", .text (Page.statementFunction Page.script))]).isPrimary = true := by
  simp [Request.isPrimary, Page.isPrimary]

/-- A call of a resolver starts as such calls do. -/
theorem callOpening_isPrefix (r : Page.Resolver) (args : List Json.Value) :
    Page.callOpening r <+: (Page.expressionFunction (Page.call r args)).toList := by
  unfold Page.callOpening Page.expressionFunction Page.call
  simp only [String.toList_append, List.append_assoc, List.prefix_append_right_inj]
  exact List.prefix_append _ _

theorem isPrimary_call {r : Page.Resolver} (hr : r ≠ .clickTier) (args : List Json.Value) :
    (Request.call Session.evaluateTool
      [("function", .text (Page.expressionFunction (Page.call r args)))]).isPrimary = true := by
  have hp := List.isPrefixOf_iff_prefix.2 (callOpening_isPrefix r args)
  have hcode : Page.isPrimary (Page.expressionFunction (Page.call r args)) = true := by
    unfold Page.isPrimary
    cases r <;> simp_all
  simp [Request.isPrimary, hcode]

/-- A resolver on which a step hangs is called by a primary call. -/
theorem Resolves.isPrimary {e : Exchange} (h : Resolves e) : e.1.isPrimary = true := by
  obtain ⟨r, args, hr, hcall⟩ := h
  rw [hcall]
  exact isPrimary_call hr args

theorem isPrimary_hasText :
    (Request.call Session.evaluateTool
      [("function", .text (Page.expressionFunction Page.hasText))]).isPrimary = false := by
  decide +kernel

theorem isPrimary_markup :
    (Request.call Session.evaluateTool
      [("function", .text (Page.expressionFunction Page.markup))]).isPrimary = false := by
  decide +kernel

theorem isPrimary_of_ne {tool : String} {args : Arguments} (h : tool ≠ Session.evaluateTool) :
    (Request.call tool args).isPrimary = false := by
  unfold Request.isPrimary
  split
  · next heq =>
    cases heq
    simp [h]
  · rfl

end Walkthrough
