import Mathlib.Logic.Relation
import Mathlib.Tactic.Common

/-!
# What every run comes to

A condition is inevitable from a state if it holds there, or if the system can take a step and is,
after every step that it can take, where the condition is inevitable. So no run gets stuck before
the condition holds, and none goes on for ever without it.

## Main definitions

* `Inevitable` — every run comes to a state with this condition.
* `Inevitable.exists_run` — some run does.
-/

namespace OtaLink.Lib
open Relation

variable {α : Type*} {step : α → α → Prop} {Q : α → Prop}

/-- Every run from a state comes to `Q`. -/
inductive Inevitable (step : α → α → Prop) (Q : α → Prop) : α → Prop
  | now {a} (h : Q a) : Inevitable step Q a
  | later {a b} (hb : step a b) (h : ∀ b, step a b → Inevitable step Q b) : Inevitable step Q a

/-- Some run comes to it. -/
theorem Inevitable.exists_run {a : α} (h : Inevitable step Q a) :
    ∃ b, ReflTransGen step a b ∧ Q b := by
  induction h with
  | now h => exact ⟨_, .refl, h⟩
  | later hb _ ih =>
    obtain ⟨c, hc, hQ⟩ := ih _ hb
    exact ⟨c, .head hb hc, hQ⟩

end OtaLink.Lib
