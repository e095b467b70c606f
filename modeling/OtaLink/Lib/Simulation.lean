import Mathlib.Logic.Relation
import Mathlib.Tactic.Common

/-!
# Simulations

A relation between the states of two systems is a simulation if every step of the first is
matched by steps of the second, none or many, that lead to related states again. Then every run
of the first is matched by a run of the second, and simulations can be put on top of each other.

## Main definitions

* `Simulates` — a step is matched by steps.
* `Simulates.run` — a run is matched by a run.
* `Simulates.comp` — two simulations in a row are one.
-/

namespace OtaLink.Lib
open Relation

variable {γ δ ε : Type*} {step : γ → γ → Prop} {step' : δ → δ → Prop} {step'' : ε → ε → Prop}
  {R : γ → δ → Prop} {R' : δ → ε → Prop}

/-- Every step from `c` is matched by steps from what `c` stands for. -/
def Simulates (R : γ → δ → Prop) (step : γ → γ → Prop) (step' : δ → δ → Prop) : Prop :=
  ∀ c c' d, R c d → step c c' → ∃ d', ReflTransGen step' d d' ∧ R c' d'

/-- **A run is matched by a run.** -/
theorem Simulates.run (h : Simulates R step step') {c c' : γ} {d : δ} (hR : R c d)
    (hrun : ReflTransGen step c c') : ∃ d', ReflTransGen step' d d' ∧ R c' d' := by
  induction hrun with
  | refl => exact ⟨d, .refl, hR⟩
  | tail _ hstep ih =>
    obtain ⟨d₁, hd₁, hR₁⟩ := ih
    obtain ⟨d₂, hd₂, hR₂⟩ := h _ _ _ hR₁ hstep
    exact ⟨d₂, hd₁.trans hd₂, hR₂⟩

/-- **Simulations compose.** -/
theorem Simulates.comp (h : Simulates R step step') (h' : Simulates R' step' step'') :
    Simulates (Relation.Comp R R') step step'' := by
  rintro c c' e ⟨d, hR, hR'⟩ hstep
  obtain ⟨d', hd', hR⟩ := h _ _ _ hR hstep
  obtain ⟨e', he', hR'⟩ := h'.run hR' hd'
  exact ⟨e', he', d', hR, hR'⟩

end OtaLink.Lib
