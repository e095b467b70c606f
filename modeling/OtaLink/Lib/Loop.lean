import Mathlib.Data.Nat.Notation
import Mathlib.Tactic.Common

/-!
# Loops that leave or go round

The body of a `while True` looks at the state and leaves with a result, or goes round with
another state. Nothing bounds the number of passes, so that the loop leaves at all is
something to prove: `Leaves body s n r` says that it does, with the number of passes that went
round before.

## Main definitions

* `Pass` — what one pass ends with.
* `Leaves` — the loop leaves with a result.
* `exists_leaves` — it does if the body lowers a measure, and how soon.
* `Leaves.post` — what an invariant says of the result.
-/

namespace OtaLink.Lib

/-- What one pass of a loop ends with. -/
inductive Pass (σ ρ : Type*)
  | leave (result : ρ)
  | again (state : σ)

section Loop
variable {σ ρ : Type*} {body : σ → Pass σ ρ}

/-- From `s` the loop goes round `n` times and leaves with `r`. -/
inductive Leaves (body : σ → Pass σ ρ) : σ → ℕ → ρ → Prop
  | leave {s : σ} {r : ρ} (h : body s = .leave r) : Leaves body s 0 r
  | again {s s' : σ} {n : ℕ} {r : ρ} (h : body s = .again s') (hrest : Leaves body s' n r) :
      Leaves body s (n + 1) r

/-- **A loop whose body lowers a measure leaves**, and goes round no more often than the
measure allows. -/
theorem exists_leaves {f : σ → ℕ} (h : ∀ s s', body s = .again s' → f s' < f s) (s : σ) :
    ∃ n r, n ≤ f s ∧ Leaves body s n r := by
  induction hm : f s using Nat.strongRecOn generalizing s with
  | ind m ih =>
    cases hs : body s with
    | leave r => exact ⟨0, r, Nat.zero_le m, .leave hs⟩
    | again s' =>
      have hlt := h s s' hs
      obtain ⟨n, r, hn, hr⟩ := ih (f s') (by omega) s' rfl
      exact ⟨n + 1, r, by omega, .again hs hr⟩

/-- **The invariant rule.** -/
theorem Leaves.post {I : σ → Prop} {Q : ρ → Prop} {s : σ} {n : ℕ} {r : ρ}
    (h : Leaves body s n r) (hagain : ∀ s s', I s → body s = .again s' → I s')
    (hleave : ∀ s r, I s → body s = .leave r → Q r) (hs : I s) : Q r := by
  induction h with
  | leave h => exact hleave _ _ hs h
  | again h _ ih => exact ih (hagain _ _ hs h)

end Loop
end OtaLink.Lib
