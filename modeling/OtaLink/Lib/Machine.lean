import Mathlib.Algebra.GroupWithZero.Nat
import Mathlib.Data.List.Basic
import Mathlib.Tactic.Common

/-!
# Runs of a system that may fault

A system takes inputs one after another. Each either faults, and with it the whole run, or
leads to a new state and reports events. An invariant of the state and of all that has been
reported is shown for one input at a time.

A simulation relates the states of two systems, where the second may take no input, one or
many for an input of the first; which they are may depend on the state.

## Main definitions

* `runFrom` — the state and the events after a list of inputs.
* `runFrom_induction` — an invariant of every input holds after a run, which has no fault.
* `runFrom_amortised` — the cost of a run is what its inputs pay for.
* `runFrom_simulates` — what an input matches, a run matches.
-/

namespace OtaLink.Lib

variable {σ τ ι κ ε δ : Type}

/-- The state and the events after the inputs, none at a fault. -/
def runFrom (step : σ → ι → Option (σ × List ε)) (s : σ) : List ι → Option (σ × List ε)
  | [] => some (s, [])
  | x :: xs => do
    let (s, events) ← step s x
    let (s, rest) ← runFrom step s xs
    return (s, events ++ rest)

section Run
variable {step : σ → ι → Option (σ × List ε)}

@[simp] theorem runFrom_nil (s : σ) : runFrom step s [] = some (s, []) := rfl

theorem runFrom_cons {s s' : σ} {x : ι} {events : List ε} (h : step s x = some (s', events))
    (xs : List ι) :
    runFrom step s (x :: xs) = (runFrom step s' xs).map fun r => (r.1, events ++ r.2) := by
  simp only [runFrom, h, Option.bind_eq_bind, Option.bind_some, Option.pure_def]
  cases runFrom step s' xs <;> rfl

theorem runFrom_append {s s' : σ} {xs : List ι} {events : List ε}
    (h : runFrom step s xs = some (s', events)) (ys : List ι) :
    runFrom step s (xs ++ ys) = (runFrom step s' ys).map fun r => (r.1, events ++ r.2) := by
  induction xs generalizing s events with
  | nil =>
    obtain ⟨rfl, rfl⟩ := Prod.mk.inj (Option.some.inj h)
    simp
  | cons x xs ih =>
    cases hx : step s x with
    | none => simp [runFrom, hx] at h
    | some r =>
      obtain ⟨s₁, first⟩ := r
      rw [runFrom_cons hx] at h
      obtain ⟨⟨s₂, rest⟩, hrest, hr⟩ := Option.map_eq_some_iff.mp h
      obtain ⟨rfl, rfl⟩ := Prod.mk.inj hr
      rw [List.cons_append, runFrom_cons hx, ih hrest]
      cases runFrom step s₂ ys <;> simp

/-- A system without faults and events folds its inputs. -/
theorem runFrom_silent (next : σ → ι → σ) (s : σ) (xs : List ι) :
    runFrom (fun s x => some (next s x, ([] : List ε))) s xs = some (xs.foldl next s, []) := by
  induction xs generalizing s with
  | nil => rfl
  | cons x xs ih => simp [runFrom, ih]

/-- **The run rule.** What every input keeps without a fault holds after a run. -/
theorem runFrom_induction {I : σ → List ε → Prop} {xs : List ι}
    (hstep : ∀ s events, ∀ x ∈ xs, I s events →
      ∃ s' new, step s x = some (s', new) ∧ I s' (events ++ new)) {s : σ} {events : List ε}
    (h : I s events) : ∃ s' new, runFrom step s xs = some (s', new) ∧ I s' (events ++ new) := by
  induction xs generalizing s events with
  | nil => exact ⟨s, [], rfl, by rwa [List.append_nil]⟩
  | cons x xs ih =>
    obtain ⟨s₁, first, hx, h₁⟩ := hstep s events x List.mem_cons_self h
    obtain ⟨s₂, rest, hrest, h₂⟩ :=
      ih (fun s events y hy => hstep s events y (List.mem_cons_of_mem x hy)) h₁
    refine ⟨s₂, first ++ rest, ?_, ?_⟩
    · rw [runFrom_cons hx, hrest]
      rfl
    · rwa [← List.append_assoc]

/-- **The rule of accounts.** Where each input pays for the events of a kind that it causes,
out of what it brings and what the state has saved, so does a run. -/
theorem runFrom_amortised {I : σ → Prop} {saved : σ → ℕ} {p : ε → Bool} {brings : ι → ℕ}
    (hstep : ∀ s x, I s → ∃ s' new, step s x = some (s', new) ∧ I s' ∧
      new.countP p + saved s' ≤ brings x + saved s) (xs : List ι) {s : σ} (h : I s) :
    ∃ s' new, runFrom step s xs = some (s', new) ∧ I s' ∧
      new.countP p + saved s' ≤ (xs.map brings).sum + saved s := by
  induction xs generalizing s with
  | nil => exact ⟨s, [], rfl, h, by simp⟩
  | cons x xs ih =>
    obtain ⟨s₁, first, hx, h₁, hpaid⟩ := hstep s x h
    obtain ⟨s₂, rest, hrest, h₂, hpaid'⟩ := ih h₁
    refine ⟨s₂, first ++ rest, ?_, h₂, ?_⟩
    · rw [runFrom_cons hx, hrest]
      rfl
    · rw [List.countP_append, List.map_cons, List.sum_cons]
      omega

end Run

/-! ## Simulation -/

/-- The inputs of the second system that match a list of inputs of the first. -/
def matching (step : σ → ι → Option (σ × List ε)) (inputs : σ → ι → List κ) (s : σ) :
    List ι → List κ
  | [] => []
  | x :: xs => inputs s x ++
    match step s x with
    | none => []
    | some r => matching step inputs r.1 xs

/-- **A run is matched by a run**, with the events that `view` shows. -/
theorem runFrom_simulates {step : σ → ι → Option (σ × List ε)}
    {step' : τ → κ → Option (τ × List δ)} {R : σ → τ → Prop} {inputs : σ → ι → List κ}
    {view : ε → Option δ} {xs : List ι}
    (hstep : ∀ s t, ∀ x ∈ xs, R s t → ∃ s' t' events, step s x = some (s', events) ∧
      runFrom step' t (inputs s x) = some (t', events.filterMap view) ∧ R s' t')
    {s : σ} {t : τ} (h : R s t) :
    ∃ s' t' events, runFrom step s xs = some (s', events) ∧
      runFrom step' t (matching step inputs s xs) = some (t', events.filterMap view) ∧
      R s' t' := by
  induction xs generalizing s t with
  | nil => exact ⟨s, t, [], rfl, rfl, h⟩
  | cons x xs ih =>
    obtain ⟨s₁, t₁, first, hx, hx', h₁⟩ := hstep s t x List.mem_cons_self h
    obtain ⟨s₂, t₂, rest, hrest, hrest', h₂⟩ :=
      ih (fun s t y hy => hstep s t y (List.mem_cons_of_mem x hy)) h₁
    refine ⟨s₂, t₂, first ++ rest, ?_, ?_, h₂⟩
    · rw [runFrom_cons hx, hrest]
      rfl
    · simp only [matching, hx]
      rw [runFrom_append hx', hrest', List.filterMap_append]
      rfl

end OtaLink.Lib
