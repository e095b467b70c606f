import Mathlib.Tactic.Common

/-!
# Routines over a state that log what they do

A `Routine σ ε α` reads and replaces a state `σ`, returns an `α`, and logs the
events `ε` it causes outside its state. The three views `val`, `state` and `log`
are what a specification of a routine speaks about; their equations on sequencing
unfold a routine without exposing the triple underneath.
-/

namespace OtaLink.Lib

/-- A stateful computation with a log of external events. -/
structure Routine (σ ε α : Type) where
  run : σ → α × σ × List ε

namespace Routine
variable {σ τ ε α β : Type}

/-- The result. -/
def val (x : Routine σ ε α) (s : σ) : α := (x.run s).1
/-- The state afterwards. -/
def state (x : Routine σ ε α) (s : σ) : σ := (x.run s).2.1
/-- The events caused, in order. -/
def log (x : Routine σ ε α) (s : σ) : List ε := (x.run s).2.2

instance : Monad (Routine σ ε) where
  pure a := ⟨fun s => (a, s, [])⟩
  bind x f := ⟨fun s => ((f (x.val s)).val (x.state s), (f (x.val s)).state (x.state s),
    x.log s ++ (f (x.val s)).log (x.state s))⟩

/-- The current state. -/
def get : Routine σ ε σ := ⟨fun s => (s, s, [])⟩
/-- Replace the state. -/
def modify (f : σ → σ) : Routine σ ε Unit := ⟨fun s => ((), f s, [])⟩
/-- Cause one external event. -/
def emit (e : ε) : Routine σ ε Unit := ⟨fun s => ((), s, [e])⟩
/-- Run a routine on a part of a larger state. -/
def on (part : τ → σ) (put : τ → σ → τ) (x : Routine σ ε α) : Routine τ ε α :=
  ⟨fun t => (x.val (part t), put t (x.state (part t)), x.log (part t))⟩

@[simp] theorem val_pure (a : α) (s : σ) : (pure a : Routine σ ε α).val s = a := rfl
@[simp] theorem state_pure (a : α) (s : σ) : (pure a : Routine σ ε α).state s = s := rfl
@[simp] theorem log_pure (a : α) (s : σ) : (pure a : Routine σ ε α).log s = [] := rfl

@[simp] theorem val_bind (x : Routine σ ε α) (f : α → Routine σ ε β) (s : σ) :
    (x >>= f).val s = (f (x.val s)).val (x.state s) := rfl
@[simp] theorem state_bind (x : Routine σ ε α) (f : α → Routine σ ε β) (s : σ) :
    (x >>= f).state s = (f (x.val s)).state (x.state s) := rfl
@[simp] theorem log_bind (x : Routine σ ε α) (f : α → Routine σ ε β) (s : σ) :
    (x >>= f).log s = x.log s ++ (f (x.val s)).log (x.state s) := rfl

@[simp] theorem val_get (s : σ) : (get : Routine σ ε σ).val s = s := rfl
@[simp] theorem state_get (s : σ) : (get : Routine σ ε σ).state s = s := rfl
@[simp] theorem log_get (s : σ) : (get : Routine σ ε σ).log s = [] := rfl

@[simp] theorem state_modify (f : σ → σ) (s : σ) :
    (modify f : Routine σ ε Unit).state s = f s := rfl
@[simp] theorem log_modify (f : σ → σ) (s : σ) : (modify f : Routine σ ε Unit).log s = [] := rfl

@[simp] theorem state_emit (e : ε) (s : σ) : (emit e : Routine σ ε Unit).state s = s := rfl
@[simp] theorem log_emit (e : ε) (s : σ) : (emit e : Routine σ ε Unit).log s = [e] := rfl

section On
variable (part : τ → σ) (put : τ → σ → τ) (x : Routine σ ε α) (t : τ)

@[simp] theorem val_on : (on part put x).val t = x.val (part t) := rfl
@[simp] theorem state_on : (on part put x).state t = put t (x.state (part t)) := rfl
@[simp] theorem log_on : (on part put x).log t = x.log (part t) := rfl

end On

section Ite
variable (c : Prop) [Decidable c] (x y : Routine σ ε α) (s : σ)

@[simp] theorem val_ite : (if c then x else y).val s = if c then x.val s else y.val s := by
  split <;> rfl
@[simp] theorem state_ite :
    (if c then x else y).state s = if c then x.state s else y.state s := by
  split <;> rfl
@[simp] theorem log_ite : (if c then x else y).log s = if c then x.log s else y.log s := by
  split <;> rfl

end Ite
end Routine
end OtaLink.Lib
