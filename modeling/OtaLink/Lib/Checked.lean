import OtaLink.Lib.Routine

/-!
# Routines that stop at a faulty access

A `Checked σ ε α` is a routine in which an access to an array may have no result. Where
one has none, the whole computation has none.

`Realizes` compares it with a routine over an abstract state: from related states it has a
result, reports what the routine logs, and leaves related states and results. A program
over arrays that realizes a routine over lists makes no faulty access.

## Main definitions

* `Checked` — computations with faults.
* `Checked.Realizes` — realization up to a relation of the states, with a rule for each
  way of building a computation.
-/

namespace OtaLink.Lib

/-- A stateful computation with a log of external events, which may fault. -/
structure Checked (σ ε α : Type) where
  run : σ → Option (α × σ × List ε)

namespace Checked
variable {σ τ υ ω δ ε α β γ θ : Type}

/-- Run `f` on the result of a computation, and put its log behind the one there is. -/
def andThen (r : Option (α × σ × List ε)) (f : α → σ → Option (β × σ × List ε)) :
    Option (β × σ × List ε) :=
  r.bind fun x => (f x.1 x.2.1).map fun y => (y.1, y.2.1, x.2.2 ++ y.2.2)

instance : Monad (Checked σ ε) where
  pure a := ⟨fun s => some (a, s, [])⟩
  bind x f := ⟨fun s => andThen (x.run s) fun a s => (f a).run s⟩

/-- The current state. -/
def get : Checked σ ε σ := ⟨fun s => some (s, s, [])⟩
/-- Replace the state by the result of an access. -/
def update (f : σ → Option σ) : Checked σ ε Unit := ⟨fun s => (f s).map fun s => ((), s, [])⟩
/-- Cause one external event. -/
def emit (e : ε) : Checked σ ε Unit := ⟨fun s => some ((), s, [e])⟩
/-- The result of an access. -/
def access (a : Option α) : Checked σ ε α := ⟨fun s => a.map fun a => (a, s, [])⟩
/-- Run a computation on a part of a larger state. -/
def on (part : τ → σ) (put : τ → σ → τ) (x : Checked σ ε α) : Checked τ ε α :=
  ⟨fun t => (x.run (part t)).map fun r => (r.1, put t r.2.1, r.2.2)⟩

section Run
variable (s : σ)

theorem run_bind (x : Checked σ ε α) (f : α → Checked σ ε β) :
    (x >>= f).run s = andThen (x.run s) fun a s => (f a).run s := rfl
@[simp] theorem run_pure (a : α) : (pure a : Checked σ ε α).run s = some (a, s, []) := rfl
@[simp] theorem run_get_bind (f : σ → Checked σ ε β) :
    ((get : Checked σ ε σ) >>= f).run s = (f s).run s := by
  rw [run_bind]
  cases h : (f s).run s <;> simp [get, andThen, h]
@[simp] theorem run_access_bind (o : Option α) (f : α → Checked σ ε β) :
    ((access o : Checked σ ε α) >>= f).run s = o.bind fun a => (f a).run s := by
  rcases o with _ | a
  · rfl
  · change andThen (some (a, s, [])) (fun a s => (f a).run s) = _
    cases h : (f a).run s <;> simp [andThen, h]

@[simp] theorem run_update_bind (f : σ → Option σ) (g : Unit → Checked σ ε β) :
    (update f >>= g).run s = (f s).bind fun s => (g ()).run s := by
  change andThen ((f s).map fun s => ((), s, [])) (fun a s => (g a).run s) = _
  rcases f s with _ | s'
  · rfl
  · cases h : (g ()).run s' <;> simp [andThen, h]

@[simp] theorem run_emit (e : ε) : (emit e : Checked σ ε Unit).run s = some ((), s, [e]) := rfl

@[simp] theorem run_emit_bind (e : ε) (f : Unit → Checked σ ε β) :
    (emit e >>= f).run s = ((f ()).run s).map fun y => (y.1, y.2.1, e :: y.2.2) := rfl

/-- A computation after one whose run is known. -/
theorem run_bind_of_eq {x : Checked σ ε α} {f : α → Checked σ ε β} {a : α} {s s' : σ}
    {es : List ε} (h : x.run s = some (a, s', es)) :
    (x >>= f).run s = ((f a).run s').map fun y => (y.1, y.2.1, es ++ y.2.2) := by
  rw [run_bind, h]
  rfl

end Run

/-! ## Realization -/

/-- From related states `x` has a result, reports what `y` logs and `view` shows, and
leaves related states and results. -/
def Realizes (view : δ → Option ε) (R : σ → τ → Prop) (Q : α → β → Prop) (x : Checked σ ε α)
    (y : Routine τ δ β) : Prop :=
  ∀ s t, R s t → ∃ a s', x.run s = some (a, s', (y.log t).filterMap view) ∧ R s' (y.state t) ∧
    Q a (y.val t)

namespace Realizes
variable {view : δ → Option ε} {R : σ → τ → Prop} {Q : α → β → Prop} {Q' : γ → θ → Prop}

theorem pure {a : α} {b : β} (h : Q a b) :
    Realizes view R Q (Pure.pure a) (Pure.pure b : Routine τ δ β) :=
  fun s _ hR => ⟨a, s, rfl, hR, h⟩

theorem get : Realizes view R R Checked.get (Routine.get : Routine τ δ τ) :=
  fun s _ hR => ⟨s, s, rfl, hR, hR⟩

theorem emit {e : δ} {e' : ε} (h : view e = some e') :
    Realizes view R (fun _ _ => True) (Checked.emit e') (Routine.emit e) := by
  intro s t hR
  refine ⟨(), s, ?_, hR, trivial⟩
  rw [Routine.log_emit, List.filterMap_cons_some h]
  rfl

/-- An event that is not shown. -/
theorem skip {e : δ} (h : view e = none) {x : Checked σ ε γ} {g : Unit → Routine τ δ θ}
    (hx : Realizes view R Q' x (g ())) : Realizes view R Q' x (Routine.emit e >>= g) := by
  intro s t hR
  obtain ⟨c, s', hrun, hR', hQ'⟩ := hx s t hR
  refine ⟨c, s', ?_, hR', hQ'⟩
  rw [Routine.log_bind, Routine.log_emit, List.filterMap_append, List.filterMap_cons_none h]
  exact hrun

/-- A computation that only looks at the state it is given. -/
theorem eval {x : Checked σ ε α} {a : α} (hx : ∀ s, x.run s = some (a, s, []))
    {f : α → Checked σ ε γ} {y : Routine τ δ θ} (h : Realizes view R Q' (f a) y) :
    Realizes view R Q' (x >>= f) y := by
  intro s t hR
  obtain ⟨c, s', hrun, hR', hQ'⟩ := h s t hR
  refine ⟨c, s', ?_, hR', hQ'⟩
  rw [run_bind_of_eq (hx s), hrun]
  rfl

/-- **The rule of sequencing.** -/
theorem bind {x : Checked σ ε α} {y : Routine τ δ β} {f : α → Checked σ ε γ}
    {g : β → Routine τ δ θ} (hx : Realizes view R Q x y)
    (hf : ∀ a b, Q a b → Realizes view R Q' (f a) (g b)) :
    Realizes view R Q' (x >>= f) (y >>= g) := by
  intro s t hR
  obtain ⟨a, s₁, h₁, hR₁, hQ⟩ := hx s t hR
  obtain ⟨c, s₂, h₂, hR₂, hQ'⟩ := hf a _ hQ s₁ _ hR₁
  refine ⟨c, s₂, ?_, hR₂, hQ'⟩
  rw [run_bind_of_eq h₁, h₂, Routine.log_bind, List.filterMap_append]
  rfl

theorem ite {c d : Prop} [Decidable c] [Decidable d] {x x' : Checked σ ε α}
    {y y' : Routine τ δ β} (hcd : c ↔ d) (hx : d → Realizes view R Q x y)
    (hx' : ¬ d → Realizes view R Q x' y') :
    Realizes view R Q (if c then x else x') (if d then y else y') := by
  by_cases hd : d
  · rw [if_pos (hcd.mpr hd), if_pos hd]
    exact hx hd
  · rw [if_neg (fun hc => hd (hcd.mp hc)), if_neg hd]
    exact hx' hd

/-- A computation on a part realizes a routine on a part. -/
theorem on {S : υ → ω → Prop} {part : υ → σ} {put : υ → σ → υ} {part' : ω → τ}
    {put' : ω → τ → ω} (hpart : ∀ u w, S u w → R (part u) (part' w))
    (hput : ∀ u w s t, S u w → R s t → S (put u s) (put' w t)) {x : Checked σ ε α}
    {y : Routine τ δ β} (h : Realizes view R Q x y) :
    Realizes view S Q (Checked.on part put x) (Routine.on part' put' y) := by
  intro u w hS
  obtain ⟨a, s', hrun, hR, hQ⟩ := h _ _ (hpart u w hS)
  refine ⟨a, put u s', ?_, hput u w _ _ hS hR, hQ⟩
  change Option.map _ (x.run (part u)) = _
  rw [hrun]
  rfl

end Realizes
end Checked
end OtaLink.Lib
