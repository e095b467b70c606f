import OtaLink.Lib.Interaction

/-!
# Where a program can end

What holds of every end of a program is read off the program alone, and so it holds whatever
the program is answered. For tasks it says which exceptions can escape.

## Main definitions

* `Prog.Ends`, `Task.Ends` — every end of a program satisfies a condition.
* `Prog.Ends.step` — it still does after any step.
-/

namespace OtaLink.Lib

variable {Q : Type} {A : Q → Type} {M σ α β : Type}

/-- Every end of the program satisfies `R`. -/
def Prog.Ends (R : α → Prop) : Prog Q A M α → Prop
  | .ret a => R a
  | .ask _ k => ∀ a, (k a).Ends R
  | .send _ p => p.Ends R
  | .recv _ k => ∀ r, (k r).Ends R

theorem Prog.Ends.mono {R S : α → Prop} (hRS : ∀ a, R a → S a) :
    ∀ {p : Prog Q A M α}, p.Ends R → p.Ends S := by
  intro p
  induction p with
  | ret a => exact hRS a
  | ask q k ih => exact fun h a => ih a (h a)
  | send m p ih => exact ih
  | recv accept k ih => exact fun h r => ih r (h r)

theorem Prog.Ends.bind {R : α → Prop} {S : β → Prop} {f : α → Prog Q A M β}
    (hf : ∀ a, R a → (f a).Ends S) : ∀ {p : Prog Q A M α}, p.Ends R → (p.bind f).Ends S := by
  intro p
  induction p with
  | ret a => exact hf a
  | ask q k ih => exact fun h a => ih a (h a)
  | send m p ih => exact ih
  | recv accept k ih => exact fun h r => ih r (h r)

theorem Prog.Ends.step {E : Env Q A M σ} {R : α → Prop} {p p' : Prog Q A M α} {s s' : σ}
    (h : p.Ends R) (hs : E.Step (p, s) (p', s')) : p'.Ends R := by
  cases hs with
  | rely => exact h
  | ask => exact h _
  | send => exact h
  | recv => exact h _

namespace Task
variable {τ ε ε' : Type}

/-- The task returns an `Ok` or raises an `Err`. -/
def Ends (x : Task Q A M τ ε α) (Ok : α → Prop) (Err : ε → Prop) : Prop :=
  ∀ t, (x t).Ends fun r => match r.1 with
    | .ok a => Ok a
    | .error e => Err e

namespace Ends
variable {x y : Task Q A M τ ε α} {Ok : α → Prop} {Err : ε → Prop}

theorem pure {a : α} (h : Ok a) : (pure a : Task Q A M τ ε α).Ends Ok Err := fun _ => h
theorem raise {e : ε} (h : Err e) : (raise e : Task Q A M τ ε α).Ends Ok Err := fun _ => h
theorem read : (read : Task Q A M τ ε τ).Ends (fun _ => True) Err := fun _ => trivial
theorem update (f : τ → τ) : (update f : Task Q A M τ ε Unit).Ends (fun _ => True) Err :=
  fun _ => trivial
theorem ask (q : Q) : (ask q : Task Q A M τ ε (A q)).Ends (fun _ => True) Err :=
  fun _ _ => trivial

theorem bind {f : α → Task Q A M τ ε β} {R : β → Prop} (hx : x.Ends Ok Err)
    (hf : ∀ a, Ok a → (f a).Ends R Err) : (x >>= f).Ends R Err := by
  refine fun t => Prog.Ends.bind ?_ (hx t)
  rintro ⟨r, u⟩ h
  cases r with
  | ok a => exact hf a h u
  | error e => exact h

theorem recover {f : ε → Task Q A M τ ε' α} {Err' : ε' → Prop} (hx : x.Ends Ok Err)
    (hf : ∀ e, Err e → (f e).Ends Ok Err') : (x.recover f).Ends Ok Err' := by
  refine fun t => Prog.Ends.bind ?_ (hx t)
  rintro ⟨r, u⟩ h
  cases r with
  | ok a => exact h
  | error e => exact hf e h u

theorem handle {f : ε → Task Q A M τ ε α} {Err' : ε → Prop} (hx : x.Ends Ok Err)
    (hf : ∀ e, Err e → (f e).Ends Ok Err') : (x.handle f).Ends Ok Err' := recover hx hf

theorem mono {Ok' : α → Prop} {Err' : ε → Prop} (h : x.Ends Ok Err) (hOk : ∀ a, Ok a → Ok' a)
    (hErr : ∀ e, Err e → Err' e) : x.Ends Ok' Err' := by
  refine fun t => Prog.Ends.mono ?_ (h t)
  rintro ⟨r, u⟩ h
  cases r with
  | ok a => exact hOk a h
  | error e => exact hErr e h

theorem ite {c : Prop} [Decidable c] (hx : c → x.Ends Ok Err) (hy : ¬c → y.Ends Ok Err) :
    (if c then x else y).Ends Ok Err := by
  split
  · exact hx ‹_›
  · exact hy ‹_›

theorem exchange (a : M) (accept : M → Bool) (n : ℕ) :
    (exchange a accept n : Task Q A M τ ε (Option M)).Ends (fun _ => True) Err := by
  induction n with
  | zero => exact pure trivial
  | succ n ih =>
    have hone : (transmit a accept : Task Q A M τ ε (Option M)).Ends (fun _ => True) Err :=
      fun _ _ => trivial
    refine hone.bind fun r _ => ?_
    cases r with
    | none => exact ih
    | some r => exact pure trivial

end Ends
end Task
end OtaLink.Lib
