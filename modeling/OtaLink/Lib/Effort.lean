import OtaLink.Lib.Trace

/-!
# How much a program sends

A bound on the messages of a program that holds whatever it is answered: it is read off the
program alone, adds up under sequencing, and bounds every execution in every environment.

## Main definitions

* `Prog.Sends`, `Task.Sends` — a program sends at most so many messages.
* `Prog.Sends.reaches` — the bound holds of every execution.
-/

namespace OtaLink.Lib

variable {Q : Type} {A : Q → Type} {M σ α β : Type}

/-- The program sends at most `n` messages. -/
def Prog.Sends : Prog Q A M α → ℕ → Prop
  | .ret _, _ => True
  | .ask _ k, n => ∀ a, (k a).Sends n
  | .send _ p, n => 0 < n ∧ p.Sends (n - 1)
  | .recv _ k, n => ∀ r, (k r).Sends n

theorem Prog.Sends.mono : ∀ {p : Prog Q A M α} {n m : ℕ}, p.Sends n → n ≤ m → p.Sends m := by
  intro p
  induction p with
  | ret => exact fun _ _ => trivial
  | ask q k ih => exact fun h hle a => ih a (h a) hle
  | send m p ih => exact fun h hle => ⟨by have := h.1; omega, ih h.2 (by omega)⟩
  | recv accept k ih => exact fun h hle r => ih r (h r) hle

/-- **What one program sends after another** adds up. -/
theorem Prog.Sends.bind {f : α → Prog Q A M β} {m : ℕ} (hf : ∀ a, (f a).Sends m) :
    ∀ {p : Prog Q A M α} {n : ℕ}, p.Sends n → (p.bind f).Sends (n + m) := by
  intro p
  induction p with
  | ret a => exact fun _ => (hf a).mono (by omega)
  | ask q k ih => exact fun h a => ih a (h a)
  | send x p ih =>
    intro n h
    have hpos := h.1
    refine ⟨by omega, ?_⟩
    rw [show n + m - 1 = n - 1 + m by omega]
    exact ih h.2
  | recv accept k ih => exact fun h r => ih r (h r)

/-! ## Every execution -/

/-- A step uses up what it sends. -/
theorem Prog.Sends.step {E : Env Q A M σ} {p p' : Prog Q A M α} {s s' : σ × List (Spoken M)}
    {n : ℕ} (h : p.Sends n) (hs : E.traced.Step (p, s) (p', s')) :
    ∃ m, p'.Sends m ∧ (sentIn s'.2).length + m ≤ (sentIn s.2).length + n := by
  cases hs with
  | rely hr => exact ⟨n, h, by simp [hr.2]⟩
  | ask ha => exact ⟨n, h _, by simp [ha.2]⟩
  | send hm =>
    have hpos := h.1
    refine ⟨n - 1, h.2, ?_⟩
    rw [hm.2, sentIn_append, List.length_append, sentIn_sent, List.length_singleton]
    omega
  | recv hr => exact ⟨n, h _, by simp [hr.2]⟩

/-- **The bound holds of every execution**, at its end and on the way. -/
theorem Prog.Sends.reaches {E : Env Q A M σ} {p p' : Prog Q A M α} {s s' : σ}
    {trace : List (Spoken M)} {n : ℕ} (h : p.Sends n)
    (hr : E.traced.Reaches (p, s, []) (p', s', trace)) : (sentIn trace).length ≤ n := by
  suffices ∀ c, E.traced.Reaches (p, s, []) c →
      ∃ m, c.1.Sends m ∧ (sentIn c.2.2).length + m ≤ n by
    obtain ⟨m, -, hm⟩ := this _ hr
    exact Nat.le_of_add_right_le hm
  intro c hc
  induction hc with
  | refl => exact ⟨n, h, by simp⟩
  | @tail b c _ hstep ih =>
    obtain ⟨m, hm, hle⟩ := ih
    obtain ⟨m', hm', hle'⟩ := hm.step hstep
    exact ⟨m', hm', Nat.le_trans hle' hle⟩

/-! ## Tasks -/

namespace Task
variable {τ ε : Type}

/-- The task sends at most `n` messages. -/
def Sends (x : Task Q A M τ ε α) (n : ℕ) : Prop := ∀ t, (x t).Sends n

namespace Sends
variable {x y : Task Q A M τ ε α} {n m : ℕ}

theorem mono (h : x.Sends n) (hle : n ≤ m) : x.Sends m := fun t => (h t).mono hle

theorem pure (a : α) : (pure a : Task Q A M τ ε α).Sends 0 := fun _ => trivial
theorem raise (e : ε) : (raise e : Task Q A M τ ε α).Sends 0 := fun _ => trivial
theorem read : (read : Task Q A M τ ε τ).Sends 0 := fun _ => trivial
theorem update (f : τ → τ) : (update f : Task Q A M τ ε Unit).Sends 0 := fun _ => trivial
theorem ask (q : Q) : (ask q : Task Q A M τ ε (A q)).Sends 0 := fun _ _ => trivial

theorem bind {f : α → Task Q A M τ ε β} (hx : x.Sends n) (hf : ∀ a, (f a).Sends m) :
    (x >>= f).Sends (n + m) := by
  refine fun t => Prog.Sends.bind ?_ (hx t)
  rintro ⟨r, u⟩
  cases r with
  | ok a => exact hf a u
  | error e => trivial

theorem handle {f : ε → Task Q A M τ ε α} (hx : x.Sends n) (hf : ∀ e, (f e).Sends m) :
    (x.handle f).Sends (n + m) := by
  refine fun t => Prog.Sends.bind ?_ (hx t)
  rintro ⟨r, u⟩
  cases r with
  | ok a => trivial
  | error e => exact hf e u

theorem ite {c : Prop} [Decidable c] (hx : x.Sends n) (hy : y.Sends n) :
    (if c then x else y).Sends n := by
  split
  · exact hx
  · exact hy

theorem exchange (a : M) (accept : M → Bool) (n : ℕ) :
    (exchange a accept n : Task Q A M τ ε (Option M)).Sends n := by
  induction n with
  | zero => exact pure none
  | succ n ih =>
    have hone : (transmit a accept : Task Q A M τ ε (Option M)).Sends 1 :=
      fun _ => ⟨Nat.one_pos, fun _ => trivial⟩
    refine (hone.bind (m := n) fun r => ?_).mono (by omega)
    cases r with
    | none => exact ih
    | some r => exact (pure (some r)).mono (Nat.zero_le n)

end Sends
end Task
end OtaLink.Lib
