import Mathlib.Logic.Relation
import Mathlib.Tactic.Common

/-!
# Programs that talk to an environment

A `Prog` is a finite-depth tree of requests to its environment: ask a question,
send a message, or wait until a message arrives or a timer expires. What the
environment does is not part of the program. An `Env` gives it a state, says how
that state answers each request, and says through `rely` what it may do on its
own between two of them, so one program text runs against a lossy channel and
against an adversary alike.

`Safe I Q p s` is the weakest condition on `s` under which every execution of `p`
from `s` keeps `I` and ends, if it ends, in `Q`. `Spec` states it for the programs
a host language writes: tasks with a mutable record and exceptions. Its rules
follow the constructors, and `Safe.reaches` turns a proof by rules into a theorem
about every interleaving.

## Main definitions

* `Prog`, `Task` — programs, and programs with a record and exceptions.
* `Env`, `Env.Step`, `Env.Reaches` — environments and executions.
* `Env.Expires` — the execution in which every timer expires.
* `Safe`, `Task.Spec` — what an execution keeps and where it ends.
* `Task.Spec.exchange` — the rule for a send that is retried after a timeout.
-/

namespace OtaLink.Lib

/-- A program that asks, sends and receives, and returns an `α`. -/
inductive Prog (Q : Type) (A : Q → Type) (M : Type) (α : Type)
  /-- The program is over. -/
  | ret (a : α)
  /-- Ask the environment `q` and continue with its answer. -/
  | ask (q : Q) (k : A q → Prog Q A M α)
  /-- Put a message on the link. -/
  | send (m : M) (next : Prog Q A M α)
  /-- Wait for a message that `accept` takes; `none` is an expired timer. -/
  | recv (accept : M → Bool) (k : Option M → Prog Q A M α)

namespace Prog
variable {Q : Type} {A : Q → Type} {M α β : Type}

/-- Run `f` on what the first program returns. -/
def bind : Prog Q A M α → (α → Prog Q A M β) → Prog Q A M β
  | .ret a, f => f a
  | .ask q k, f => .ask q fun x => (k x).bind f
  | .send m next, f => .send m (next.bind f)
  | .recv accept k, f => .recv accept fun r => (k r).bind f

@[simp] theorem bind_ret (a : α) (f : α → Prog Q A M β) : (ret a).bind f = f a := rfl
@[simp] theorem bind_ask (q : Q) (k : A q → Prog Q A M α) (f : α → Prog Q A M β) :
    (ask q k).bind f = .ask q fun x => (k x).bind f := rfl
@[simp] theorem bind_send (m : M) (p : Prog Q A M α) (f : α → Prog Q A M β) :
    (send m p).bind f = .send m (p.bind f) := rfl
@[simp] theorem bind_recv (accept : M → Bool) (k : Option M → Prog Q A M α)
    (f : α → Prog Q A M β) : (recv accept k).bind f = .recv accept fun r => (k r).bind f := rfl

end Prog

/-- The other side of a program: a state, its answers, and its own steps. -/
structure Env (Q : Type) (A : Q → Type) (M σ : Type) where
  /-- A step the environment takes between two requests of the program. -/
  rely : σ → σ → Prop
  ask : σ → (q : Q) → A q → σ → Prop
  send : σ → M → σ → Prop
  recv : σ → (M → Bool) → Option M → σ → Prop

namespace Env
variable {Q : Type} {A : Q → Type} {M σ α β : Type}

/-- One step of a program in its environment. -/
inductive Step (E : Env Q A M σ) : Prog Q A M α × σ → Prog Q A M α × σ → Prop
  | rely {p s s'} (h : E.rely s s') : Step E (p, s) (p, s')
  | ask {q k s a s'} (h : E.ask s q a s') : Step E (.ask q k, s) (k a, s')
  | send {m p s s'} (h : E.send s m s') : Step E (.send m p, s) (p, s')
  | recv {accept k s r s'} (h : E.recv s accept r s') : Step E (.recv accept k, s) (k r, s')

/-- Some execution leads from one configuration to the other. -/
def Reaches (E : Env Q A M σ) : Prog Q A M α × σ → Prog Q A M α × σ → Prop :=
  Relation.ReflTransGen E.Step

/-- `P` cannot be falsified by the environment alone. -/
def Stable (E : Env Q A M σ) (P : σ → Prop) : Prop := ∀ s s', E.rely s s' → P s → P s'

/-- `P` holds now and after any steps of the environment alone. -/
def Always (E : Env Q A M σ) (P : σ → Prop) (s : σ) : Prop :=
  ∀ s', Relation.ReflTransGen E.rely s s' → P s'

/-- The program ends with every timer expired while the environment takes no step of its
own. -/
inductive Expires (E : Env Q A M σ) : Prog Q A M α → σ → α → σ → Prop
  | ret {a s} : Expires E (.ret a) s a s
  | ask {q k s a s' b s''} (h : E.ask s q a s') (hk : Expires E (k a) s' b s'') :
      Expires E (.ask q k) s b s''
  | send {m p s s' b s''} (h : E.send s m s') (hp : Expires E p s' b s'') :
      Expires E (.send m p) s b s''
  | recv {accept k s s' b s''} (h : E.recv s accept none s') (hk : Expires E (k none) s' b s'') :
      Expires E (.recv accept k) s b s''

variable {E : Env Q A M σ}

theorem Expires.reaches {p : Prog Q A M α} {s s' : σ} {a : α} (h : E.Expires p s a s') :
    E.Reaches (p, s) (.ret a, s') := by
  induction h with
  | ret => exact .refl
  | ask h _ ih => exact .head (.ask h) ih
  | send h _ ih => exact .head (.send h) ih
  | recv h _ ih => exact .head (.recv h) ih

/-- What none of these steps changes is as before. -/
theorem Expires.const {β : Type} {f : σ → β} (hask : ∀ s q a s', E.ask s q a s' → f s' = f s)
    (hsend : ∀ s m s', E.send s m s' → f s' = f s)
    (hrecv : ∀ s accept s', E.recv s accept none s' → f s' = f s) {p : Prog Q A M α} {s s' : σ}
    {a : α} (h : E.Expires p s a s') : f s' = f s := by
  induction h with
  | ret => rfl
  | ask h _ ih => exact ih.trans (hask _ _ _ _ h)
  | send h _ ih => exact ih.trans (hsend _ _ _ h)
  | recv h _ ih => exact ih.trans (hrecv _ _ _ h)

theorem Always.now {P : σ → Prop} {s : σ} (h : E.Always P s) : P s := h s .refl

theorem Always.step {P : σ → Prop} {s s' : σ} (h : E.Always P s) (hs : E.rely s s') :
    E.Always P s' := fun t ht => h t (.head hs ht)

theorem Always.mono {P R : σ → Prop} {s : σ} (h : E.Always P s) (hPR : ∀ t, P t → R t) :
    E.Always R s := fun t ht => hPR t (h t ht)

theorem Stable.always {P : σ → Prop} (hP : E.Stable P) {s : σ} (h : P s) : E.Always P s := by
  intro t ht
  induction ht with
  | refl => exact h
  | tail _ hstep ih => exact hP _ _ hstep ih

end Env

section Safe
variable {Q : Type} {A : Q → Type} {M σ α β : Type}

/-- Every execution of `p` from `s` keeps `I` until it ends, and ends in `R`. -/
def Safe (E : Env Q A M σ) (I : σ → Prop) (R : α → σ → Prop) : Prog Q A M α → σ → Prop
  | .ret a, s => R a s
  | .ask q k, s =>
      E.Always (fun s => I s ∧ ∀ a s', E.ask s q a s' → Safe E I R (k a) s') s
  | .send m next, s =>
      E.Always (fun s => I s ∧ ∀ s', E.send s m s' → Safe E I R next s') s
  | .recv accept k, s =>
      E.Always (fun s => I s ∧ ∀ r s', E.recv s accept r s' → Safe E I R (k r) s') s

variable {E : Env Q A M σ} {I : σ → Prop}

theorem Safe.bind {R : α → σ → Prop} {T : β → σ → Prop} {f : α → Prog Q A M β}
    (hf : ∀ a s, R a s → Safe E I T (f a) s) :
    ∀ {p : Prog Q A M α} {s : σ}, Safe E I R p s → Safe E I T (p.bind f) s := by
  intro p
  induction p with
  | ret a => intro s h; exact hf a s h
  | ask q k ih =>
    intro s h
    exact Env.Always.mono h fun t ht => ⟨ht.1, fun a s' ha => ih a (ht.2 a s' ha)⟩
  | send m next ih =>
    intro s h
    exact Env.Always.mono h fun t ht => ⟨ht.1, fun s' hs => ih (ht.2 s' hs)⟩
  | recv accept k ih =>
    intro s h; exact Env.Always.mono h fun t ht => ⟨ht.1, fun r s' hr => ih r (ht.2 r s' hr)⟩

theorem Safe.mono {R T : α → σ → Prop} (hRT : ∀ a s, R a s → T a s) :
    ∀ {p : Prog Q A M α} {s : σ}, Safe E I R p s → Safe E I T p s := by
  intro p
  induction p with
  | ret a => intro s h; exact hRT a s h
  | ask q k ih =>
    intro s h
    exact Env.Always.mono h fun t ht => ⟨ht.1, fun a s' ha => ih a (ht.2 a s' ha)⟩
  | send m next ih =>
    intro s h
    exact Env.Always.mono h fun t ht => ⟨ht.1, fun s' hs => ih (ht.2 s' hs)⟩
  | recv accept k ih =>
    intro s h; exact Env.Always.mono h fun t ht => ⟨ht.1, fun r s' hr => ih r (ht.2 r s' hr)⟩

/-- A weaker invariant is kept as well. -/
theorem Safe.weaken {I' : σ → Prop} (hI : ∀ s, I s → I' s) {R : α → σ → Prop} :
    ∀ {p : Prog Q A M α} {s : σ}, Safe E I R p s → Safe E I' R p s := by
  intro p
  induction p with
  | ret a => exact fun h => h
  | ask q k ih =>
    intro s h
    exact Env.Always.mono h fun t ht => ⟨hI t ht.1, fun a s' ha => ih a (ht.2 a s' ha)⟩
  | send m next ih =>
    intro s h
    exact Env.Always.mono h fun t ht => ⟨hI t ht.1, fun s' hs => ih (ht.2 s' hs)⟩
  | recv accept k ih =>
    intro s h
    exact Env.Always.mono h fun t ht => ⟨hI t ht.1, fun r s' hr => ih r (ht.2 r s' hr)⟩

/-- A step preserves safety: the tree shrinks or the environment moves. -/
theorem Safe.step {R : α → σ → Prop} (hR : ∀ a, E.Stable (R a)) {p p' : Prog Q A M α} {s s' : σ}
    (h : Safe E I R p s) (hs : E.Step (p, s) (p', s')) : Safe E I R p' s' := by
  cases hs with
  | rely hrely =>
    cases p with
    | ret a => exact hR a _ _ hrely h
    | ask q k => exact Env.Always.step h hrely
    | send m next => exact Env.Always.step h hrely
    | recv accept k => exact Env.Always.step h hrely
  | ask ha => exact (Env.Always.now h).2 _ _ ha
  | send hs => exact (Env.Always.now h).2 _ hs
  | recv hr => exact (Env.Always.now h).2 _ _ hr

/-- **Soundness.** Safety of the initial configuration reaches every later one. -/
theorem Safe.reaches {R : α → σ → Prop} (hR : ∀ a, E.Stable (R a)) {p p' : Prog Q A M α}
    {s s' : σ} (h : Safe E I R p s) (hr : E.Reaches (p, s) (p', s')) : Safe E I R p' s' := by
  suffices ∀ c, E.Reaches (p, s) c → Safe E I R c.1 c.2 from this _ hr
  intro c hc
  induction hc with
  | refl => exact h
  | @tail b c _ hstep ih => exact Safe.step hR ih hstep

/-- A safe configuration satisfies the invariant, also where the program is over. -/
theorem Safe.inv {R : α → σ → Prop} (hRI : ∀ a s, R a s → I s) {p : Prog Q A M α} {s : σ}
    (h : Safe E I R p s) : I s := by
  cases p with
  | ret a => exact hRI a s h
  | ask q k => exact (Env.Always.now h).1
  | send m next => exact (Env.Always.now h).1
  | recv accept k => exact (Env.Always.now h).1

end Safe

/-! ## Tasks: a record and exceptions -/

/-- A program over a mutable record `τ` that returns an `α` or raises an `ε`. -/
def Task (Q : Type) (A : Q → Type) (M τ ε α : Type) : Type :=
  τ → Prog Q A M (Except ε α × τ)

namespace Task
variable {Q : Type} {A : Q → Type} {M τ ε α β : Type}

protected def pure (a : α) : Task Q A M τ ε α := fun t => .ret (.ok a, t)

protected def bind (x : Task Q A M τ ε α) (f : α → Task Q A M τ ε β) : Task Q A M τ ε β :=
  fun t => (x t).bind fun r =>
    match r.1 with
    | .ok a => f a r.2
    | .error e => .ret (.error e, r.2)

instance : Monad (Task Q A M τ ε) where
  pure := Task.pure
  bind := Task.bind

/-- Raise an exception; the record keeps the changes made so far. -/
def raise (e : ε) : Task Q A M τ ε α := fun t => .ret (.error e, t)

/-- Run a handler on the exception of `x`, if it raises one. -/
def handle (x : Task Q A M τ ε α) (f : ε → Task Q A M τ ε α) : Task Q A M τ ε α :=
  fun t => (x t).bind fun r =>
    match r.1 with
    | .ok a => .ret (.ok a, r.2)
    | .error e => f e r.2

/-- Run a handler that raises exceptions of another kind on the exception of `x`. -/
def recover {ε' : Type} (x : Task Q A M τ ε α) (f : ε → Task Q A M τ ε' α) : Task Q A M τ ε' α :=
  fun t => (x t).bind fun r =>
    match r.1 with
    | .ok a => .ret (.ok a, r.2)
    | .error e => f e r.2

/-- Read the record. -/
def read : Task Q A M τ ε τ := fun t => .ret (.ok t, t)

theorem read_bind_apply (f : τ → Task Q A M τ ε α) (t : τ) : (read >>= f) t = f t t := rfl

/-- Change the record. -/
def update (f : τ → τ) : Task Q A M τ ε Unit := fun t => .ret (.ok (), f t)

/-- Ask the environment. -/
def ask (q : Q) : Task Q A M τ ε (A q) := fun t => .ask q fun a => .ret (.ok a, t)

/-- Send `m` and wait once for an answer that `accept` takes. -/
def transmit (m : M) (accept : M → Bool) : Task Q A M τ ε (Option M) :=
  fun t => .send m (.recv accept fun r => .ret (.ok r, t))

/-- Send `m` up to `n` times, until an answer arrives before the timer expires. -/
def exchange (m : M) (accept : M → Bool) : ℕ → Task Q A M τ ε (Option M)
  | 0 => pure none
  | n + 1 => do
      match ← transmit m accept with
      | some r => pure (some r)
      | none => exchange m accept n

variable {σ : Type}

/-- From `P`, every execution of `x` keeps `I` and ends in `Ok` or, with an
exception, in `Err`. -/
def Spec (E : Env Q A M σ) (I : σ → Prop) (P : τ → σ → Prop) (x : Task Q A M τ ε α)
    (Ok : α → τ → σ → Prop) (Err : ε → τ → σ → Prop) : Prop :=
  ∀ t s, P t s → Safe E I (fun r => match r.1 with
    | .ok a => Ok a r.2
    | .error e => Err e r.2) (x t) s

namespace Spec
variable {E : Env Q A M σ} {I : σ → Prop} {P P' : τ → σ → Prop} {Ok Ok' : α → τ → σ → Prop}
  {Err Err' : ε → τ → σ → Prop}

theorem pure {a : α} (h : ∀ t s, P t s → Ok a t s) :
    Spec E I P (pure a : Task Q A M τ ε α) Ok Err := h

theorem raise {e : ε} (h : ∀ t s, P t s → Err e t s) :
    Spec E I P (raise e : Task Q A M τ ε α) Ok Err := h

theorem bind {x : Task Q A M τ ε α} {f : α → Task Q A M τ ε β} {R : α → τ → σ → Prop}
    {Ok : β → τ → σ → Prop} (hx : Spec E I P x R Err)
    (hf : ∀ a, Spec E I (R a) (f a) Ok Err) : Spec E I P (x >>= f) Ok Err := by
  intro t s h
  refine Safe.bind ?_ (hx t s h)
  rintro ⟨r, t'⟩ s' hr
  cases r with
  | ok a => exact hf a t' s' hr
  | error e => exact hr

theorem handle {x : Task Q A M τ ε α} {f : ε → Task Q A M τ ε α} {W : ε → τ → σ → Prop}
    (hx : Spec E I P x Ok W) (hf : ∀ e, Spec E I (W e) (f e) Ok Err) :
    Spec E I P (x.handle f) Ok Err := by
  intro t s h
  refine Safe.bind ?_ (hx t s h)
  rintro ⟨r, t'⟩ s' hr
  cases r with
  | ok a => exact hr
  | error e => exact hf e t' s' hr

theorem recover {ε' : Type} {x : Task Q A M τ ε α} {f : ε → Task Q A M τ ε' α}
    {W : ε → τ → σ → Prop} {Err : ε' → τ → σ → Prop} (hx : Spec E I P x Ok W)
    (hf : ∀ e, Spec E I (W e) (f e) Ok Err) : Spec E I P (x.recover f) Ok Err := by
  intro t s h
  refine Safe.bind ?_ (hx t s h)
  rintro ⟨r, t'⟩ s' hr
  cases r with
  | ok a => exact hr
  | error e => exact hf e t' s' hr

/-- Strengthen the start and weaken both ends. -/
theorem consequence {x : Task Q A M τ ε α} (h : Spec E I P x Ok Err)
    (hP : ∀ t s, P' t s → P t s) (hOk : ∀ a t s, Ok a t s → Ok' a t s)
    (hErr : ∀ e t s, Err e t s → Err' e t s) : Spec E I P' x Ok' Err' := by
  intro t s hp
  refine Safe.mono ?_ (h t s (hP t s hp))
  rintro ⟨r, t'⟩ s' hr
  cases r with
  | ok a => exact hOk a t' s' hr
  | error e => exact hErr e t' s' hr

theorem pre {x : Task Q A M τ ε α} (h : Spec E I P x Ok Err) (hP : ∀ t s, P' t s → P t s) :
    Spec E I P' x Ok Err := h.consequence hP (fun _ _ _ h => h) (fun _ _ _ h => h)

theorem weaken {x : Task Q A M τ ε α} {I' : σ → Prop} (h : Spec E I P x Ok Err)
    (hI : ∀ s, I s → I' s) : Spec E I' P x Ok Err :=
  fun t s hp => Safe.weaken hI (h t s hp)

/-- Read the record, which the rest may treat as known. -/
theorem read_bind {f : τ → Task Q A M τ ε α}
    (h : ∀ t, Spec E I (fun t' s => t' = t ∧ P t s) (f t) Ok Err) :
    Spec E I P (Task.read >>= f) Ok Err := fun t s hp => h t t s ⟨rfl, hp⟩

/-- The rest may treat the record as known, and whatever holds of it. -/
theorem with_record {x : Task Q A M τ ε α} {F : τ → Prop}
    (h : ∀ u, F u → Spec E I (fun t s => t = u ∧ P u s) x Ok Err) :
    Spec E I (fun t s => F t ∧ P t s) x Ok Err := fun t s hp => h t hp.1 t s ⟨rfl, hp.2⟩

/-- The rest may rely on what does not depend on the record or the environment. -/
theorem fact {x : Task Q A M τ ε α} {F : Prop} (h : F → Spec E I P x Ok Err) :
    Spec E I (fun t s => F ∧ P t s) x Ok Err := fun t s hp => h hp.1 t s hp.2

theorem update {g : τ → τ} {Ok : Unit → τ → σ → Prop} (h : ∀ t s, P t s → Ok () (g t) s) :
    Spec E I P (Task.update g : Task Q A M τ ε Unit) Ok Err := h

theorem update_bind {g : τ → τ} {f : Unit → Task Q A M τ ε α}
    (h : Spec E I (fun t s => ∃ t₀, t = g t₀ ∧ P t₀ s) (f ()) Ok Err) :
    Spec E I P (Task.update g >>= f) Ok Err := fun t s hp => h (g t) s ⟨t, rfl, hp⟩

theorem ask {q : Q} {Ok : A q → τ → σ → Prop} (hst : ∀ t, E.Stable (P t))
    (hI : ∀ t s, P t s → I s) (h : ∀ t s a s', P t s → E.ask s q a s' → Ok a t s') :
    Spec E I P (Task.ask q : Task Q A M τ ε (A q)) Ok Err := by
  intro t s hp
  exact ((hst t).always hp).mono fun s hs => ⟨hI t s hs, fun a s' ha => h t s a s' hs ha⟩

/-- A case distinction on a condition the program evaluates. -/
theorem ite {c : Prop} [Decidable c] {x y : Task Q A M τ ε α}
    (hx : c → Spec E I P x Ok Err) (hy : ¬c → Spec E I P y Ok Err) :
    Spec E I P (if c then x else y) Ok Err := by
  split
  · exact hx ‹_›
  · exact hy ‹_›

/-- **The retry rule.** `W n` describes the world with `n` attempts left: the environment
keeps it, an attempt whose timer expires leads from `W (n + 1)` to `W n`, and an attempt
whose answer is accepted leads to `Ok`. -/
theorem exchange {m : M} {accept : M → Bool} {W V : ℕ → τ → σ → Prop}
    {Ok : Option M → τ → σ → Prop} (hW : ∀ n t, E.Stable (W n t)) (hV : ∀ n t, E.Stable (V n t))
    (hWI : ∀ n t s, W n t s → I s) (hVI : ∀ n t s, V n t s → I s)
    (hsend : ∀ n t s s', W (n + 1) t s → E.send s m s' → V n t s')
    (htimeout : ∀ n t s s', V n t s → E.recv s accept none s' → W n t s')
    (haccept : ∀ n t s r s', V n t s → E.recv s accept (some r) s' → Ok (some r) t s')
    (hgiveUp : ∀ t s, W 0 t s → Ok none t s) (n : ℕ) :
    Spec E I (W n) (Task.exchange m accept n : Task Q A M τ ε (Option M)) Ok Err := by
  induction n with
  | zero => exact pure hgiveUp
  | succ n ih =>
    intro t s hw
    refine ((hW (n + 1) t).always hw).mono fun s hs => ⟨hWI _ t s hs, fun s' hs' => ?_⟩
    refine ((hV n t).always (hsend n t s s' hs hs')).mono fun s hs =>
      ⟨hVI _ t s hs, fun r s' hr => ?_⟩
    cases r with
    | none => exact ih t s' (htimeout n t s s' hs hr)
    | some r => exact haccept n t s r s' hs hr

/-- **Soundness for tasks.** The end of every execution satisfies the specification. -/
theorem reaches {x : Task Q A M τ ε α} (h : Spec E I P x Ok Err) (hOk : ∀ a t, E.Stable (Ok a t))
    (hErr : ∀ e t, E.Stable (Err e t)) {t : τ} {s : σ} (hp : P t s) {r : Except ε α} {t' : τ}
    {s' : σ} (hr : E.Reaches (x t, s) (.ret (r, t'), s')) :
    match r with
    | .ok a => Ok a t' s'
    | .error e => Err e t' s' := by
  have hend := Safe.reaches ?_ (h t s hp) hr
  · cases r with
    | ok a => exact hend
    | error e => exact hend
  · rintro ⟨r, t'⟩
    cases r with
    | ok a => exact hOk a t'
    | error e => exact hErr e t'

/-- **Soundness of the invariant.** Every configuration on the way satisfies it. -/
theorem reaches_inv {x : Task Q A M τ ε α} (h : Spec E I P x Ok Err)
    (hOk : ∀ a t, E.Stable (Ok a t)) (hErr : ∀ e t, E.Stable (Err e t))
    (hOkI : ∀ a t s, Ok a t s → I s) (hErrI : ∀ e t s, Err e t s → I s) {t : τ} {s : σ}
    (hp : P t s) {p : Prog Q A M (Except ε α × τ)} {s' : σ} (hr : E.Reaches (x t, s) (p, s')) :
    I s' := by
  refine Safe.inv ?_ (Safe.reaches ?_ (h t s hp) hr)
  · rintro ⟨r, t'⟩ s'
    cases r with
    | ok a => exact hOkI a t' s'
    | error e => exact hErrI e t' s'
  · rintro ⟨r, t'⟩
    cases r with
    | ok a => exact hOk a t'
    | error e => exact hErr e t'

end Spec
end Task
end OtaLink.Lib
