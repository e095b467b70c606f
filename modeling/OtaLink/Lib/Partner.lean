import OtaLink.Lib.Fifo

/-!
# A program and its partner

Where the link neither loses nor delays anything, a program and the other side are one
deterministic computation. `Task.Gives` says where it ends, with one rule for each
construct of a task.

## Main definitions

* `Partner` — what answers a program.
* `Prog.against` — the run of a program against a partner.
* `Prog.Waits`, `Task.Waits` — programs that stop and wait.
* `Task.Gives` — the end of the run of a task.
* `Task.Gives.reaches` — such a run is one of the runs of a FIFO link.
-/

namespace OtaLink.Lib

/-- What answers a program: every question, and the messages it responds to. -/
structure Partner (Q : Type) (A : Q → Type) (M σ : Type) where
  ask : σ → (q : Q) → A q × σ
  serve : σ → M → Option (M × σ)

variable {Q : Type} {A : Q → Type} {M σ τ ε α β : Type}

namespace Prog

/-- Run a program; `inbox` is the response that it has not read yet. -/
def against (p : Partner Q A M σ) : Prog Q A M α → Option M → σ → α × Option M × σ
  | .ret a, inbox, s => (a, inbox, s)
  | .ask q k, inbox, s => (k (p.ask s q).1).against p inbox (p.ask s q).2
  | .send m next, _, s =>
    match p.serve s m with
    | some (r, s) => next.against p (some r) s
    | none => next.against p none s
  | .recv accept k, inbox, s => (k (inbox.filter accept)).against p none s

theorem against_bind (p : Partner Q A M σ) (f : α → Prog Q A M β) :
    ∀ (x : Prog Q A M α) (inbox : Option M) (s : σ), (x.bind f).against p inbox s =
      (f (x.against p inbox s).1).against p
        (x.against p inbox s).2.1 (x.against p inbox s).2.2 := by
  intro x
  induction x with
  | ret a => exact fun _ _ => rfl
  | ask q k ih => exact fun inbox s => ih _ inbox _
  | send m next ih =>
    intro inbox s
    simp only [bind_send, against]
    cases p.serve s m with
    | none => exact ih none s
    | some r => exact ih (some r.1) r.2
  | recv accept k ih => exact fun inbox s => ih _ none s

/-- The program stops and waits: after each message it waits for a response, and every message
is one of which `P` holds. -/
inductive Waits (P : M → Prop) : Prog Q A M α → Prop
  | ret {a} : Waits P (.ret a)
  | ask {q k} (h : ∀ a, Waits P (k a)) : Waits P (.ask q k)
  | exchange {m accept k} (hm : P m) (h : ∀ r, Waits P (k r)) : Waits P (.send m (.recv accept k))

theorem Waits.bind {P : M → Prop} {x : Prog Q A M α} {f : α → Prog Q A M β} (hx : x.Waits P)
    (hf : ∀ a, (f a).Waits P) : (x.bind f).Waits P := by
  induction hx with
  | ret => exact hf _
  | ask _ ih => exact .ask ih
  | exchange hm _ ih => exact .exchange hm ih

end Prog

namespace Task

/-- From every record the task stops and waits. -/
def Waits (P : M → Prop) (x : Task Q A M τ ε α) : Prop := ∀ t, (x t).Waits P

namespace Waits
variable {P : M → Prop}

theorem pure (a : α) : (pure a : Task Q A M τ ε α).Waits P := fun _ => .ret

theorem raise (e : ε) : (raise e : Task Q A M τ ε α).Waits P := fun _ => .ret

theorem update (g : τ → τ) : (update g : Task Q A M τ ε Unit).Waits P := fun _ => .ret

theorem ask (q : Q) : (ask q : Task Q A M τ ε (A q)).Waits P := fun _ => .ask fun _ => .ret

theorem read_bind {f : τ → Task Q A M τ ε α} (hf : ∀ t, (f t).Waits P) :
    (read >>= f).Waits P := fun t => hf t t

theorem bind {x : Task Q A M τ ε α} {f : α → Task Q A M τ ε β} (hx : x.Waits P)
    (hf : ∀ a, (f a).Waits P) : (x >>= f).Waits P := by
  refine fun t => Prog.Waits.bind (hx t) ?_
  rintro ⟨r, t'⟩
  cases r with
  | ok a => exact hf a t'
  | error e => exact .ret

theorem handle {x : Task Q A M τ ε α} {f : ε → Task Q A M τ ε α} (hx : x.Waits P)
    (hf : ∀ e, (f e).Waits P) : (x.handle f).Waits P := by
  refine fun t => Prog.Waits.bind (hx t) ?_
  rintro ⟨r, t'⟩
  cases r with
  | ok a => exact .ret
  | error e => exact hf e t'

theorem recover {ε' : Type} {x : Task Q A M τ ε α} {f : ε → Task Q A M τ ε' α} (hx : x.Waits P)
    (hf : ∀ e, (f e).Waits P) : (x.recover f).Waits P := by
  refine fun t => Prog.Waits.bind (hx t) ?_
  rintro ⟨r, t'⟩
  cases r with
  | ok a => exact .ret
  | error e => exact hf e t'

theorem ite {c : Prop} [Decidable c] {x y : Task Q A M τ ε α} (hx : c → x.Waits P)
    (hy : ¬c → y.Waits P) : (if c then x else y).Waits P := by
  split
  · exact hx ‹_›
  · exact hy ‹_›

/-- A message that is sent again is sent again only after its timer. -/
theorem exchange {m : M} (hm : P m) (accept : M → Bool) (n : ℕ) :
    (exchange m accept n : Task Q A M τ ε (Option M)).Waits P := by
  induction n with
  | zero => exact pure none
  | succ n ih =>
    refine bind (fun t => .exchange hm fun _ => .ret) fun r => ?_
    cases r with
    | none => exact ih
    | some r => exact pure (some r)

end Waits

/-- The run of `x` from the record `t` and the partner in `s` ends with `r`, `t'` and `s'`. -/
def Gives (p : Partner Q A M σ) (x : Task Q A M τ ε α) (t : τ) (s : σ) (r : Except ε α) (t' : τ)
    (s' : σ) : Prop :=
  ∀ inbox, ∃ inbox', (x t).against p inbox s = ((r, t'), inbox', s')

namespace Gives
variable {p : Partner Q A M σ} {t t' t'' : τ} {s s' s'' : σ}

theorem pure (a : α) : (pure a : Task Q A M τ ε α).Gives p t s (.ok a) t s :=
  fun inbox => ⟨inbox, rfl⟩

theorem read_bind {f : τ → Task Q A M τ ε α} {r : Except ε α} (h : (f t).Gives p t s r t' s') :
    (Task.read >>= f).Gives p t s r t' s' := h

theorem update_bind {g : τ → τ} {f : Unit → Task Q A M τ ε α} {r : Except ε α}
    (h : (f ()).Gives p (g t) s r t' s') : (Task.update g >>= f).Gives p t s r t' s' := h

theorem update (g : τ → τ) : (Task.update g : Task Q A M τ ε Unit).Gives p t s (.ok ()) (g t) s :=
  fun inbox => ⟨inbox, rfl⟩

theorem ask (q : Q) : (Task.ask q : Task Q A M τ ε (A q)).Gives p t s (.ok (p.ask s q).1) t
    (p.ask s q).2 :=
  fun inbox => ⟨inbox, rfl⟩

theorem bind {x : Task Q A M τ ε α} {f : α → Task Q A M τ ε β} {a : α} {r : Except ε β} {v : τ}
    {w : σ} (hx : x.Gives p t s (.ok a) v w) (hf : (f a).Gives p v w r t' s') :
    (x >>= f).Gives p t s r t' s' := by
  intro inbox
  obtain ⟨inbox', hx⟩ := hx inbox
  obtain ⟨inbox'', hf⟩ := hf inbox'
  refine ⟨inbox'', ?_⟩
  refine (Prog.against_bind p _ (x t) inbox s).trans ?_
  rw [hx]
  exact hf

/-- What does not fail is not handled. -/
theorem handle {x : Task Q A M τ ε α} {f : ε → Task Q A M τ ε α} {a : α}
    (hx : x.Gives p t s (.ok a) t' s') : (x.handle f).Gives p t s (.ok a) t' s' := by
  intro inbox
  obtain ⟨inbox', hx⟩ := hx inbox
  refine ⟨inbox', (Prog.against_bind p _ (x t) inbox s).trans ?_⟩
  rw [hx]
  rfl

theorem recover {ε' : Type} {x : Task Q A M τ ε α} {f : ε → Task Q A M τ ε' α} {a : α}
    (hx : x.Gives p t s (.ok a) t' s') : (x.recover f).Gives p t s (.ok a) t' s' := by
  intro inbox
  obtain ⟨inbox', hx⟩ := hx inbox
  refine ⟨inbox', (Prog.against_bind p _ (x t) inbox s).trans ?_⟩
  rw [hx]
  rfl

/-- The first response is accepted. -/
theorem exchange {m r : M} {accept : M → Bool} {n : ℕ} (hn : 0 < n)
    (hserve : p.serve s m = some (r, s')) (haccept : accept r = true) :
    (Task.exchange m accept n : Task Q A M τ ε (Option M)).Gives p t s (.ok (some r)) t s' := by
  obtain ⟨n, rfl⟩ := Nat.exists_eq_succ_of_ne_zero (Nat.pos_iff_ne_zero.mp hn)
  refine bind (a := some r) (v := t) (w := s') (fun inbox => ⟨none, ?_⟩) (pure (some r))
  simp [transmit, Prog.against, hserve, haccept]

end Gives
end Task

/-! ## One of the runs of a link -/

section Link
variable {D O : Type} {S : Server M D O} {p : Partner Q A M D}

/-- Nothing is on its way. -/
def Link.Empty (L : Link M D) : Prop := L.requests = [] ∧ L.replies = []

/-- Responses that have not been read may be lost. -/
theorem reaches_lose {x : Prog Q A M α} {L : Link M D} :
    ∃ L', (fifo S (.free M D)).Reaches (x, L) (x, L') ∧ L'.requests = L.requests ∧ L'.replies = [] ∧
      L'.server = L.server := by
  obtain ⟨requests, replies, n, d⟩ := L
  induction replies with
  | nil => exact ⟨_, .refl, rfl, rfl, rfl⟩
  | cons r replies ih =>
    obtain ⟨L', hr, h⟩ := ih
    exact ⟨L', .head (.rely (@Link.Move.loseReply M D O S _ _ [] _ _ _ _ rfl)) hr, h⟩

/-- **A run against a partner is a run of the link**, if the server may answer as the partner
does. -/
theorem Prog.reaches_of_against (hask : ∀ d q, (p.ask d q).2 = d)
    (hserve : ∀ {d m r d'}, p.serve d m = some (r, d') → S.Serves d m r d') :
    ∀ (x : Prog Q A M α) (inbox : Option M) (L : Link M D), L.requests = [] →
      L.replies.map Reply.response = inbox.toList → ∃ L', L'.Empty ∧
        (fifo S (.free M D)).Reaches (x, L) (.ret (x.against p inbox L.server).1, L') ∧
        L'.server = (x.against p inbox L.server).2.2 := by
  intro x
  induction x with
  | ret a =>
    intro inbox L hreq _
    obtain ⟨L', hr, hreq', hrep, hserver⟩ := @reaches_lose Q A M α D O S (.ret a) L
    exact ⟨L', ⟨hreq'.trans hreq, hrep⟩, hr, hserver⟩
  | ask q k ih =>
    intro inbox L hreq hrep
    obtain ⟨L', hempty, hr, hserver⟩ := ih (p.ask L.server q).1 inbox L hreq hrep
    simp only [against, hask]
    exact ⟨L', hempty, .head (.ask rfl) hr, hserver⟩
  | send m next ih =>
    intro inbox L hreq _
    obtain ⟨⟨requests, replies, n, d⟩, hlose, hreq', rfl, hserver⟩ :=
      @reaches_lose Q A M α D O S (.send m next) L
    obtain rfl : requests = [] := hreq'.trans hreq
    obtain rfl : d = L.server := hserver
    simp only [against]
    cases hs : p.serve L.server m with
    | none =>
      obtain ⟨L', hempty, hr, hserver⟩ := ih none ⟨[], [], n, L.server⟩ rfl rfl
      refine ⟨L', hempty, hlose.trans (.head (.send rfl) (.head (.rely ?_) hr)), hserver⟩
      exact @Link.Move.loseRequest M D O S _ [] _ [] _ _ _
    | some r =>
      obtain ⟨r, d'⟩ := r
      obtain ⟨L', hempty, hr, hserver⟩ := ih (some r) ⟨[], [⟨m, r, L.server⟩], n, d'⟩ rfl rfl
      refine ⟨L', hempty, hlose.trans (.head (.send rfl) (.head (.rely ?_) hr)), hserver⟩
      exact .deliver rfl (hserve hs)
  | recv accept k ih =>
    intro inbox L hreq hrep
    obtain ⟨requests, replies, n, d⟩ := L
    obtain rfl : requests = [] := hreq
    -- The timer expires where the partner has sent nothing that is accepted.
    have hexpire : (∀ q ∈ replies, accept q.response = false) → ∃ L', L'.Empty ∧
        (fifo S (.free M D)).Reaches (.recv accept k, ⟨[], replies, n, d⟩)
          (.ret ((k none).against p none d).1, L') ∧
        L'.server = ((k none).against p none d).2.2 := by
      intro hskip
      obtain ⟨L', hempty, hr, hserver⟩ := ih none none ⟨[], [], n + 1, d⟩ rfl rfl
      refine ⟨L', hempty, .head (.recv ?_) hr, hserver⟩
      have hread := @Link.Read.expire M D (.free M D) accept [] replies [] n d hskip rfl
      rwa [List.append_nil] at hread
    cases inbox with
    | none => exact hexpire (by simp_all)
    | some r =>
      obtain ⟨q, rfl, rfl⟩ : ∃ q : Reply M D, replies = [q] ∧ q.response = r := by
        cases replies with
        | nil => simp at hrep
        | cons q rest => simp_all
      cases ha : accept q.response
      · simp only [against, Option.filter_some, ha]
        exact hexpire (by simpa using ha)
      · simp only [against, Option.filter_some, ha]
        obtain ⟨L', hempty, hr, hserver⟩ := ih (some q.response) none ⟨[], [], 0, d⟩ rfl rfl
        exact ⟨L', hempty, .head (.recv (@Link.Read.answer M D (.free M D) accept [] [] q [] n d
          (by simp) ha rfl)) hr, hserver⟩

/-- The end of a run against a partner is one that the link reaches. -/
theorem Task.Gives.reaches (hask : ∀ d q, (p.ask d q).2 = d)
    (hserve : ∀ {d m r d'}, p.serve d m = some (r, d') → S.Serves d m r d')
    {x : Task Q A M τ ε α} {t t' : τ} {r : Except ε α} {d' : D} {L : Link M D} (hL : L.Empty)
    (h : x.Gives p t L.server r t' d') : ∃ L', L'.Empty ∧
      (fifo S (.free M D)).Reaches (x t, L) (.ret (r, t'), L') ∧ L'.server = d' := by
  obtain ⟨inbox, hx⟩ := h none
  have hrun := Prog.reaches_of_against hask hserve (x t) none L hL.1 (by simp [hL.2])
  rwa [hx] at hrun

end Link
end OtaLink.Lib
