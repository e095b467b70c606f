import OtaLink.Lib.Interaction

/-!
# What a program says and hears

Any environment can be made to keep a record of the messages of a program, without a change to
its executions. What holds of the record in every environment holds of the program alone.

## Main definitions

* `Spoken` — a message sent or received.
* `Env.traced` — an environment with a record.
* `Env.Reaches.traced` — every execution has one.
* `Lawful` — every message was permitted by what had been said before it.
-/

namespace OtaLink.Lib

/-- A message that the program has sent or received. -/
inductive Spoken (M : Type)
  | sent (m : M)
  | received (m : M)

variable {Q : Type} {A : Q → Type} {M σ α : Type}

def Spoken.sent? : Spoken M → Option M
  | .sent m => some m
  | .received _ => none

/-- The messages sent, in order. -/
def sentIn (trace : List (Spoken M)) : List M := trace.filterMap Spoken.sent?

@[simp] theorem sentIn_nil : sentIn ([] : List (Spoken M)) = [] := rfl
@[simp] theorem sentIn_append (xs ys : List (Spoken M)) :
    sentIn (xs ++ ys) = sentIn xs ++ sentIn ys := List.filterMap_append
@[simp] theorem sentIn_sent (m : M) : sentIn [.sent m] = [m] := rfl
@[simp] theorem sentIn_received (r : Option M) :
    sentIn (r.toList.map Spoken.received) = [] := by cases r <;> rfl

/-- The environment, and what has been said, in order. -/
def Env.traced (E : Env Q A M σ) : Env Q A M (σ × List (Spoken M)) where
  rely s s' := E.rely s.1 s'.1 ∧ s'.2 = s.2
  ask s q a s' := E.ask s.1 q a s'.1 ∧ s'.2 = s.2
  send s m s' := E.send s.1 m s'.1 ∧ s'.2 = s.2 ++ [.sent m]
  recv s accept r s' := E.recv s.1 accept r s'.1 ∧ s'.2 = s.2 ++ r.toList.map .received

/-- Keeping a record changes no execution. -/
theorem Env.Reaches.traced {E : Env Q A M σ} {p p' : Prog Q A M α} {s s' : σ}
    (h : E.Reaches (p, s) (p', s')) (trace : List (Spoken M)) :
    ∃ trace', E.traced.Reaches (p, s, trace) (p', s', trace') := by
  suffices ∀ c, E.Reaches (p, s) c →
      ∃ trace', E.traced.Reaches (p, s, trace) (c.1, c.2, trace') from this _ h
  intro c hc
  induction hc with
  | refl => exact ⟨trace, .refl⟩
  | @tail b c _ hstep ih =>
    obtain ⟨trace', hr⟩ := ih
    cases hstep with
    | rely h => exact ⟨_, hr.tail (.rely ⟨h, rfl⟩)⟩
    | ask h => exact ⟨_, hr.tail (.ask ⟨h, rfl⟩)⟩
    | send h => exact ⟨_, hr.tail (.send ⟨h, rfl⟩)⟩
    | recv h => exact ⟨_, hr.tail (.recv ⟨h, rfl⟩)⟩

/-- A record only grows. -/
theorem Env.Reaches.extends {E : Env Q A M σ} {c c' : Prog Q A M α × σ × List (Spoken M)}
    (h : E.traced.Reaches c c') : ∃ more, c'.2.2 = c.2.2 ++ more := by
  induction h with
  | refl => exact ⟨[], (List.append_nil _).symm⟩
  | tail _ hstep ih =>
    obtain ⟨more, hmore⟩ := ih
    cases hstep with
    | rely h => exact ⟨more, h.2.trans hmore⟩
    | ask h => exact ⟨more, h.2.trans hmore⟩
    | @send m _ _ _ h => exact ⟨more ++ [.sent m], by rw [h.2, hmore, List.append_assoc]⟩
    | @recv _ _ _ r _ h =>
      exact ⟨more ++ r.toList.map .received, by rw [h.2, hmore, List.append_assoc]⟩

/-- What holds of the record holds until more is said. -/
theorem Env.stable_traced (E : Env Q A M σ) (P : List (Spoken M) → Prop) :
    E.traced.Stable fun s => P s.2 := fun _ _ hs h => (congrArg P hs.2).mpr h

/-! ## What may be said -/

/-- Every message sent was permitted by what had been said before it. -/
def Lawful (permits : List (Spoken M) → M → Prop) (trace : List (Spoken M)) : Prop :=
  ∀ before m after, trace = before ++ .sent m :: after → permits before m

section Lawful
variable {permits : List (Spoken M) → M → Prop} {trace : List (Spoken M)}

theorem lawful_nil : Lawful permits [] := by
  intro before m after h
  simp at h

theorem Lawful.mono {permits' : List (Spoken M) → M → Prop} (h : Lawful permits trace)
    (hmono : ∀ before m, permits before m → permits' before m) : Lawful permits' trace :=
  fun before m after heq => hmono before m (h before m after heq)

/-- A message more. -/
theorem Lawful.concat (h : Lawful permits trace) {x : Spoken M}
    (hx : ∀ m, x = .sent m → permits trace m) : Lawful permits (trace ++ [x]) := by
  intro before m after heq
  rcases List.eq_nil_or_concat after with rfl | ⟨after, y, rfl⟩
  · obtain ⟨rfl, hxm⟩ := List.append_inj' heq rfl
    exact hx m (by simpa using hxm)
  · rw [List.concat_eq_append, ← List.cons_append, ← List.append_assoc] at heq
    exact h before m after (List.append_inj_left' heq rfl)

theorem Lawful.sent (h : Lawful permits trace) {m : M} (hm : permits trace m) :
    Lawful permits (trace ++ [.sent m]) := h.concat fun n hn => by cases hn; exact hm

theorem Lawful.received (h : Lawful permits trace) (m : M) :
    Lawful permits (trace ++ [.received m]) := h.concat fun n hn => by cases hn

end Lawful

/-- **The retry rule for what has been said**: `F` holds before every copy of the message, so an
answer comes right after a copy before which it holds. -/
theorem Task.Spec.exchange_traced {E : Env Q A M σ} {τ ε : Type} {I : List (Spoken M) → Prop}
    {F : τ → List (Spoken M) → Prop} {Err : ε → τ → σ × List (Spoken M) → Prop} {m : M}
    {accept : M → Bool} (hI : ∀ t trace, F t trace → I trace)
    (hsent : ∀ t trace, F t trace → F t (trace ++ [.sent m])) (n : ℕ) :
    Task.Spec E.traced (fun s => I s.2) (fun t s => F t s.2) (Task.exchange m accept n)
      (fun r t s => match r with
        | none => F t s.2
        | some r => ∃ before, F t before ∧ s.2 = before ++ [.sent m, .received r]) Err := by
  refine Task.Spec.exchange (W := fun _ t (s : σ × List (Spoken M)) => F t s.2)
    (V := fun _ t (s : σ × List (Spoken M)) => ∃ before, F t before ∧ s.2 = before ++ [.sent m])
    ?_ ?_ ?_ ?_ ?_ ?_ ?_ ?_ n
  · rintro _ t s s' ⟨-, hs⟩ h
    exact hs ▸ h
  · rintro _ t s s' ⟨-, hs⟩ h
    exact hs ▸ h
  · exact fun _ t s h => hI t _ h
  · rintro _ t s ⟨before, h, hs⟩
    exact hs ▸ hI t _ (hsent t before h)
  · exact fun _ t s s' h hs => ⟨s.2, h, hs.2⟩
  · rintro _ t s s' ⟨before, h, hs⟩ hr
    rw [hr.2, hs]
    simpa using hsent t before h
  · rintro _ t s r s' ⟨before, h, hs⟩ hr
    exact ⟨before, h, by rw [hr.2, hs]; simp⟩
  · exact fun t s h => h

end OtaLink.Lib
