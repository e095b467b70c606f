import OtaLink.Attacker

/-!
# An attacker who does nothing

The run in which every packet arrives and every response is read is one of the runs the
attacker may choose, as long as the nonces are new. It is a computation, and so is the
check of its nonces.

## Main definitions

* `honest` — the device on the link of an attacker who forwards everything.
* `reaches_against` — its runs are runs under attack.
-/

namespace OtaLink
open Lib

/-! ## What can be checked -/

instance (payload : List Octet) : Decidable (IsPublic payload) :=
  decidable_of_iff (payload = octets (payload.map toByte)) <| by
    constructor
    · exact fun h => ⟨_, h⟩
    · rintro ⟨bytes, rfl⟩
      simp [octets, Function.comp_def, toByte]

/-- The octets that can be sent. -/
def areOctets (payload : List Octet) : Bool := payload.all fun a =>
  match a with
  | .nil | .cons .. => false
  | _ => true

theorem isOctet_of_areOctets {payload : List Octet} (h : areOctets payload = true) :
    ∀ a ∈ payload, a.IsOctet := by
  intro a ha
  have := List.all_eq_true.mp h a ha
  cases a <;> trivial

/-- A challenge with this client nonce. -/
def Happening.asks (nonce : List Octet) (x : Happening Octet) : Bool :=
  x.packet?.any fun m => m.isChallenge && m.payload == nonce

/-- A challenge for which this server nonce is drawn. -/
def Happening.drew (nonce : List Octet) : Happening Octet → Bool
  | .handled _ esp m => m.draws && esp.fillRandom == nonce
  | _ => false

section Decide
variable {s : Net} {nonce : List Octet} {esp : EspIdf Octet} {m : Packet Octet}

instance : Decidable (s.NewClientNonce nonce) :=
  decidable_of_iff (∀ x ∈ s.log, x.asks nonce = false) <| by
    simp [Net.NewClientNonce, Happening.asks, Option.any_eq_false]

instance : Decidable (s.NewServerNonce nonce) :=
  decidable_of_iff (∀ x ∈ s.log, x.drew nonce = false) <| by
    constructor
    · intro h d esp m hm hd hn
      simpa [Happening.drew, hd, hn] using h _ hm
    · intro h x hx
      cases x with
      | handled d esp m =>
        have := h d esp m hx
        simp only [Happening.drew, Bool.and_eq_false_iff, beq_eq_false_iff_ne]
        by_cases hd : m.draws = true
        · exact .inr (this hd)
        · exact .inl (by simpa using hd)
      | _ => rfl

instance : Decidable (s.Allows esp m) :=
  decidable_of_iff (IsPublic esp.fillRandom ∧ IsPublic esp.infoPayload ∧
    (m.draws = true → s.NewServerNonce esp.fillRandom))
    ⟨fun h => ⟨h.1, h.2.1, h.2.2⟩, fun h => ⟨h.nonce, h.info, h.fresh⟩⟩

end Decide

/-! ## The run without interference -/

/-- What has been on the link can be made again. -/
theorem Net.derives_of_said {s : Net} {x : Happening Octet} {m : Packet Octet} (hx : x ∈ s.log)
    (hm : m ∈ x.said) (ho : areOctets m.payload = true) : s.Derives m.payload :=
  fun a ha => .seen ⟨x, hx, m, hm, ha⟩ (isOctet_of_areOctets ho a ha)

/-- Everything arrives. The flag says whether all nonces so far were new. -/
def honest (nonce : Answer Octet .urandom) (esp : EspIdf Octet) :
    HostPartner Octet (Net × Bool) where
  ask s
    | .urandom => (nonce, s.1, s.2 && decide (IsPublic nonce.1 ∧ s.1.NewClientNonce nonce.1))
  serve s m :=
    (sent ((s.1.build m).device.step esp m).2).head?.map fun r =>
      (r, (s.1.build m).handle esp m, s.2 && decide ((s.1.build m).Allows esp m) &&
        areOctets m.payload && areOctets r.payload)

variable {nonce : Answer Octet .urandom} {esp : EspIdf Octet} {α : Type}

/-- The flag is never set again. -/
theorem flag_of_against (p : Prog Ask (Answer Octet) (Packet Octet) α) :
    ∀ (inbox : Option (Packet Octet)) (s : Net × Bool),
      (p.against (honest nonce esp) inbox s).2.2.2 = true → s.2 = true := by
  induction p with
  | ret a => exact fun _ _ h => h
  | ask q k ih =>
    intro inbox s h
    cases q
    have := ih _ _ _ h
    simp only [honest, Bool.and_eq_true] at this
    exact this.1
  | send m next ih =>
    intro inbox s h
    simp only [Prog.against] at h
    cases hs : (honest nonce esp).serve s m with
    | none =>
      rw [hs] at h
      exact ih _ _ h
    | some r =>
      rw [hs] at h
      have hflag := ih _ _ h
      obtain ⟨r', -, rfl⟩ := Option.map_eq_some_iff.mp hs
      have hflag : (((s.2 && _) && _) && _) = true := hflag
      simp only [Bool.and_eq_true] at hflag
      exact hflag.1.1.1
  | recv accept k ih => exact fun inbox s h => ih _ _ _ h

/-- **The run without interference** is one of the runs under attack. -/
theorem reaches_against {new : Net → List Octet → Prop}
    (hnew : ∀ s : Net, s.NewClientNonce nonce.1 → new s nonce.1)
    (p : Prog Ask (Answer Octet) (Packet Octet) α) :
    ∀ (inbox : Option (Packet Octet)) (s : Net × Bool),
      (∀ r, inbox = some r → s.1.Derives r.payload) →
      (p.against (honest nonce esp) inbox s).2.2.2 = true →
      (attackerEnv new).Reaches (p, s.1) (.ret (p.against (honest nonce esp) inbox s).1,
        (p.against (honest nonce esp) inbox s).2.2.1) := by
  induction p with
  | ret a => exact fun _ _ _ _ => .refl
  | ask q k ih =>
    intro inbox s hinbox h
    cases q
    let flag := s.2 && decide (IsPublic nonce.1 ∧ s.1.NewClientNonce nonce.1)
    have hflag : flag = true := flag_of_against (k nonce) inbox (s.1, flag) h
    have hrest := ih nonce inbox (s.1, flag) hinbox h
    simp only [flag, Bool.and_eq_true, decide_eq_true_eq] at hflag
    exact .head (.ask ⟨hflag.2.1, hnew _ hflag.2.2, rfl⟩) hrest
  | send m next ih =>
    intro inbox s hinbox h
    obtain ⟨r, hsent, -⟩ := sent_handle (s.1.build m).device esp m
    rw [← sent_step] at hsent
    have hserve : (honest nonce esp).serve s m = some (r, (s.1.build m).handle esp m,
        s.2 && decide ((s.1.build m).Allows esp m) && areOctets m.payload &&
          areOctets r.payload) := by
      simp [honest, hsent]
    simp only [Prog.against, hserve] at h ⊢
    have hflag := flag_of_against _ _ _ h
    simp only [Bool.and_eq_true, decide_eq_true_eq] at hflag
    refine .head (.send rfl) (.head (.rely (.handle ?_ hflag.1.1.2)) (ih _ _ ?_ h))
    · exact Net.derives_of_said List.mem_cons_self (List.mem_singleton_self m) hflag.1.2
    · rintro r' ⟨⟩
      exact Net.derives_of_said List.mem_cons_self (by simp [Happening.said, hsent]) hflag.2
  | recv accept k ih =>
    intro inbox s hinbox h
    refine .head (.recv ⟨rfl, ?_⟩) (ih _ _ _ (by simp) h)
    intro r hr
    obtain ⟨hr, ha⟩ := Option.filter_eq_some_iff.mp hr
    exact ⟨ha, hinbox r hr⟩

/-- A handshake that nobody disturbs. -/
def sampleHandshake : (Except HostError Unit × HostState Octet) ×
    Option (Packet Octet) × Net × Bool :=
  (authenticate ⟨2, some (pskOctets 1)⟩ (.opened 0)).against
    (honest ⟨sampleClientNonce, length_sampleClientNonce⟩ sampleEsp) none (⟨lockedDevice, []⟩, true)

theorem reaches_sampleHandshake {new : Net → List Octet → Prop}
    (hnew : ∀ s : Net, s.NewClientNonce sampleClientNonce → new s sampleClientNonce) :
    (attackerEnv new).Reaches (authenticate ⟨2, some (pskOctets 1)⟩ (.opened 0), ⟨lockedDevice, []⟩)
      (.ret sampleHandshake.1, sampleHandshake.2.2.1) :=
  reaches_against hnew _ none (⟨lockedDevice, []⟩, true) (by simp) (by decide +kernel)

end OtaLink
