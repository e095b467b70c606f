import OtaLink.Authentic

/-!
# Agreement on the session key

A client that draws a new nonce knows that the device cannot yet have a session for it. Once
the device has proved itself for that nonce, every session the client has proved before is
gone for good, and the pair the client proves next is the only one that the device can ever
accept. So while the client believes to be authenticated and the device is, both hold the
key of that pair.

## Main definitions

* `Waiting`, `Latest`, `Counted` — the three phases of the client.
* `authenticate_attacked`, `request_attacked` — the calls of the client.
* `sessions_agree` — agreement.
-/

namespace OtaLink
open Lib

/-! ## The phases of the client -/

/-- The client has drawn `nonce` and not yet proved a pair with it. -/
structure Waiting (psk : List Octet) (base : List (Happening Octet)) (nonce : List Octet)
    (s : Net) : Prop extends Since psk base s where
  unproved {q : NoncePair Octet} (hq : q.client = nonce) : ¬Proved s.log psk q
  apart {q r : NoncePair Octet} (hq : q.client = nonce) (hd : Drawn s.log q)
    (hp : Proved s.log psk r) : ¬Live s.device r

/-- The client has proved `q`, and the device accepts no other proof of the client. -/
structure Latest (psk : List Octet) (base : List (Happening Octet)) (q : NoncePair Octet)
    (s : Net) : Prop extends Since psk base s where
  chosen : Proved s.log psk q
  latest {r : NoncePair Octet} (hp : Proved s.log psk r) (hl : Live s.device r) : r = q

/-- The client has sent at most `k` requests in the session of `q`, under the numbers up to
`n`. -/
structure Counted (psk : List Octet) (base : List (Happening Octet)) (q : NoncePair Octet)
    (n : UInt16) (k : ℕ) (s : Net) : Prop extends Latest psk base q s where
  counted {c : Command} {m : UInt16} {payload : List Octet}
    (h : Built s.log (q.sessionKey psk) c m payload) : ∃ j < k, m + UInt16.ofNat j = n

/-- The client has sent the request `n` of the session, and nothing else under this number. -/
structure Sent (psk : List Octet) (base : List (Happening Octet)) (q : NoncePair Octet)
    (c : Command) (n : UInt16) (payload : List Octet) (k : ℕ) (s : Net) : Prop
    extends Counted psk base q n k s where
  sent : Built s.log (q.sessionKey psk) c n payload
  unique (hk : k < 65536) {c' : Command} {payload' : List Octet}
    (h : Built s.log (q.sessionKey psk) c' n payload') : c' = c ∧ payload' = payload
  new (hk : k < 65536) : .built (tagged (q.sessionKey psk) c n payload) ∉ base

/-! ### What happens without the client -/

section Rely
variable {psk nonce payload : List Octet} {base : List (Happening Octet)} {q r : NoncePair Octet}
  {c : Command} {n : UInt16} {k : ℕ} {s s' : Net} {esp : EspIdf Octet} {m : Packet Octet}

theorem Waiting.rely (hpsk : IsSecret psk) (h : Waiting psk base nonce s) (hs : s.Rely s') :
    Waiting psk base nonce s' where
  toSince := h.toSince.rely hpsk hs
  unproved hq := fun hp => h.unproved hq (hs.proved.mp hp)
  apart {q r} hq hd hp hl := by
    replace hp := hs.proved.mp hp
    cases hs with
    | reset => simp [Live, Net.reset, Device.restarted, AuthState.cleared] at hl
    | handle hm hesp =>
      rcases live_of_handle h.required hl with ⟨hm, hr⟩ | ⟨hm, hl⟩
      · exact h.not_proved_new hesp hm hr hp
      · rcases drawn_handled.mp hd with ⟨hm', -⟩ | hd
        · simp [hm] at hm'
        · exact h.apart hq hd hp hl

theorem Latest.rely (hpsk : IsSecret psk) (h : Latest psk base q s) (hs : s.Rely s') :
    Latest psk base q s' where
  toSince := h.toSince.rely hpsk hs
  chosen := hs.proved.mpr h.chosen
  latest {r} hp hl := by
    replace hp := hs.proved.mp hp
    cases hs with
    | reset => simp [Live, Net.reset, Device.restarted, AuthState.cleared] at hl
    | handle hm hesp =>
      rcases live_of_handle h.required hl with ⟨hm, hr⟩ | ⟨-, hl⟩
      · exact absurd hp (h.not_proved_new hesp hm hr)
      · exact h.latest hp hl

theorem Counted.rely (hpsk : IsSecret psk) (h : Counted psk base q n k s) (hs : s.Rely s') :
    Counted psk base q n k s' where
  toLatest := h.toLatest.rely hpsk hs
  counted hb := h.counted (hs.built.mp hb)

theorem Sent.rely (hpsk : IsSecret psk) (h : Sent psk base q c n payload k s) (hs : s.Rely s') :
    Sent psk base q c n payload k s' where
  toCounted := h.toCounted.rely hpsk hs
  sent := hs.built.mpr h.sent
  unique hk _ _ hb := h.unique hk (hs.built.mp hb)
  new := h.new

/-! ### What the client sends -/

theorem Waiting.build (h : Waiting psk base nonce s) (A : Authored psk (s.build m))
    (hm : ProvesNothing psk s m) : Waiting psk base nonce (s.build m) where
  toSince := h.toSince.build A
  unproved hq := fun hp => h.unproved hq (hm.proved.mp hp)
  apart hq hd hp := h.apart hq (drawn_built.mp hd) (hm.proved.mp hp)

theorem Latest.build (h : Latest psk base q s) (A : Authored psk (s.build m))
    (hm : ProvesNothing psk s m) : Latest psk base q (s.build m) where
  toSince := h.toSince.build A
  chosen := h.chosen.mono log_subset_build
  latest hp := h.latest (hm.proved.mp hp)

/-- A new nonce separates the handshakes. -/
theorem Since.waiting (h : Since psk base s) (hnew : s.NewClientNonce nonce) :
    Waiting psk base nonce s := by
  have hdrawn : ∀ q : NoncePair Octet, q.client = nonce → ¬Drawn s.log q := by
    rintro q rfl ⟨d, esp, m, hm, hd, hpay, -⟩
    refine hnew _ hm m rfl ?_ hpay
    simp only [Packet.draws, Bool.and_eq_true] at hd
    exact hd.2
  exact ⟨h, fun hq hp => hdrawn _ hq (h.drawn hp), fun hq hd => absurd hd (hdrawn _ hq)⟩

theorem Waiting.challenge (h : Waiting psk base nonce s) (hl : nonce.length = authNonceSize)
    (hpublic : IsPublic nonce) : Waiting psk base nonce (s.build (frame .auth n nonce)) :=
  h.build (h.toAuthored.challenge hl hpublic) (provesNothing_challenge hl)

/-- **The proof.** From now on the device accepts this pair only. -/
theorem Waiting.proof (h : Waiting psk base q.client s) (hd : Drawn s.log q)
    (hpublic : IsPublic q.client) (n' : UInt16) :
    Counted psk base q n' 0 (s.build (frame .auth n (q.proof psk))) where
  toSince := h.toSince.build (h.toAuthored.proof hd hpublic)
  chosen := proved_build.mpr (.inl rfl)
  latest hp hl := by
    rcases proved_build.mp hp with hp | hp
    · exact (proof_inj hp).symm
    · exact absurd hl (h.apart rfl hd hp)
  counted hb := by
    rcases built_build.mp hb with ⟨hp, hm⟩ | hb
    · exact absurd hm (frame_ne_tagged rfl hp)
    · exact absurd (h.toAuthored.built hb) (h.unproved rfl)

theorem provesNothing_proof (h : Proved s.log psk q) :
    ProvesNothing psk s (frame .auth n (q.proof psk)) := fun _ heq => proof_inj heq ▸ h

/-- The proof again. -/
theorem Counted.proof (h : Counted psk base q n k s) (hd : Drawn s.log q)
    (hpublic : IsPublic q.client) (n' : UInt16) :
    Counted psk base q n k (s.build (frame .auth n' (q.proof psk))) where
  toLatest := h.toLatest.build (h.toAuthored.proof hd hpublic) (provesNothing_proof h.chosen)
  counted hb := by
    rcases built_build.mp hb with ⟨hp, hm⟩ | hb
    · exact absurd hm (frame_ne_tagged rfl hp)
    · exact h.counted hb

theorem Counted.mono {k' : ℕ} (h : Counted psk base q n k s) (hk : k ≤ k') :
    Counted psk base q n k' s where
  toLatest := h.toLatest
  counted hb := by
    obtain ⟨j, hj, hn⟩ := h.counted hb
    exact ⟨j, by omega, hn⟩

/-- The counter moves on. -/
theorem Counted.next (h : Counted psk base q n k s) : Counted psk base q (n + 1) (k + 1) s where
  toLatest := h.toLatest
  counted hb := by
    obtain ⟨j, hj, hn⟩ := h.counted hb
    refine ⟨j + 1, by omega, ?_⟩
    rw [UInt16.ofNat_add, ← UInt16.add_assoc, hn]
    rfl

/-- While fewer than 65536 requests have been sent, the next number is a new one. -/
theorem Counted.not_built (h : Counted psk base q n k s) (hk : k + 1 < 65536) :
    ¬Built s.log (q.sessionKey psk) c (n + 1) payload := by
  intro hb
  obtain ⟨j, hj, hn⟩ := h.counted hb
  have hn := congrArg UInt16.toNat hn
  have hj' : (UInt16.ofNat j).toNat = j := UInt16.toNat_ofNat_of_lt' (show j < 65536 by omega)
  have h1 : (1 : UInt16).toNat = 1 := rfl
  have hlt := n.toNat_lt
  rw [UInt16.toNat_add, UInt16.toNat_add, hj', h1] at hn
  omega

/-- **A request** of the session. -/
theorem Counted.request (h : Counted psk base q n k s) (hpsk : IsSecret psk)
    (hp : c.isProtected = true) (hpay : s.Derives payload) :
    Sent psk base q c (n + 1) payload (k + 1)
      (s.build (tagged (q.sessionKey psk) c (n + 1) payload)) where
  toLatest :=
    h.toLatest.build (h.toAuthored.request hpsk h.chosen hp hpay) (provesNothing_tagged hpsk)
  counted {c' n' payload'} hb := by
    rcases built_build.mp hb with ⟨-, hm⟩ | hb
    · have hn : n + 1 = n' := congrArg Packet.sequence hm
      exact ⟨0, by omega, by rw [hn]; simp⟩
    · exact h.next.counted hb
  sent := ⟨hp, List.mem_cons_self⟩
  unique hk {c' payload'} hb := by
    rcases built_build.mp hb with ⟨-, hm⟩ | hb
    · obtain ⟨hpayload, -⟩ := List.append_inj' (congrArg Packet.payload hm) (by simp)
      exact ⟨(Command.code_inj.mp (congrArg Packet.command hm)).symm, hpayload.symm⟩
    · exact absurd hb (h.not_built hk)
  new hk := fun hmem => h.not_built hk ⟨hp, h.since hmem⟩

/-- The request again. -/
theorem Sent.request (h : Sent psk base q c n payload k s) (hpsk : IsSecret psk)
    (hpay : s.Derives payload) :
    Sent psk base q c n payload k (s.build (tagged (q.sessionKey psk) c n payload)) := by
  have hbuilt : ∀ {c' n' payload'}, Built (s.build (tagged (q.sessionKey psk) c n payload)).log
      (q.sessionKey psk) c' n' payload' → Built s.log (q.sessionKey psk) c' n' payload' := by
    intro c' n' payload' hb
    rcases built_build.mp hb with ⟨hp, hm⟩ | hb
    · exact ⟨hp, hm ▸ h.sent.2⟩
    · exact hb
  exact
    { toLatest := h.toLatest.build (h.toAuthored.request hpsk h.chosen h.sent.1 hpay)
        (provesNothing_tagged hpsk)
      counted := fun hb => h.counted (hbuilt hb)
      sent := h.sent.mono log_subset_build
      unique := fun hk _ _ hb => h.unique hk (hbuilt hb)
      new := h.new }

theorem built_open {key body : List Octet} {c' : Command} {m' : UInt16}
    (hp : c.isProtected = false) :
    Built (s.build (frame c n payload)).log key c' m' body ↔ Built s.log key c' m' body := by
  rw [built_build]
  constructor
  · rintro (⟨hp', hm⟩ | hb)
    · exact absurd hm (frame_ne_tagged hp hp')
    · exact hb
  · exact .inr

/-- An unprotected request. -/
theorem Counted.open (h : Counted psk base q n k s) (hpsk : IsSecret psk)
    (hp : c.isProtected = false) (hpay : s.Derives payload) (n' : UInt16) :
    Counted psk base q n k (s.build (frame c n' payload)) where
  toLatest := h.toLatest.build (h.toAuthored.open hpsk hp hpay)
    (provesNothing_open h.toAuthored hpsk hpay)
  counted hb := h.counted ((built_open hp).mp hb)

end Rely

/-! ## The calls of the client -/

section Client
variable {psk : List Octet} {base : List (Happening Octet)} {cfg : HostConfig Octet}
  {Err : HostError → HostState Octet → Net → Prop}

/-- What the client knows between two calls, `k` of them in its session. -/
structure Steady (psk : List Octet) (base : List (Happening Octet)) (t : HostState Octet)
    (k : ℕ) (s : Net) : Prop extends Since psk base s where
  session (ha : t.authenticated = true) : ∃ q : NoncePair Octet,
    t.sessionKey = some (q.sessionKey psk) ∧ Counted psk base q t.sequence k s

theorem Steady.rely (hpsk : IsSecret psk) {t : HostState Octet} {k : ℕ} {s s' : Net}
    (h : Steady psk base t k s) (hs : s.Rely s') : Steady psk base t k s' where
  toSince := h.toSince.rely hpsk hs
  session ha := by
    obtain ⟨q, hk, hq⟩ := h.session ha
    exact ⟨q, hk, hq.rely hpsk hs⟩

/-- Without a session there is nothing to keep. -/
theorem Since.steady {t : HostState Octet} {s : Net} (h : Since psk base s)
    (ha : t.authenticated = false) (k : ℕ) : Steady psk base t k s :=
  ⟨h, fun h => absurd h (by simp [ha])⟩

/-- The handshake. -/
theorem authenticate_attacked (hpsk : IsSecret psk) (hkey : cfg.authKey = some psk)
    (u : HostState Octet) (k : ℕ) :
    Attacked Net.NewClientNonce psk (fun t s => t = u ∧ Steady psk base u k s) (authenticate cfg)
      (fun _ t s => t.authenticated = true ∧ (u.authenticated = true → t = u) ∧
        Steady psk base t (if u.authenticated then k else 0) s)
      (fun _ t s => t.authenticated = false ∧ Since psk base s) := by
  cases ha : u.authenticated
  · refine (authenticate_rule (A := Since psk base) (F := Since psk base)
      (W := Waiting psk base) (S := fun q => Counted psk base q (u.sequence + 1 + 1) 0) hpsk hkey
      ha ?_ ?_ ?_ ?_ ?_ ?_ ?_ ?_ ?_ ?_ ?_ ?_).consequence ?_ ?_ fun _ _ _ h => h
    · exact fun _ _ hs h => h.rely hpsk hs
    · exact fun _ _ _ hs h => h.rely hpsk hs
    · exact fun _ _ _ hs h => h.rely hpsk hs
    · exact fun _ h => h.toAuthored
    · exact fun _ _ h => h.toAuthored
    · exact fun _ _ h => h.toAuthored
    · exact fun s nonce h hnew => h.waiting hnew
    · exact fun s nonce n hl hpublic h => h.challenge hl hpublic
    · exact fun s q n hd hpublic h => h.proof hd hpublic _
    · exact fun s q n hd hpublic h => h.proof hd hpublic _
    · exact fun _ _ h => h.toSince
    · exact fun _ _ h => h.toSince
    · exact fun t s h => ⟨h.1, h.2.toSince⟩
    · rintro _ t s ⟨q, rfl, h⟩
      exact ⟨rfl, fun ha => absurd ha (by simp), h.toSince, fun _ => ⟨q, rfl, h⟩⟩
  · refine (authenticate_authenticated ha).consequence (fun _ _ h => h) ?_ fun _ _ _ h => h.elim
    rintro _ t s ⟨rfl, h⟩
    exact ⟨ha, fun _ => rfl, by simpa using h⟩

/-! ### One request -/

/-- A response to the request `n` of a session under `key` that the client has verified. -/
structure Confirmed (psk : List Octet) (base : List (Happening Octet)) (key : List Octet)
    (c : Command) (n : UInt16) (payload : List Octet) (k : ℕ) (r : Packet Octet) (s : Net) :
    Prop where
  session : ∃ q : NoncePair Octet, key = q.sessionKey psk ∧ Proved s.log psk q
  signed : Signed s.log key c r.command n r.payload
  sent : Built s.log key c n payload
  new (hk : k < 65536) : .built (tagged key c n payload) ∉ base
  executed (hk : k < 65536) (hack : r.command = Command.ack.code) :
    r.payload = statusPayload .ok ∧ Executed s.log key c n payload

theorem Steady.next {t : HostState Octet} {k : ℕ} {s : Net} (h : Steady psk base t k s) :
    Steady psk base (t.at (t.sequence + 1)) (k + 1) s where
  toSince := h.toSince
  session ha := by
    obtain ⟨q, hk, hq⟩ := h.session ha
    exact ⟨q, hk, hq.next⟩

theorem Steady.mono {t : HostState Octet} {k k' : ℕ} {s : Net} (h : Steady psk base t k s)
    (hk : k ≤ k') : Steady psk base t k' s where
  toSince := h.toSince
  session ha := by
    obtain ⟨q, hkey, hq⟩ := h.session ha
    exact ⟨q, hkey, hq.mono hk⟩

/-- The request of a client in its session, on the link. -/
structure OnLink (psk : List Octet) (base : List (Happening Octet)) (cfg : HostConfig Octet)
    (u : HostState Octet) (c : Command) (payload : List Octet) (k : ℕ) (s : Net) : Prop
    extends Steady psk base (u.at (u.sequence + 1)) (k + 1) s where
  request (hg : cfg.guards c = true) : ∃ q : NoncePair Octet,
    u.sessionKey = some (q.sessionKey psk) ∧
      Sent psk base q c (u.sequence + 1) payload (k + 1) s

variable {u : HostState Octet} {c : Command} {payload : List Octet} {k : ℕ} {s s' : Net}

theorem OnLink.rely (hpsk : IsSecret psk) (h : OnLink psk base cfg u c payload k s)
    (hs : s.Rely s') : OnLink psk base cfg u c payload k s' where
  toSteady := h.toSteady.rely hpsk hs
  request hg := by
    obtain ⟨q, hk, hq⟩ := h.request hg
    exact ⟨q, hk, hq.rely hpsk hs⟩

section Send
variable (hpsk : IsSecret psk) (hkey : cfg.authKey = some psk)
  (hpay : ∀ s : Net, base ⊆ s.log → s.Derives payload)
include hpsk hkey hpay

theorem Steady.send (h : Steady psk base u k s)
    (hga : cfg.guards c = true → u.authenticated = true) :
    OnLink psk base cfg u c payload k
      (s.build (callPacket cfg u c (u.sequence + 1) payload)) := by
  cases hg : cfg.guards c
  · have hp : c.isProtected = false := by simpa [HostConfig.guards, hkey] using hg
    rw [callPacket_open hg]
    refine ⟨⟨h.toSince.build (h.toAuthored.open hpsk hp (hpay s h.since)), fun ha => ?_⟩,
      fun hg' => absurd hg' (by simp [hg])⟩
    obtain ⟨q, hk, hq⟩ := h.session ha
    exact ⟨q, hk, (hq.open hpsk hp (hpay s h.since) _).next⟩
  · have hp : c.isProtected = true := by simpa [HostConfig.guards, hkey] using hg
    obtain ⟨q, hk, hq⟩ := h.session (hga hg)
    rw [callPacket_guarded hg hk]
    have hsent := hq.request hpsk hp (hpay s h.since)
    exact ⟨⟨hsent.toSince, fun _ => ⟨q, hk, hsent.toCounted⟩⟩, fun _ => ⟨q, hk, hsent⟩⟩

theorem OnLink.again (h : OnLink psk base cfg u c payload k s) :
    OnLink psk base cfg u c payload k
      (s.build (callPacket cfg u c (u.sequence + 1) payload)) := by
  cases hg : cfg.guards c
  · have hp : c.isProtected = false := by simpa [HostConfig.guards, hkey] using hg
    rw [callPacket_open hg]
    refine ⟨⟨h.toSince.build (h.toAuthored.open hpsk hp (hpay s h.since)), fun ha => ?_⟩,
      fun hg' => absurd hg' (by simp [hg])⟩
    obtain ⟨q, hk, hq⟩ := h.session ha
    exact ⟨q, hk, hq.open hpsk hp (hpay s h.since) _⟩
  · obtain ⟨q, hk, hq⟩ := h.request hg
    rw [callPacket_guarded hg hk]
    have hsent := hq.request hpsk (hpay s h.since)
    exact ⟨⟨hsent.toSince, fun _ => ⟨q, hk, hsent.toCounted⟩⟩, fun _ => ⟨q, hk, hsent⟩⟩

omit hkey hpay in
/-- A verified response is one the device has signed. -/
theorem OnLink.confirmed {r : Packet Octet} (h : OnLink psk base cfg u c payload k s)
    (hr : s.Derives r.payload) (hg : cfg.guards c = true)
    (hv : Verified cfg u c (u.sequence + 1) r) : ∃ key, u.sessionKey = some key ∧
      Confirmed psk base key c (u.sequence + 1) payload (k + 1) (cfg.strip c r) s := by
  obtain ⟨q, hk, hq⟩ := h.request hg
  obtain ⟨key, hk', hbody⟩ := hv hg
  obtain rfl : q.sessionKey psk = key := Option.some.inj (hk.symm.trans hk')
  have hsigned : Signed s.log (q.sessionKey psk) c r.command (u.sequence + 1)
      (cfg.strip c r).payload := by
    refine signed_of_derives hpsk fun a ha => h.toAuthored.derives hr a ?_
    rw [hbody]
    exact List.mem_append_right _ ha
  refine ⟨_, hk, ⟨q, rfl, hq.chosen⟩, by rwa [command_strip], hq.sent, hq.new, fun hk hack => ?_⟩
  rw [command_strip] at hack
  rw [hack] at hsigned
  obtain ⟨hok, payload', hx⟩ := h.toAuthored.acked hsigned
  obtain ⟨-, rfl⟩ := hq.unique hk (h.toAuthored.executed hx)
  exact ⟨hok, hx⟩

/-- The rule for one pass of `request`. -/
theorem requestOnce_attacked {again : Option (HostTask Octet (Packet Octet))}
    {Ok : Packet Octet → HostState Octet → Net → Prop}
    {Err : HostError → HostState Octet → Net → Prop}
    (hga : cfg.guards c = true → u.authenticated = true)
    (hErr : ∀ e s, Steady psk base (u.at (u.sequence + 1)) (k + 1) s →
      Err e (u.at (u.sequence + 1)) s)
    (hagain : ∀ task, again = some task →
      Attacked Net.NewClientNonce psk (fun _ s => Since psk base s) task Ok Err)
    (hOk : ∀ r t s, Steady psk base t (k + 1) s →
      (t = u.at (u.sequence + 1) ∨ t = { u.at (u.sequence + 1) with
        sessionKey := none, authenticated := false }) →
      (cfg.guards c = true → ∃ key, u.sessionKey = some key ∧
        Confirmed psk base key c t.sequence payload (k + 1) r s) → Ok r t s) :
    Attacked Net.NewClientNonce psk (fun t s => t = u ∧ Steady psk base u k s)
      (requestOnce cfg c payload again) Ok Err := by
  by_cases hlen : payload.length + (if cfg.guards c then 16 else 0) ≤ protocolMaxPayload
  swap
  · exact requestOnce_tooLarge u (B := fun s => Steady psk base u k s) (by omega)
      fun e s h => hErr e s h.next
  refine requestOnce_rule u (B := fun s => Steady psk base u k s)
    (A := fun r s => OnLink psk base cfg u c payload k s ∧ s.Derives r.payload) hlen
    (fun _ _ s h => hErr _ s h.next) (fun _ => ?_) ?_ ?_ ?_
  · refine requestPacket_attacked _ (fun _ _ hs h => h.rely hpsk hs)
      (fun _ _ hs h => h.rely hpsk hs)
      (fun s h => h.elim (fun h => h.toAuthored) fun h => h.toAuthored)
      (fun s h => h.send hpsk hkey hpay hga)
      (fun s h => h.again hpsk hkey hpay) ?_
    exact fun s h => h.elim (fun h => hErr _ s h.next) fun h => hErr _ s h.toSteady
  · exact fun _ e r s h _ _ => hErr e s h.1.toSteady
  · exact fun task ht r _ _ => (hagain task ht).pre fun t s h => h.2.1.toSince
  · rintro r t s ht ⟨h, hr⟩ hv
    rcases ht with rfl | ⟨-, rfl⟩
    · exact hOk _ _ s h.toSteady (.inl rfl) fun hg => h.confirmed hpsk hr hg hv
    · exact hOk _ _ s (h.toSince.steady rfl _) (.inr rfl) fun hg => h.confirmed hpsk hr hg hv

omit hpsk hkey hpay in
theorem Confirmed.mono {key : List Octet} {n : UInt16} {k' : ℕ} {r : Packet Octet}
    (h : Confirmed psk base key c n payload k r s) (hk : k ≤ k') :
    Confirmed psk base key c n payload k' r s :=
  ⟨h.session, h.signed, h.sent, fun h' => h.new (by omega), fun h' => h.executed (by omega)⟩

/-- **The rule for `request`.** -/
theorem request_attacked (u : HostState Octet) (k : ℕ) :
    Attacked Net.NewClientNonce psk (fun t s => t = u ∧ Steady psk base u k s)
      (request cfg c payload)
      (fun r t s => Steady psk base t
          (if u.authenticated = true ∧ t.sessionKey = u.sessionKey then k + 1 else 1) s ∧
        (cfg.guards c = true → ∃ key, (t.authenticated = true → t.sessionKey = some key) ∧
          Confirmed psk base key c t.sequence payload (if u.authenticated then k + 1 else 1) r s))
      (fun _ t s => Steady psk base t
        (if u.authenticated = true ∧ t.sessionKey = u.sessionKey then k + 1 else 1) s) := by
  have hone : ∀ t : HostState Octet, 1 ≤
      if u.authenticated = true ∧ t.sessionKey = u.sessionKey then k + 1 else 1 := by
    intro t
    split <;> omega
  unfold request
  refine Task.Spec.bind (R := fun _ t s => ((cfg.guards c = true → t.authenticated = true) ∧
    (u.authenticated = true → t = u)) ∧ Steady psk base t (if u.authenticated then k else 0) s)
    ?_ fun _ => ?_
  · refine Task.Spec.ite (fun _ => ?_) (fun hg => ?_)
    · exact (authenticate_attacked hpsk hkey u k).consequence (fun _ _ h => h)
        (fun _ _ _ h => ⟨⟨fun _ => h.1, h.2.1⟩, h.2.2⟩) fun _ _ _ h => h.2.steady h.1 _
    · refine Task.Spec.pure ?_
      rintro t s ⟨rfl, h⟩
      refine ⟨⟨fun hg' => absurd hg' hg, fun _ => rfl⟩, ?_⟩
      cases ha : t.authenticated
      · exact h.toSince.steady ha _
      · simpa [ha] using h
  refine Task.Spec.with_record fun v ⟨hga, hu⟩ => ?_
  -- The count of `requestOnce` is the one of the call.
  have hcount : ∀ t s, t.sessionKey = v.sessionKey →
      Steady psk base t ((if u.authenticated then k else 0) + 1) s → Steady psk base t
        (if u.authenticated = true ∧ t.sessionKey = u.sessionKey then k + 1 else 1) s := by
    intro t s ht h
    cases ha : u.authenticated
    · simpa [ha] using h
    · rw [hu ha] at ht
      simpa [ha, ht] using h
  refine requestOnce_attacked hpsk hkey hpay hga ?_ ?_ ?_
  · exact fun e s h => hcount (v.at (v.sequence + 1)) s rfl h
  · -- The device demands another session.
    rintro task ⟨⟩
    refine Task.Spec.bind (R := fun _ t s => t.authenticated = false ∧ Since psk base s) ?_
      fun _ => ?_
    · refine clearAuthentication_spec.consequence (fun _ _ h => h) ?_ (fun _ _ _ h => h)
      rintro _ t s ⟨t₀, h, rfl⟩
      exact ⟨rfl, h⟩
    refine Task.Spec.with_record fun w hw => ?_
    refine Task.Spec.bind (R := fun _ t s => t.authenticated = true ∧ Steady psk base t 0 s)
      ((authenticate_attacked hpsk hkey w 0).consequence
        (fun t s h => ⟨h.1, h.2.steady hw 0⟩) (fun _ t s h => ⟨h.1, by simpa [hw] using h.2.2⟩)
        fun _ _ _ h => h.2.steady h.1 _) fun _ => ?_
    refine Task.Spec.with_record fun v ha => requestOnce_attacked hpsk hkey hpay (fun _ => ha)
      (fun e s h => h.mono (hone _)) (fun _ h => by cases h) ?_
    intro r t s h ht hr
    refine ⟨h.mono (hone t), fun hg => ?_⟩
    obtain ⟨key, hk, hr⟩ := hr hg
    refine ⟨key, fun ha => ?_, hr.mono (by split <;> omega)⟩
    rcases ht with rfl | rfl
    · exact hk
    · cases ha
  · intro r t s h ht hr
    refine ⟨?_, fun hg => ?_⟩
    · rcases ht with rfl | rfl
      · exact hcount _ s rfl h
      · exact h.toSince.steady rfl _
    · obtain ⟨key, hk, hr⟩ := hr hg
      refine ⟨key, fun ha => ?_, hr.mono (by split <;> simp)⟩
      rcases ht with rfl | rfl
      · exact hk
      · cases ha

end Send

/-! ## Runs -/

theorem Confirmed.log {key : List Octet} {n : UInt16} {r : Packet Octet}
    (h : Confirmed psk base key c n payload k r s) (hl : s.log ⊆ s'.log) :
    Confirmed psk base key c n payload k r s' where
  session := by
    obtain ⟨q, hq, hp⟩ := h.session
    exact ⟨q, hq, hp.mono hl⟩
  signed := h.signed.mono hl
  sent := h.sent.mono hl
  new := h.new
  executed hk hack := ⟨(h.executed hk hack).1, (h.executed hk hack).2.mono hl⟩

theorem Steady.since_of {t : HostState Octet} {base' : List (Happening Octet)}
    (h : Steady psk base t k s) (hb : base' ⊆ s.log) : Steady psk base' t k s where
  toSince := ⟨h.toAuthored, hb⟩
  session ha := by
    obtain ⟨q, hkey, hq⟩ := h.session ha
    exact ⟨q, hkey, ⟨⟨⟨h.toAuthored, hb⟩, hq.chosen, hq.latest⟩, hq.counted⟩⟩

section Run
variable (hpsk : IsSecret psk) (hkey : cfg.authKey = some psk) {t t' : HostState Octet}
include hpsk hkey

/-- The end of `authenticate`, however it ends. -/
theorem Steady.authenticated {r : Except HostError Unit} (h : Steady psk base t k s)
    (hr : (attackerEnv Net.NewClientNonce).Reaches (authenticate cfg t, s) (.ret (r, t'), s')) :
    Steady psk base t' (if t.authenticated then k else 0) s' := by
  have hend := (authenticate_attacked hpsk hkey t k).reaches
    (fun _ _ _ _ hs h => ⟨h.1, h.2.1, h.2.2.rely hpsk hs⟩)
    (fun _ _ _ _ hs h => ⟨h.1, h.2.rely hpsk hs⟩) ⟨rfl, h⟩ hr
  cases r with
  | ok => exact hend.2.2
  | error => exact hend.2.steady hend.1 _

/-- The end of `request`, however it ends. -/
theorem Steady.requested {r : Except HostError (Packet Octet)} (h : Steady psk base t k s)
    (hp : s.Derives payload)
    (hr : (attackerEnv Net.NewClientNonce).Reaches (request cfg c payload t, s)
      (.ret (r, t'), s')) :
    Steady psk s.log t'
        (if t.authenticated = true ∧ t'.sessionKey = t.sessionKey then k + 1 else 1) s' ∧
      ∀ p, r = .ok p → cfg.guards c = true →
        ∃ key, (t'.authenticated = true → t'.sessionKey = some key) ∧
          Confirmed psk s.log key c t'.sequence payload (if t.authenticated then k + 1 else 1) p
            s' := by
  have hend := (request_attacked hpsk hkey
    (show ∀ s' : Net, s.log ⊆ s'.log → s'.Derives payload from fun _ hl => hp.mono hl) t k).reaches
    (fun _ _ _ _ hs h => ⟨h.1.rely hpsk hs, fun hg => by
      obtain ⟨key, hk, hc⟩ := h.2 hg
      exact ⟨key, hk, hc.log hs.subset⟩⟩)
    (fun _ _ _ _ hs h => h.rely hpsk hs) ⟨rfl, h.since_of (List.Subset.refl _)⟩ hr
  cases r with
  | ok p =>
    refine ⟨hend.1, ?_⟩
    rintro p ⟨⟩ hg
    exact hend.2 hg
  | error e => exact ⟨hend, fun _ h => by cases h⟩

/-- **The run lemma.** -/
theorem Run.steady {d₀ : Device Octet} (h₀ : Authored psk ⟨d₀, []⟩)
    (h : Run Net.NewClientNonce cfg d₀ t s k) :
    Steady psk [] t k s := by
  induction h with
  | opened n => exact Since.steady ⟨h₀, List.nil_subset _⟩ rfl _
  | idle _ hs ih => exact ih.rely hpsk hs
  | authenticated _ hr ih => exact ih.authenticated hpsk hkey hr
  | requested _ hp hr ih => exact (ih.requested hpsk hkey hp hr).1.since_of (List.nil_subset _)

end Run

end Client

/-! ## Agreement -/

/-- The record of a client that is at `p`: a `TimeoutError` leaves its session as it is, so
this is the record it ends with if every timer expires from now on. -/
def RecordAt {α : Type}
    (p : Prog Ask (Answer Octet) (Packet Octet) (Except HostError α × HostState Octet)) (s : Net)
    (t : HostState Octet) : Prop := ∃ r s', (attackerEnv Net.NewClientNonce).Expires p s (r, t) s'

/-- Expired timers change nothing on the device. -/
theorem device_of_expires {α : Type} {p : Prog Ask (Answer Octet) (Packet Octet) α} {s s' : Net}
    {a : α} (h : (attackerEnv Net.NewClientNonce).Expires p s a s') : s'.device = s.device :=
  h.const (fun _ q _ _ h => by cases q; rw [h.2.2]) (fun _ _ _ h => by rw [h]; rfl)
    fun _ _ _ h => by rw [h.1]

section Moment
variable {psk : List Octet} {cfg : HostConfig Octet} {d₀ : Device Octet} {α : Type} {s : Net}
  {p : Prog Ask (Answer Octet) (Packet Octet) (Except HostError α × HostState Octet)}
  (hpsk : IsSecret psk) (hkey : cfg.authKey = some psk) (h₀ : Authored psk ⟨d₀, []⟩)
include hpsk hkey h₀

/-- Every moment may be the last one of its call. -/
theorem Moment.steady (h : Moment Net.NewClientNonce cfg d₀ p s) {r : Except HostError α}
    {t : HostState Octet}
    {s' : Net} (he : (attackerEnv Net.NewClientNonce).Expires p s (r, t) s') :
    ∃ k, Steady psk [] t k s' := by
  cases h with
  | between h =>
    cases he
    exact ⟨_, h.steady hpsk hkey h₀⟩
  | authenticating h hr =>
    exact ⟨_, (h.steady hpsk hkey h₀).authenticated hpsk hkey (hr.trans he.reaches)⟩
  | requesting h hp hr =>
    exact ⟨_, ((h.steady hpsk hkey h₀).requested hpsk hkey hp (hr.trans he.reaches)).1.since_of
      (List.nil_subset _)⟩

end Moment

/-- **Agreement.** Whatever has happened, while the client believes to be authenticated and
the device is, both hold the key of one nonce pair, which the device has drawn and the
client has proved. -/
theorem sessions_agree {n : ℕ} {d₀ : Device Octet}
    (h₀ : otaLinkStartWithConfig ⟨some (pskOctets n), true⟩ = some d₀) {cfg : HostConfig Octet}
    (hkey : cfg.authKey = some (pskOctets n)) {α : Type}
    {p : Prog Ask (Answer Octet) (Packet Octet) (Except HostError α × HostState Octet)} {s : Net}
    (h : Moment Net.NewClientNonce cfg d₀ p s) {t : HostState Octet} (ht : RecordAt p s t)
    (hclient : t.authenticated = true) (hdevice : s.device.auth.authenticated = true) :
    ∃ q : NoncePair Octet, t.sessionKey = some (q.sessionKey (pskOctets n)) ∧
      s.device.auth.sessionKey = q.sessionKey (pskOctets n) ∧
      s.device.auth.clientNonce = q.client ∧ s.device.auth.serverNonce = q.server ∧
      Drawn s.log q ∧ Proved s.log (pskOctets n) q := by
  obtain ⟨hpsk, hstart⟩ := authored_otaLinkStartWithConfig h₀
  obtain ⟨r, s', he⟩ := ht
  obtain ⟨k, hsteady⟩ := h.steady hpsk hkey hstart he
  obtain ⟨q, hk, hq⟩ := hsteady.session hclient
  have hdevice' : s'.device = s.device := device_of_expires he
  -- The pair of the device has been proved, so it is the latest one of the client.
  have hpair : s.device.auth.pair = q := by
    rw [← hdevice'] at hdevice ⊢
    exact hq.latest (hq.toAuthored.proved hdevice) ⟨.inr hdevice, rfl⟩
  have A := h.authored hpsk hkey hstart
  obtain ⟨hsession, hdrawn⟩ := A.live (.inr hdevice)
  subst hpair
  exact ⟨_, hk, hsession, rfl, rfl, hdrawn, A.proved hdevice⟩

/-- At its end both hold the key. -/
theorem sessions_agree_handshake : ∃ q : NoncePair Octet,
    sampleHandshake.1.2.sessionKey = some (q.sessionKey (pskOctets 1)) ∧
      sampleHandshake.2.2.1.device.auth.sessionKey = q.sessionKey (pskOctets 1) ∧
      sampleHandshake.2.2.1.device.auth.clientNonce = q.client ∧
      sampleHandshake.2.2.1.device.auth.serverNonce = q.server ∧
      Drawn sampleHandshake.2.2.1.log q ∧ Proved sampleHandshake.2.2.1.log (pskOctets 1) q :=
  @sessions_agree 1 lockedDevice rfl ⟨2, some (pskOctets 1)⟩ rfl Unit _ _
    (.authenticating (.opened 0) (reaches_sampleHandshake fun _ h => h)) _ ⟨_, _, .ret⟩
    (by decide +kernel) (by decide +kernel)

end OtaLink
