import OtaLink.Device
import OtaLink.Host
import OtaLink.Lib.Fifo

/-!
# Client and device on one link

The device is a server behind a FIFO link and the client stops and waits. A world is the
device with the trace of everything it has done. The rules here carry the flight rule
through the client: one packet, the handshake, and one call with the single
re-authentication it may need.

## Main definitions

* `World`, `deviceServer`, `linkEnv` — the device as the environment of the client.
* `Handshake`, `authenticate_spec` — what `authenticate` needs and gives.
* `requestOnce_spec` — the rule for one pass of `request`.
-/

namespace OtaLink
open Lib

variable {β : Type} [Alphabet β]

/-- The device and all it has done. -/
structure World (β : Type) where
  device : Device β
  trace : List (Event β)

/-- The world after the device has handled `q`. -/
def World.step (w : World β) (esp : EspIdf β) (q : Packet β) : World β :=
  ⟨(w.device.step esp q).1, w.trace ++ (w.device.step esp q).2⟩

/-- The world after the device has lost power. -/
def World.reset (w : World β) : World β := ⟨w.device.restarted, w.trace ++ [.reset]⟩

/-- The device as a server. Its platform answers as `allowed` permits, and it loses power
at any time if `resets` is set. -/
def deviceServer (resets : Bool) (allowed : EspIdf β → Bool) :
    Server (Packet β) (World β) (EspIdf β) where
  serve w esp q :=
    if allowed esp then
      (sent (w.device.step esp q).2).head?.map fun r => (r, w.step esp q)
    else none
  tick w := if resets then some w.reset else none

/-- The client's side of the link. -/
abbrev linkEnv (resets : Bool) (allowed : EspIdf β → Bool) (P : Policy (Packet β) (World β)) :
    Env Ask (Answer β) (Packet β) (Link (Packet β) (World β)) :=
  fifo (deviceServer resets allowed) P

section Serve
variable {resets : Bool} {allowed : EspIdf β → Bool} {w w' : World β} {q r : Packet β}

theorem sent_step (d : Device β) (esp : EspIdf β) (packet : Packet β) :
    sent (d.step esp packet).2 = sent (d.handle esp packet).2 := by
  simp [Device.step, Event.sent?]

/-- The device serves a packet with the one frame it writes for it. -/
theorem serves_iff : (deviceServer resets allowed).Serves w q r w' ↔
    ∃ esp, allowed esp = true ∧ sent (w.device.step esp q).2 = [r] ∧ w' = w.step esp q := by
  constructor
  · rintro ⟨esp, h⟩
    simp only [deviceServer] at h
    split at h
    · obtain ⟨r', hr', heq⟩ := Option.map_eq_some_iff.mp h
      cases heq
      obtain ⟨r'', hs, -⟩ := sent_handle w.device esp q
      rw [← sent_step] at hs
      rw [hs, List.head?_cons, Option.some.injEq] at hr'
      exact ⟨esp, ‹_›, by rw [hs, hr'], rfl⟩
    · cases h
  · rintro ⟨esp, ha, hs, rfl⟩
    exact ⟨esp, by simp [deviceServer, ha, hs]⟩

theorem sequence_of_serves (h : (deviceServer resets allowed).Serves w q r w') :
    r.sequence = q.sequence := by
  obtain ⟨esp, -, hs, -⟩ := serves_iff.mp h
  obtain ⟨r', hs', hseq⟩ := sent_handle w.device esp q
  rw [sent_step, hs'] at hs
  cases hs
  exact hseq

theorem tick_iff : (deviceServer resets allowed).tick w = some w' ↔
    resets = true ∧ w' = w.reset := by
  simp only [deviceServer]
  split <;> simp_all [eq_comm]

end Serve

/-- The next sequence number is another one. -/
theorem sequence_ne (n : UInt16) : n ≠ n + 1 := by
  intro h
  have := congrArg UInt16.toNat h
  rw [UInt16.toNat_add] at this
  have hlt := n.toNat_lt
  have h1 : (1 : UInt16).toNat = 1 := rfl
  omega

section Rules
variable {resets : Bool} {allowed : EspIdf β → Bool} {P : Policy (Packet β) (World β)}
  {I : World β → Prop} {cfg : HostConfig β}
  {Err : HostError → HostState β → Link (Packet β) (World β) → Prop}

/-- Some timer after which the client gives up may expire. -/
def GivesUp (P : Policy (Packet β) (World β)) (cfg : HostConfig β) : Prop :=
  ∀ e, cfg.retries = e + 1 → P.expire e = true

/-- The link after the client has accepted the reply `r` to `m`. -/
def Accepted (P : Policy (Packet β) (World β)) (m : Packet β)
    (After : List (Reply (Packet β) (World β)) → World β → Prop) (r : Packet β)
    (L : Link (Packet β) (World β)) : Prop :=
  P.accept L.server r = true ∧ ∃ q, q.response = r ∧ Taken Packet.sequence m After q L

/-- The rule for `_request_packet`, with an invariant of the whole link. -/
theorem requestPacket_link {old m : Packet β} {Before : World β → Prop}
    {After : List (Reply (Packet β) (World β)) → World β → Prop}
    {J : Link (Packet β) (World β) → Prop} (t₀ : HostState β)
    (H : Exchange Packet.sequence (deviceServer resets allowed) P old m Before After)
    (hJ : ∀ L, Flight Packet.sequence old m Before After L → J L)
    (htimeout : ∀ t L, GivesUp P cfg → Flight Packet.sequence old m Before After L →
      Err .timeout t L) :
    Task.Spec (linkEnv resets allowed P) J
      (fun t L => t = t₀ ∧ Idle Packet.sequence old L ∧ Before L.server)
      (requestPacket cfg m) (fun r t L => t = t₀ ∧ Accepted P m After r L) Err := by
  refine Task.Spec.bind (Task.Spec.flight_link H sequence_of_serves hJ cfg.retries) ?_
  intro r
  cases r with
  | some r => exact Task.Spec.pure fun t L h => h
  | none => exact Task.Spec.raise fun t L h => htimeout t L h.2.2 h.2.1

/-- The rule for `_request_packet`. -/
theorem requestPacket_spec {old m : Packet β} {Before : World β → Prop}
    {After : List (Reply (Packet β) (World β)) → World β → Prop} (t₀ : HostState β)
    (H : Exchange Packet.sequence (deviceServer resets allowed) P old m Before After)
    (hI : ∀ w, Before w → I w) (hI' : ∀ mine w, After mine w → I w)
    (htimeout : ∀ t L, GivesUp P cfg → L.Keeps (deviceServer resets allowed) P I →
      Err .timeout t L) :
    Task.Spec (linkEnv resets allowed P) (fun L => I L.server)
      (fun t L => t = t₀ ∧ Idle Packet.sequence old L ∧ Before L.server)
      (requestPacket cfg m) (fun r t L => t = t₀ ∧ Accepted P m After r L) Err :=
  requestPacket_link t₀ H (fun _ h => h.server hI hI')
    fun t L hg h => htimeout t L hg (h.keeps H sequence_of_serves hI hI')

/-- The rule for `_request_unprotected`, with an invariant of the whole link. -/
theorem requestUnprotected_link {c : Command} {payload : List β} (u : HostState β)
    {old : Packet β} {Before : World β → Prop}
    {After : List (Reply (Packet β) (World β)) → World β → Prop}
    {J : Link (Packet β) (World β) → Prop} (hlen : payload.length ≤ protocolMaxPayload)
    (H : Exchange Packet.sequence (deviceServer resets allowed) P old
      (frame c (old.sequence + 1) payload) Before After)
    (hJ : ∀ L, Flight Packet.sequence old (frame c (old.sequence + 1) payload) Before After L → J L)
    (htimeout : ∀ t L, GivesUp P cfg →
      Flight Packet.sequence old (frame c (old.sequence + 1) payload) Before After L →
      Err .timeout t L) :
    Task.Spec (linkEnv resets allowed P) J
      (fun t L => t = u.at old.sequence ∧ Idle Packet.sequence old L ∧ Before L.server)
      (requestUnprotected cfg c payload) (fun r t L => t = u.at (old.sequence + 1) ∧
        Accepted P (frame c (old.sequence + 1) payload) After r L) Err := by
  refine Task.Spec.bind nextSequence_spec fun n => ?_
  refine Task.Spec.bind (buildPacket_spec fun t s _ h => absurd h (by omega)) fun m => ?_
  rintro t L ⟨⟨t₀, ⟨rfl, hidle, hb⟩, rfl, rfl⟩, rfl, -⟩
  exact requestPacket_link _ H hJ htimeout _ _ ⟨rfl, hidle, hb⟩

/-- The rule for `_request_unprotected`. -/
theorem requestUnprotected_spec {c : Command} {payload : List β} (u : HostState β)
    {old : Packet β} {Before : World β → Prop}
    {After : List (Reply (Packet β) (World β)) → World β → Prop}
    (hlen : payload.length ≤ protocolMaxPayload)
    (H : Exchange Packet.sequence (deviceServer resets allowed) P old
      (frame c (old.sequence + 1) payload) Before After)
    (hI : ∀ w, Before w → I w) (hI' : ∀ mine w, After mine w → I w)
    (htimeout : ∀ t L, GivesUp P cfg → L.Keeps (deviceServer resets allowed) P I →
      Err .timeout t L) :
    Task.Spec (linkEnv resets allowed P) (fun L => I L.server)
      (fun t L => t = u.at old.sequence ∧ Idle Packet.sequence old L ∧ Before L.server)
      (requestUnprotected cfg c payload) (fun r t L => t = u.at (old.sequence + 1) ∧
        Accepted P (frame c (old.sequence + 1) payload) After r L) Err :=
  requestUnprotected_link u hlen H (fun _ h => h.server hI hI')
    fun t L hg h => htimeout t L hg (h.keeps H sequence_of_serves hI hI')

/-! ### The handshake -/

/-- What `authenticate` needs: `Pre` describes the world before the device handles the
challenge, and `Post` from then on; `Old` are the packets that may be in flight before. -/
structure Handshake (S : Server (Packet β) (World β) (EspIdf β)) (Old : Packet β → Prop)
    (Pre Post : World β → Prop) : Prop where
  old {o w r w'} (ho : Old o) (h : Pre w) (hs : S.Serves w o r w') : Pre w'
  tick {w w'} (h : Pre w) (ht : S.tick w = some w') : Pre w'
  challenge {n payload w r w'} (hl : payload.length = authNonceSize) (h : Pre w)
    (hs : S.Serves w (frame .auth n payload) r w') : Post w'
  again {n payload w r w'} (h : Post w) (hs : S.Serves w (frame .auth n payload) r w') : Post w'
  tick' {w w'} (h : Post w) (ht : S.tick w = some w') : Post w'

/-- A packet of the handshake. -/
def IsAuth (m : Packet β) : Prop := ∃ n payload, m = frame .auth n payload

/-- The rule for `authenticate` of a client with a key. -/
theorem authenticate_spec {key : List β} (hkey : cfg.authKey = some key) (u : HostState β)
    {old : Packet β} {Old : Packet β → Prop} {Pre Post : World β → Prop}
    (H : Handshake (deviceServer resets allowed) Old Pre Post) (hold : Old old)
    (hI : ∀ w, Pre w → I w) (hI' : ∀ w, Post w → I w)
    (hErr : ∀ e t L, e ≠ .packetTooLarge → L.Keeps (deviceServer resets allowed) P I → Err e t L) :
    Task.Spec (linkEnv resets allowed P) (fun L => I L.server)
      (fun t L => t = u.at old.sequence ∧ Idle Packet.sequence old L ∧ Pre L.server ∧
        (u.authenticated = true → Post L.server))
      (authenticate cfg)
      (fun _ t L => ∃ u' m, (u.authenticated = true ∧ m = old ∨ IsAuth m) ∧
        t = HostState.at u' m.sequence ∧ Idle Packet.sequence m L ∧ Post L.server) Err := by
  rw [authenticate_eq]
  rw [hkey]
  refine Task.Spec.read_bind fun t₀ => Task.Spec.ite (fun ha => ?_) (fun ha => ?_)
  · refine Task.Spec.pure ?_
    rintro t L ⟨rfl, rfl, hidle, hpre, hpost⟩
    exact ⟨u, old, .inl ⟨ha, rfl⟩, rfl, hidle, hpost ha⟩
  -- The nonce is drawn while the packet before the challenge may still be in flight.
  have hask : Task.Spec (linkEnv resets allowed P) (fun L => I L.server)
      (fun t L => t = t₀ ∧ t₀ = u.at old.sequence ∧ Idle Packet.sequence old L ∧ Pre L.server)
      (Task.ask Ask.urandom) (fun (_ : Answer β .urandom) t L => t = u.at old.sequence ∧
        Idle Packet.sequence old L ∧ Pre L.server) Err := by
    refine Task.Spec.ask ?_ ?_ ?_
    · rintro t L L' hmove ⟨ht, hu, hidle, hpre⟩
      obtain ⟨hidle', hpre'⟩ := hidle.move (fun (h : Pre _) _ hs => H.old hold h hs) H.tick
        sequence_of_serves hpre hmove
      exact ⟨ht, hu, hidle', hpre'⟩
    · exact fun t L h => hI _ h.2.2.2
    · rintro t L a L' ⟨rfl, hu, hidle, hpre⟩ rfl
      exact ⟨hu, hidle, hpre⟩
  refine (Task.Spec.bind hask fun nonce => ?_).pre fun t L ⟨ht, hu, hidle, hpre, _⟩ =>
    ⟨ht, hu, hidle, hpre⟩
  obtain ⟨clientNonce, hn⟩ := nonce
  have hchallenge : Exchange Packet.sequence (deviceServer resets allowed) P old
      (frame .auth (old.sequence + 1) clientNonce) Pre (fun _ => Post) :=
    ⟨sequence_ne _, fun h _ hs => H.old hold h hs, H.tick, fun h _ hs => H.challenge hn h hs,
      fun h _ hs => H.again h hs, H.tick', fun h _ => h⟩
  have htimeout : ∀ t L, GivesUp P cfg → L.Keeps (deviceServer resets allowed) P I →
      Err .timeout t L :=
    fun t L _ h => hErr _ t L (by simp) h
  refine Task.Spec.bind (requestUnprotected_spec u
    (by rw [hn]; decide) hchallenge hI (fun _ => hI') htimeout) fun challenge => ?_
  have hraise : ∀ e t L, e ≠ .packetTooLarge → (t = u.at (old.sequence + 1) ∧
      Accepted P (frame .auth (old.sequence + 1) clientNonce) (fun _ => Post) challenge L) →
      Err e t L := by
    rintro e t L he ⟨-, -, q, -, htaken⟩
    exact hErr e t L he (htaken.keeps hchallenge sequence_of_serves fun _ => hI')
  refine Task.Spec.ite (fun _ => Task.Spec.raise fun t L h => hraise _ t L (by simp) h) fun _ => ?_
  refine Task.Spec.bind (ensureAck_spec fun e t L h he => hraise e t L he h) fun _ => ?_
  refine Task.Spec.ite (fun _ => Task.Spec.raise fun t L h => hraise _ t L (by simp) h.1)
    fun _ => ?_
  refine Task.Spec.update_bind ?_
  generalize (sessionKeyOf key clientNonce ((challenge.payload.drop 1).take authNonceSize)) = k
  generalize hproof : clientNonce ++ authProofOf key clientNonce
    ((challenge.payload.drop 1).take authNonceSize) = proof
  have hplen : proof.length ≤ protocolMaxPayload := by
    rw [← hproof, List.length_append, hn, length_authProofOf]
    decide
  have hproofs : Exchange Packet.sequence (deviceServer resets allowed) P
      (frame .auth (old.sequence + 1) clientNonce) (frame .auth (old.sequence + 1 + 1) proof)
      Post (fun _ => Post) :=
    ⟨sequence_ne _, fun h _ hs => H.again h hs, H.tick', fun h _ hs => H.again h hs,
      fun h _ hs => H.again h hs, H.tick', fun h _ => h⟩
  refine (Task.Spec.bind (requestUnprotected_spec { u with sessionKey := some k } hplen hproofs hI'
    (fun _ => hI') htimeout) fun response => ?_).pre ?_
  · refine Task.Spec.bind (ensureAck_spec ?_) fun _ => ?_
    · rintro e t L ⟨-, -, q, -, htaken⟩ he
      exact hErr e t L he (htaken.keeps hproofs sequence_of_serves fun _ => hI')
    · refine Task.Spec.update ?_
      rintro t L ⟨⟨rfl, -, q, -, hidle, hpost⟩, -⟩
      exact ⟨{ u with sessionKey := some k, authenticated := true }, _, .inr ⟨_, _, rfl⟩, rfl,
        hidle, hpost⟩
  · rintro t L ⟨t₁, rfl, ⟨rfl, -, q, -, hidle, hpost⟩, -⟩
    exact ⟨rfl, hidle, hpost⟩

/-! ### One call -/

/-- The rule for one pass of `request`: a reply to its packet is accepted, and either it
ends the call or, where the call may authenticate again, it starts the rest. -/
theorem requestOnce_spec {c : Command} {payload : List β}
    {again : Option (HostTask β (Packet β))} (u : HostState β) {old : Packet β}
    {Before : World β → Prop} {After : List (Reply (Packet β) (World β)) → World β → Prop}
    {Ok : Packet β → HostState β → Link (Packet β) (World β) → Prop}
    (hold : ∀ {w r w'}, Before w → P.deliver w old = true →
      (deviceServer resets allowed).Serves w old r w' → Before w')
    (htick : ∀ {w w'}, Before w → (deviceServer resets allowed).tick w = some w' → Before w')
    (H : (cfg.guards c = true → u.sessionKey ≠ none) →
      Exchange Packet.sequence (deviceServer resets allowed) P old
        (callPacket cfg u c (old.sequence + 1) payload) Before After)
    (hI : ∀ w, Before w → I w) (hI' : ∀ mine w, After mine w → I w)
    (hlen : payload.length + (if cfg.guards c then 16 else 0) ≤ protocolMaxPayload)
    (htimeout : ∀ t L, GivesUp P cfg → L.Keeps (deviceServer resets allowed) P I →
      Err .timeout t L)
    (hErr : cfg.guards c = true → ∀ e t L, e ≠ .packetTooLarge →
      L.Keeps (deviceServer resets allowed) P I → Err e t L)
    (hagain : ∀ task, again = some task → ∀ r, cfg.guards c = true → isAuthRequired r = true →
      Task.Spec (linkEnv resets allowed P) (fun L => I L.server)
        (fun t L => t = u.at (old.sequence + 1) ∧
          Accepted P (callPacket cfg u c (old.sequence + 1) payload) After r L) task Ok Err)
    (hOk : ∀ r t L, t.sequence = old.sequence + 1 →
      Accepted P (callPacket cfg u c (old.sequence + 1) payload) After r L →
      Verified cfg u c (old.sequence + 1) r → Ok (cfg.strip c r) t L) :
    Task.Spec (linkEnv resets allowed P) (fun L => I L.server)
      (fun t L => t = u.at old.sequence ∧ Idle Packet.sequence old L ∧ Before L.server)
      (requestOnce cfg c payload again) Ok Err := by
  by_cases hk : cfg.guards c = true → u.sessionKey ≠ none
  · refine requestOnce_rule u hlen (fun hg hn => absurd hn (hk hg))
      (fun hk => requestPacket_spec _ (H hk) hI hI' htimeout) ?_ hagain ?_
    · rintro hg e r L ⟨-, q, -, htaken⟩ - he
      exact hErr hg e _ L he (htaken.keeps (H hk) sequence_of_serves hI')
    · intro r t L ht hacc hv
      refine hOk r t L ?_ hacc hv
      rcases ht with rfl | ⟨-, rfl⟩ <;> rfl
  · refine requestOnce_rule u (A := fun _ _ => False) hlen (fun hg _ L ⟨hidle, hb⟩ => hErr hg _ _ L
      (by simp) (hidle.keeps hold htick sequence_of_serves hI hb)) (fun h => absurd h hk)
      (fun _ _ _ _ h => h.elim) (fun _ _ _ _ _ _ _ h => h.2.elim) fun _ _ _ _ h => h.elim

/-- What a proof about one pass of a call has to show. `Pre old` describes the world while `old` is
in flight and the client may have to authenticate; `Post` the world in which it sends the
request, after a packet of which `Between` holds; `After m` the replies to the request `m`
on the link and the world from then on. -/
structure CallRule (resets : Bool) (allowed : EspIdf β → Bool) (P : Policy (Packet β) (World β))
    (cfg : HostConfig β) (c : Command) (payload : List β) (Between : Packet β → Prop)
    (Pre : Packet β → World β → Prop) (Post : World β → Prop)
    (After : Packet β → List (Reply (Packet β) (World β)) → World β → Prop) : Prop where
  length_le : payload.length + (if cfg.guards c then 16 else 0) ≤ protocolMaxPayload
  auth {m} (hm : IsAuth m) : Between m
  handshake (old : Packet β) : Handshake (deviceServer resets allowed) (· = old) (Pre old) Post
  old {o w r w'} (ho : Between o) (h : Post w)
    (hs : (deviceServer resets allowed).Serves w o r w') :
    Post w'
  tick {w w'} (h : Post w) (ht : (deviceServer resets allowed).tick w = some w') : Post w'
  exchange {o} (u : HostState β) (ho : Between o) (hk : cfg.guards c = true → u.sessionKey ≠ none) :
    Exchange Packet.sequence (deviceServer resets allowed) P o
      (callPacket cfg u c (o.sequence + 1) payload) Post
      (After (callPacket cfg u c (o.sequence + 1) payload))

section Request
variable {c : Command} {payload : List β} {Between : Packet β → Prop}
  {Pre : Bool → Packet β → World β → Prop} {Post : Bool → World β → Prop}
  {After : Bool → Packet β → List (Reply (Packet β) (World β)) → World β → Prop}
  {Ok : Packet β → HostState β → Link (Packet β) (World β) → Prop}

/-- **The rule for `request`**: one for each pass, the second of which begins where the client
accepts that it has to authenticate. -/
theorem request_spec (R : ∀ retried, CallRule resets allowed P cfg c payload Between (Pre retried)
      (Post retried) (After retried))
    (hretry : ∀ o u q mine w, Between o → cfg.guards c = true → isAuthRequired q.response = true →
      P.accept w q.response = true →
      After false (callPacket cfg u c (o.sequence + 1) payload) (q :: mine) w →
      Pre true (callPacket cfg u c (o.sequence + 1) payload) w)
    (hpre : ∀ retried m w, Pre retried m w → I w) (hpost : ∀ retried w, Post retried w → I w)
    (hafter : ∀ retried m mine w, After retried m mine w → I w)
    (htimeout : ∀ t L, GivesUp P cfg → L.Keeps (deviceServer resets allowed) P I →
      Err .timeout t L)
    (hErr : cfg.guards c = true → ∀ e t L, e ≠ .packetTooLarge →
      L.Keeps (deviceServer resets allowed) P I → Err e t L)
    (hOk : ∀ retried o u r t L, Between o → (cfg.guards c = true → u.sessionKey ≠ none) →
      t.sequence = (callPacket cfg u c (o.sequence + 1) payload).sequence →
      Accepted P (callPacket cfg u c (o.sequence + 1) payload)
        (After retried (callPacket cfg u c (o.sequence + 1) payload)) r L →
      Verified cfg u c (o.sequence + 1) r → Ok (cfg.strip c r) t L) :
    Task.Spec (linkEnv resets allowed P) (fun L => I L.server)
      (fun t L => ∃ u o, t = HostState.at u o.sequence ∧ Idle Packet.sequence o L ∧ Between o ∧
        Pre false o L.server ∧
        (cfg.guards c = true → u.authenticated = true → Post false L.server) ∧
        (cfg.guards c = false → Post false L.server))
      (request cfg c payload) Ok Err := by
  have hkey : cfg.guards c = true → ∃ key, cfg.authKey = some key := fun hg => by
    simp only [HostConfig.guards, Bool.and_eq_true] at hg
    exact Option.isSome_iff_exists.mp hg.1
  -- One pass of the loop, given the rest of the loop.
  have honce : ∀ retried again, (∀ task, again = some task → ∀ u o q mine w, Between o →
      cfg.guards c = true → isAuthRequired q.response = true → P.accept w q.response = true →
      After retried (callPacket cfg u c (o.sequence + 1) payload) (q :: mine) w →
      Task.Spec (linkEnv resets allowed P) (fun L => I L.server)
        (fun t L => t = HostState.at u (callPacket cfg u c (o.sequence + 1) payload).sequence ∧
          Idle Packet.sequence (callPacket cfg u c (o.sequence + 1) payload) L ∧
          L.server = w) task Ok Err) →
      Task.Spec (linkEnv resets allowed P) (fun L => I L.server)
        (fun t L => ∃ u o, Between o ∧ t = HostState.at u o.sequence ∧
          Idle Packet.sequence o L ∧ Post retried L.server)
        (requestOnce cfg c payload again) Ok Err := by
    rintro retried again hagain t L ⟨u, o, ho, rfl, hidle, hb⟩
    refine requestOnce_spec u (fun h _ hs => (R retried).old ho h hs) (R retried).tick
      ((R retried).exchange u ho) (hpost retried) (hafter retried _) (R retried).length_le htimeout
      hErr ?_ ?_ _ _ ⟨rfl, hidle, hb⟩
    · rintro task htask r hg hr t L ⟨rfl, hp, q, rfl, hidle, ha⟩
      exact hagain task htask u o q _ _ ho hg hr hp ha _ _ ⟨rfl, hidle, rfl⟩
    · intro r t L hseq hacc hv
      by_cases hk : cfg.guards c = true → u.sessionKey ≠ none
      · exact hOk retried o u r t L ho hk hseq hacc hv
      · simp only [Classical.not_imp, not_not] at hk
        obtain ⟨key, hsome, -⟩ := hv hk.1
        rw [hk.2] at hsome
        cases hsome
  have hstart : ∀ u o, Between o → Task.Spec (linkEnv resets allowed P) (fun L => I L.server)
      (fun t L => t = HostState.at u o.sequence ∧ Idle Packet.sequence o L ∧ Pre false o L.server ∧
        (cfg.guards c = true → u.authenticated = true → Post false L.server) ∧
        (cfg.guards c = false → Post false L.server)) (authenticateFor cfg c)
      (fun _ t L => ∃ u o, Between o ∧ t = HostState.at u o.sequence ∧
        Idle Packet.sequence o L ∧ Post false L.server) Err := by
    intro u o ho
    refine Task.Spec.ite (fun hg => ?_) (fun hg => ?_)
    · obtain ⟨key, hkey⟩ := hkey hg
      refine (authenticate_spec hkey u ((R false).handshake o) rfl (hpre false o) (hpost false)
        (fun e t L => hErr hg e t L)).consequence ?_ ?_ (fun _ _ _ h => h)
      · rintro t L ⟨rfl, hidle, hp, hauth, -⟩
        exact ⟨rfl, hidle, hp, hauth hg⟩
      · rintro _ t L ⟨u', m, hm, rfl, hidle, hb⟩
        refine ⟨u', m, ?_, rfl, hidle, hb⟩
        rcases hm with ⟨-, rfl⟩ | hm
        · exact ho
        · exact (R false).auth hm
    · refine Task.Spec.pure ?_
      rintro t L ⟨rfl, hidle, -, -, hopen⟩
      exact ⟨u, o, ho, rfl, hidle, hopen (by simpa using hg)⟩
  unfold request
  refine Task.Spec.bind ?_ fun _ => honce false _ ?_
  · rintro t L ⟨u, o, rfl, hidle, ho, h⟩
    exact hstart u o ho _ _ ⟨rfl, hidle, h⟩
  · rintro task ⟨⟩ u o q mine w ho hg hq hp ha
    have hnext := hretry o u q mine w ho hg hq hp ha
    obtain ⟨key, hkey⟩ := hkey hg
    refine Task.Spec.bind clearAuthentication_spec fun _ => ?_
    refine Task.Spec.bind ((authenticate_spec hkey
      { u with sessionKey := none, authenticated := false }
      ((R true).handshake (callPacket cfg u c (o.sequence + 1) payload)) rfl (hpre true _)
      (hpost true) (fun e t L => hErr hg e t L)).pre ?_) fun _ =>
        (honce true none fun _ h => by cases h).pre ?_
    · rintro t L ⟨t₀, ⟨rfl, hidle, rfl⟩, rfl⟩
      exact ⟨rfl, hidle, hnext, fun h => by cases h⟩
    · rintro t L ⟨u', m, hm, rfl, hidle, hpost'⟩
      refine ⟨u', m, ?_, rfl, hidle, hpost'⟩
      rcases hm with ⟨h, -⟩ | hm
      · cases h
      · exact (R true).auth hm

end Request

/-- The rule for a call that needs no session. -/
theorem request_open_spec {c : Command} {payload : List β} (hg : cfg.guards c = false)
    (u : HostState β) {old : Packet β} {Before : World β → Prop}
    {After : List (Reply (Packet β) (World β)) → World β → Prop}
    (hlen : payload.length ≤ protocolMaxPayload)
    (H : Exchange Packet.sequence (deviceServer resets allowed) P old
      (frame c (old.sequence + 1) payload) Before After)
    (hI : ∀ w, Before w → I w) (hI' : ∀ mine w, After mine w → I w)
    (htimeout : ∀ t L, GivesUp P cfg → L.Keeps (deviceServer resets allowed) P I →
      Err .timeout t L) :
    Task.Spec (linkEnv resets allowed P) (fun L => I L.server)
      (fun t L => t = u.at old.sequence ∧ Idle Packet.sequence old L ∧ Before L.server)
      (request cfg c payload)
      (fun r t L => t.sequence = (frame c (old.sequence + 1) payload).sequence ∧
        Accepted P (frame c (old.sequence + 1) payload) After r L) Err := by
  have hm : callPacket cfg u c (old.sequence + 1) payload = frame c (old.sequence + 1) payload := by
    simp [callPacket, HostConfig.tagFor, hg]
  unfold request authenticateFor
  simp only [hg, Bool.false_eq_true, if_false]
  refine Task.Spec.bind (R := fun _ t L => t = u.at old.sequence ∧ Idle Packet.sequence old L ∧
    Before L.server) (Task.Spec.pure fun _ _ h => h) fun _ => ?_
  refine requestOnce_spec u H.old H.tick (fun _ => hm.symm ▸ H) hI hI' (by simpa [hg] using hlen)
    htimeout (fun h => by simp [hg] at h) (fun _ _ _ h => by simp [hg] at h) ?_
  intro r t L ht hacc _
  rw [HostConfig.strip, hg]
  exact ⟨ht, hm ▸ hacc⟩

end Rules

end OtaLink
