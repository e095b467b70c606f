import OtaLink.Decoders
import OtaLink.Mem.Auth
import OtaLink.Reliable

/-!
# Interoperation of `auth.c` and `otalink.py`

The client on one side of a link without losses, and the functions of `auth.c` over their
arrays on the other. The device gets what the parser hands over, and the client what its
decoder reads from the octets that are written.

## Main definitions

* `Mem.authPartner` — the device during the handshake.
* `Mem.AuthState.SameSession` — a later state of a session.
* `Mem.auth_interoperates` — both sides compute the same MACs over the same octets.
-/

namespace OtaLink.Mem
open Lib

/-- The packet that the parser hands over. -/
def Packet.received (p : OtaLink.Packet UInt8) : Option Packet := do
  let payload ← (Buffer.blank UInt8 protocolMaxPayload).copy? 0 p.payload
  return {
    version := p.version
    command := p.command
    sequence := p.sequence
    length := p.payload.length
    payload }

/-- The octets that an event writes. -/
def Event.octets : Event → List UInt8
  | .write octets => octets
  | _ => []

/-- The first packet that the client decodes. -/
def decoded (events : List Event) : Option (OtaLink.Packet UInt8) :=
  (PacketParser.feed [] (events.flatMap Event.octets)).2.head?

/-- `auth_handle_packet` on the other side of the link. -/
def authPartner (nonce : Answer UInt8 .urandom) (esp : EspIdf UInt8) :
    HostPartner UInt8 AuthState where
  ask m | .urandom => (nonce, m)
  serve m p := do
    let packet ← Packet.received p
    let (_, m, events) ← (authHandlePacket esp packet).run m
    return (← decoded events, m)

/-- The arrays hold one session, each with a replay cache of its own. -/
def AuthState.SameSession (m m' : AuthState) : Prop :=
  ∃ (s : OtaLink.AuthState UInt8) (cache : Ring (OtaLink.ReplayEntry UInt8) 8),
    m.Holds s ∧ m'.Holds { s with replayCache := cache }

theorem Packet.received_spec {p : OtaLink.Packet UInt8}
    (h : p.payload.length ≤ protocolMaxPayload) :
    ∃ packet, Packet.received p = some packet ∧ packet.Holds p := by
  obtain ⟨payload, hcopy, hbegins⟩ := (Buffer.begins_nil
    (.blank UInt8 protocolMaxPayload)).copy p.payload (by simpa using h)
  rw [List.length_nil] at hcopy
  exact ⟨⟨p.version, p.command, p.sequence, p.payload.length, payload⟩,
    by simp [Packet.received, hcopy], rfl, rfl, rfl, rfl, hbegins⟩

/-- The client decodes the frame that was sent. -/
theorem decoded_sent {c : UInt8} {n : UInt16} {payload : List UInt8}
    (h : payload.length ≤ protocolMaxPayload) :
    decoded [sent ⟨protocolVersion, c, n, payload⟩] = some ⟨protocolVersion, c, n, payload⟩ := by
  have hframe := @scan_frame 2 (by decide) (by decide) c n payload h []
  simp only [decoded, sent, List.flatMap_cons, List.flatMap_nil, Event.octets, List.append_nil]
  rw [PacketParser.feed_eq_scan, List.nil_append, protocolSendPacket_eq c n h]
  rw [List.append_nil] at hframe
  rw [hframe]
  rfl

/-! ## The handshake -/

section Handshake
variable {clientNonce : List UInt8} {hc : clientNonce.length = authNonceSize} {esp : EspIdf UInt8}
  {m : AuthState} {s : OtaLink.AuthState UInt8}

theorem authPartner_challenge (h : m.Holds s) (hr : s.required = true) (n : UInt16) :
    ∃ m', (authPartner ⟨clientNonce, hc⟩ esp).serve m (frame .auth n clientNonce) =
        some (frame .ack n (statusPayload .ok ++ esp.fillRandom ++
          deviceProofOf s.key clientNonce esp.fillRandom), m') ∧
      m'.Holds (s.challenged clientNonce esp.fillRandom hc esp.length_fillRandom) := by
  obtain ⟨packet, hreceived, hp⟩ := @Packet.received_spec (frame .auth n clientNonce)
    (by rw [frame, hc]; decide)
  obtain ⟨m', hrun, h'⟩ := authHandlePacket_challenge_run esp hp h hr hc
  have hrun : (authHandlePacket esp packet).run m = some (.ok, m', [sent ⟨protocolVersion,
      Command.ack.code, n, statusPayload .ok ++ esp.fillRandom ++
        deviceProofOf s.key clientNonce esp.fillRandom⟩]) := hrun
  refine ⟨m', ?_, h'⟩
  simp only [authPartner, hreceived, hrun, Option.bind_eq_bind, Option.bind_some]
  rw [decoded_sent]
  · rfl
  · simp [statusPayload, esp.length_fillRandom, protocolMaxPayload]

theorem authPartner_proof (h : m.Holds s) (hr : s.required = true) (hp : s.pending = true)
    (n : UInt16) :
    ∃ m', (authPartner ⟨clientNonce, hc⟩ esp).serve m (frame .auth n (s.clientNonce ++
        authProofOf s.key s.clientNonce s.serverNonce)) = some (ackFrame n, m') ∧
      m'.Holds s.proved := by
  obtain ⟨packet, hreceived, hpacket⟩ := @Packet.received_spec (frame .auth n (s.clientNonce ++
    authProofOf s.key s.clientNonce s.serverNonce)) (by
      simp [frame, authNonceSize, protocolMaxPayload])
  obtain ⟨-, hstate, hlog⟩ := authHandlePacket_proof esp (frame .auth n (s.clientNonce ++
    authProofOf s.key s.clientNonce s.serverNonce)) hr (.inl hp) rfl
  obtain ⟨error, m', hrun, h', -⟩ := authHandlePacket_realizes esp hpacket m s h
  rw [hstate] at h'
  rw [hlog] at hrun
  have hrun : (authHandlePacket esp packet).run m = some (error, m', [sent ⟨protocolVersion,
    Command.ack.code, n, statusPayload .ok⟩]) := hrun
  refine ⟨m', ?_, h'⟩
  simp only [authPartner, hreceived, hrun, Option.bind_eq_bind, Option.bind_some]
  rw [decoded_sent (by decide)]
  rfl

/-- The handshake of the two programs. -/
theorem authenticate_authPartner {cfg : HostConfig UInt8} (hkey : cfg.authKey = some s.key)
    (hretries : 0 < cfg.retries) (h : m.Holds s) (hr : s.required = true) {u : HostState UInt8}
    (hu : u.authenticated = false) :
    ∃ m', (authenticate cfg).Gives (authPartner ⟨clientNonce, hc⟩ esp) u m (.ok ())
        ⟨u.sequence + 1 + 1, some (sessionKeyOf s.key clientNonce esp.fillRandom), true⟩ m' ∧
      m'.Holds (s.challenged clientNonce esp.fillRandom hc esp.length_fillRandom).proved := by
  obtain ⟨m₁, hchallenge, h₁⟩ := @authPartner_challenge clientNonce hc esp m s h hr
    (u.sequence + 1)
  obtain ⟨m₂, hproof, h₂⟩ := @authPartner_proof clientNonce hc esp _ _ h₁ hr rfl
    (u.sequence + 1 + 1)
  exact ⟨m₂, authenticate_gives hkey hretries hu hc esp.length_fillRandom rfl hchallenge hproof,
    h₂⟩

end Handshake

/-! ## The session -/

section Session
variable {m m' : AuthState} {s : OtaLink.AuthState UInt8} {cfg : HostConfig UInt8}
  {u : HostState UInt8} {key : List UInt8} {c : Command}

/-- What is read from the array of the session key. -/
theorem AuthState.Holds.read_sessionKey (h : m.Holds s) :
    m.sessionKey.read? 0 sha256Size = some s.sessionKey := by
  have hread := h.sessionKey.read_all
  rwa [h.length_sessionKey] at hread

/-- The device unwraps what the client has tagged. -/
theorem authUnwrapPacket_tagged {σ : Type} (h : m.Holds s) (hr : s.required = true)
    (ha : s.authenticated = true) (hg : cfg.guards c = true) (hu : u.sessionKey = some s.sessionKey)
    (n : UInt16) {payload : List UInt8} (hl : payload.length + authTagSize ≤ protocolMaxPayload) :
    ∃ tagged packet, authenticatedPayload cfg c n payload u = .ret (.ok tagged, u) ∧
      Packet.received (frame c n tagged) = some packet ∧
      (∀ t : σ, (authUnwrapPacket m packet).run t = some (.ok payload.length, t, [])) ∧
      packet.payload.read? 0 payload.length = some payload := by
  have hp : c.isProtected = true := by
    simp only [HostConfig.guards, Bool.and_eq_true] at hg
    exact hg.2
  obtain ⟨packet, hreceived, hpacket⟩ := @Packet.received_spec
    (frame c n (payload ++ requestTag s.sessionKey c.code n payload)) (by
      rw [frame, List.length_append, length_requestTag]
      exact hl)
  obtain ⟨r, hrun, hun⟩ := @authUnwrapPacket_run σ packet _ hpacket m s h
  have hok : OtaLink.authUnwrapPacket s
      (frame c n (payload ++ requestTag s.sessionKey c.code n payload)) = .ok payload := by
    refine (authUnwrapPacket_eq_ok (by simp [OtaLink.AuthState.signs, frame, hr, ha, hp])).mpr
      ⟨rfl, ?_⟩
    simp only [authTagSize, protocolMaxPayload, hmacMaxDataSize] at hl ⊢
    omega
  rw [hok] at hun
  rcases r with error | length
  · exact hun.elim
  · obtain ⟨rfl, hbegins⟩ : length = payload.length ∧ packet.payload.Begins payload := hun
    exact ⟨_, packet, authenticatedPayload_eq hg hu n payload, hreceived, hrun, hbegins.read_all⟩

/-- The client verifies what the device has signed. -/
theorem verifiedResponse_signed (h : m.Holds s) (hr : s.required = true)
    (ha : s.authenticated = true) (hp : c.isProtected = true)
    (hu : u.sessionKey = some s.sessionKey) {request : Packet} {p : OtaLink.Packet UInt8}
    (hrequest : request.Holds p) (hc : p.command = c.code) (rc : Command) {k : ℕ}
    {payload : Buffer UInt8 k} {body : List UInt8} (hbody : payload.Begins body)
    (hl : body.length + authTagSize ≤ protocolMaxPayload) :
    ∃ m' events r, (authSendResponse request rc payload body.length).run m = some ((), m', events) ∧
      (∃ cache, m'.Holds { s with replayCache := cache }) ∧ decoded events = some r ∧
      r.command = rc.code ∧ r.sequence = p.sequence ∧
      verifiedResponse c p.sequence r u = .ret (.ok { r with payload := body }, u) := by
  obtain ⟨_, m', hrun, h', -⟩ := authSendResponse_realizes hrequest rc hbody (by omega) m s h
  obtain ⟨hstate, hlog⟩ := authSendResponse_spec p rc hl s
  rw [hlog] at hrun
  have hs : s.signs p.command = true := by simp [OtaLink.AuthState.signs, hr, ha, hc, hp]
  have hresponse : s.response p rc body = frame rc p.sequence
      (body ++ responseTag s.sessionKey c.code rc.code p.sequence body) := by
    rw [OtaLink.AuthState.response, if_pos hs, hc]
  rw [hresponse] at hrun
  rw [hstate, OtaLink.AuthState.remember, if_pos hs] at h'
  refine ⟨m', _, _, hrun, ⟨_, h'⟩, decoded_sent ?_, rfl, rfl, verifiedResponse_eq hu rfl⟩
  rw [List.length_append, length_responseTag]
  exact hl

end Session

/-- **Interoperation.** The handshake of the two programs succeeds under every key and for all
nonces, and leaves both with one session key. In that session the device unwraps every
request the client tags to the payload it was given, and the client verifies every response
the device signs and is left with the payload the device was given. -/
theorem auth_interoperates {key : List UInt8} (hkey : 0 < key.length)
    (hmax : key.length ≤ authKeyMaxSize) {cfg : HostConfig UInt8} (hcfg : cfg.authKey = some key)
    (hretries : 0 < cfg.retries) {clientNonce : List UInt8}
    (hc : clientNonce.length = authNonceSize) (esp : EspIdf UInt8) (first : UInt16) :
    ∃ m₀ m sessionKey, authConfigure (some key) true = some m₀ ∧
      (authenticate cfg).Gives (authPartner ⟨clientNonce, hc⟩ esp) (.opened first) m₀ (.ok ())
        ⟨first + 1 + 1, some sessionKey, true⟩ m ∧
      m.authenticated = true ∧ m.sessionKey.read? 0 sha256Size = some sessionKey ∧
      ∀ m', m.SameSession m' → ∀ u : HostState UInt8, u.sessionKey = some sessionKey →
      ∀ c : Command, c.isProtected = true → ∀ n : UInt16,
        (∀ payload : List UInt8, payload.length ≤ protocolMaxPayload - authTagSize →
          ∃ tagged packet, authenticatedPayload cfg c n payload u = .ret (.ok tagged, u) ∧
            Packet.received (frame c n tagged) = some packet ∧
            (authUnwrapPacket m' packet).run m' = some (.ok payload.length, m', []) ∧
            packet.payload.read? 0 payload.length = some payload) ∧
        ∀ request p, request.Holds p → p.command = c.code → p.sequence = n →
          ∀ (rc : Command) (k : ℕ) (payload : Buffer UInt8 k) (body : List UInt8),
            payload.Begins body → body.length ≤ protocolMaxPayload - authTagSize →
            ∃ m'' events r,
              (authSendResponse request rc payload body.length).run m' = some ((), m'', events) ∧
              m.SameSession m'' ∧ decoded events = some r ∧ r.command = rc.code ∧
              r.sequence = n ∧
                verifiedResponse c n r u = .ret (.ok { r with payload := body }, u) := by
  obtain ⟨m₀, hconf, h₀⟩ := authConfigure_spec (some key) true
  have hstart : OtaLink.authConfigure (some key) true =
      { OtaLink.AuthState.cleared with key, required := true } := by
    rw [OtaLink.authConfigure, if_neg (by omega)]
  rw [hstart] at h₀
  obtain ⟨m, hauth, hm⟩ :=
    @authenticate_authPartner clientNonce hc esp m₀ _ cfg hcfg hretries h₀ rfl
    (.opened first) rfl
  refine ⟨m₀, m, _, hconf, hauth, hm.authenticated, hm.read_sessionKey, ?_⟩
  rintro m' ⟨s, cache, hs, hs'⟩ u hu c hp n
  have hr : s.required = true := hs.required.symm.trans hm.required
  have ha : s.authenticated = true := hs.authenticated.symm.trans hm.authenticated
  have hsk : u.sessionKey = some s.sessionKey := by
    rw [hu, ← hs.read_sessionKey, hm.read_sessionKey]
    rfl
  have hg : cfg.guards c = true := by simp [HostConfig.guards, hcfg, hp]
  have hmin : authTagSize ≤ protocolMaxPayload := by decide
  refine ⟨fun payload hl => ?_, ?_⟩
  · obtain ⟨tagged, packet, htagged, hreceived, hrun, hread⟩ :=
      @authUnwrapPacket_tagged m' _ cfg u c AuthState hs' hr ha hg hsk n payload (by omega)
    exact ⟨tagged, packet, htagged, hreceived, hrun m', hread⟩
  · rintro request p hrequest hcode rfl rc k payload body hbody hl
    obtain ⟨m'', events, r, hrun, ⟨cache', h''⟩, hrest⟩ :=
      verifiedResponse_signed hs' hr ha hp hsk hrequest hcode rc hbody (by omega)
    exact ⟨m'', events, r, hrun, ⟨s, cache', hs, h''⟩, hrest⟩

/-- A key of one octet. -/
theorem auth_interoperates_one : ∃ m₀ m sessionKey, authConfigure (some [1]) true = some m₀ ∧
    (authenticate ⟨1, some [1]⟩).Gives (authPartner ⟨List.replicate 16 2, rfl⟩
      (.succeeding ⟨65536, 4096⟩ (List.replicate 32 9))) (.opened 6) m₀ (.ok ())
      ⟨8, some sessionKey, true⟩ m ∧ m.sessionKey.read? 0 sha256Size = some sessionKey := by
  obtain ⟨m₀, m, sessionKey, hconf, hauth, -, hread, -⟩ := @auth_interoperates [1] (by decide)
    (by decide) ⟨1, some [1]⟩ rfl (by decide) (List.replicate 16 2) rfl
    (.succeeding ⟨65536, 4096⟩ (List.replicate 32 9)) 6
  exact ⟨m₀, m, sessionKey, hconf, hauth, hread⟩

end OtaLink.Mem
