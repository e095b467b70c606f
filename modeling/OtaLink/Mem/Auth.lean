import OtaLink.Mem.Protocol

/-!
# Link authentication over arrays

The state of `auth.c` as its arrays, and its functions with each copy into and out of them.
The state holds a session where its arrays begin with what the session says; every function
of the module realizes its counterpart on sessions.

## Main definitions

* `Mem.AuthState`, `Mem.ReplayEntry` — `auth_state_t` and `auth_replay_entry_t`.
* `Mem.authConfigure`, `Mem.authHandlePacket`, `Mem.authCheckReplay`,
  `Mem.authUnwrapPacket`, `Mem.authSendResponse` — the functions.
* `Mem.AuthState.Holds` — what the arrays hold.
-/

namespace OtaLink.Mem
open Lib

/-- `auth_replay_entry_t`. -/
structure ReplayEntry where
  valid : Bool
  requestCommand : UInt8
  sequence : UInt16
  requestDigest : Buffer UInt8 sha256Size
  responseCommand : UInt8
  responseLength : ℕ
  responsePayload : Buffer UInt8 protocolMaxPayload

/-- An entry after `memset`. -/
def ReplayEntry.cleared : ReplayEntry where
  valid := false
  requestCommand := 0
  sequence := 0
  requestDigest := .filled _ 0
  responseCommand := 0
  responseLength := 0
  responsePayload := .filled _ 0

/-- `auth_state_t`. -/
structure AuthState where
  required : Bool
  pending : Bool
  authenticated : Bool
  key : Buffer UInt8 authKeyMaxSize
  keyLen : ℕ
  clientNonce : Buffer UInt8 authNonceSize
  serverNonce : Buffer UInt8 authNonceSize
  sessionKey : Buffer UInt8 sha256Size
  replayCache : Buffer ReplayEntry authReplayCacheSize
  nextReplayEntry : ℕ

/-- The state after `memset(&s_auth, 0, sizeof(s_auth))`. -/
def AuthState.cleared : AuthState where
  required := false
  pending := false
  authenticated := false
  key := .filled _ 0
  keyLen := 0
  clientNonce := .filled _ 0
  serverNonce := .filled _ 0
  sessionKey := .filled _ 0
  replayCache := .filled _ .cleared
  nextReplayEntry := 0

def authConfigure (key : Option (List UInt8)) (requireAuthentication : Bool) : Option AuthState :=
  match key with
  | none => some .cleared
  | some octets =>
    if octets.length = 0 ∨ octets.length > authKeyMaxSize then some .cleared
    else do
      let key ← AuthState.cleared.key.copy? 0 octets
      return { AuthState.cleared with
        key, keyLen := octets.length, required := requireAuthentication }

abbrev AuthRoutine := Checked AuthState Event

/-- The result of `hmac_sha256`: where it returns false, that is an event. -/
def mac {σ : Type} (r : Option (Option (Buffer UInt8 sha256Size))) :
    Checked σ Event (Option (Buffer UInt8 sha256Size)) := do
  match ← Checked.access r with
  | none =>
    Checked.emit .macFailed
    return none
  | some output => return some output

/-! ## The handshake -/

/-- The response to a challenge. -/
def challengeResponse (serverNonce : Buffer UInt8 authNonceSize)
    (deviceProof : Buffer UInt8 sha256Size) :
    Option (Buffer UInt8 (1 + authNonceSize + authTagSize)) := do
  let response := Buffer.blank UInt8 (1 + authNonceSize + authTagSize)
  let response ← response.store? 0 ProtocolError.ok.code
  let response ← response.copy? 1 (← serverNonce.read? 0 authNonceSize)
  response.copy? (1 + authNonceSize) (← deviceProof.read? 0 authTagSize)

def authHandlePacket (esp : EspIdf UInt8) (packet : Packet) : AuthRoutine ProtocolError := do
  let s ← Checked.get
  if !s.required then return .unknownCommand
  if packet.length = authNonceSize then
    Checked.update fun s => do
      let clientNonce ← s.clientNonce.copy? 0 (← packet.payload.read? 0 authNonceSize)
      let serverNonce ← s.serverNonce.copy? 0 esp.fillRandom
      return { s with clientNonce, serverNonce }
    let s ← Checked.get
    match ← mac (hmacPrefixedNoncePair authSessionPrefix s.key s.keyLen s.clientNonce
        s.serverNonce) with
    | none => return .authRequired
    | some sessionKey =>
      Checked.update fun s => some { s with
        sessionKey
        pending := true
        authenticated := false
        replayCache := .filled _ .cleared
        nextReplayEntry := 0 }
      match ← mac (hmacPrefixedNoncePair authDeviceProofPrefix s.key s.keyLen s.clientNonce
          s.serverNonce) with
      | none => return .authRequired
      | some deviceProof =>
        let response ← Checked.access (challengeResponse s.serverNonce deviceProof)
        protocolSendPacket Command.ack.code packet.sequence response
          (1 + authNonceSize + authTagSize)
        return .ok
  else if packet.length = authNonceSize + authTagSize then
    if !s.pending && !s.authenticated then return .authRequired
    let nonce ← Checked.access (packet.payload.read? 0 authNonceSize)
    let clientNonce ← Checked.access (s.clientNonce.read? 0 authNonceSize)
    if !constantTimeEqual nonce clientNonce then return .authRequired
    match ← mac (hmacPrefixedNoncePair authProofPrefix s.key s.keyLen s.clientNonce
        s.serverNonce) with
    | none => return .authRequired
    | some expected =>
      let proof ← Checked.access (packet.payload.read? authNonceSize authTagSize)
      let tag ← Checked.access (expected.read? 0 authTagSize)
      if !constantTimeEqual proof tag then return .authRequired
      Checked.update fun s => some { s with pending := false, authenticated := true }
      protocolSendAck packet.sequence
      return .ok
  else return .invalidLength

/-! ## Protected requests -/

/-- The loop of `auth_check_replay` up to the first live entry under the command and the
sequence number, `k` rounds from round `i` on. -/
def findReplay (cache : Buffer ReplayEntry authReplayCacheSize) (packet : Packet) :
    ℕ → ℕ → Option (Option ReplayEntry)
  | 0, _ => some none
  | k + 1, i => do
    let entry ← cache.load? i
    if !entry.valid || entry.requestCommand != packet.command ||
        entry.sequence != packet.sequence then
      findReplay cache packet k (i + 1)
    else some (some entry)

def authCheckReplay (packet : Packet) : AuthRoutine (ProtocolError × Bool) := do
  let s ← Checked.get
  if !s.required || !authCommandIsProtected packet.command then return (.ok, false)
  if !s.authenticated then return (.authRequired, false)
  let requestDigest ← Checked.access (computeRequestDigest packet)
  match ← Checked.access (findReplay s.replayCache packet authReplayCacheSize 0) with
  | none => return (.ok, false)
  | some entry =>
    let left ← Checked.access (entry.requestDigest.read? 0 sha256Size)
    let right ← Checked.access (requestDigest.read? 0 sha256Size)
    if !constantTimeEqual left right then return (.authRequired, false)
    protocolSendPacket entry.responseCommand packet.sequence entry.responsePayload
      entry.responseLength
    return (.ok, true)

/-- The length of the payload without its tag, or the error. -/
def authUnwrapPacket {σ : Type} (s : AuthState) (packet : Packet) :
    Checked σ Event (Except ProtocolError ℕ) := do
  if !s.required || !authCommandIsProtected packet.command then return .ok packet.length
  if !s.authenticated || packet.length < authTagSize then return .error .authRequired
  let unwrappedLength := packet.length - authTagSize
  match ← mac (computePacketTag s.sessionKey packet.command packet.sequence packet.payload
      unwrappedLength) with
  | none => return .error .authRequired
  | some expected =>
    let tag ← Checked.access (packet.payload.read? unwrappedLength authTagSize)
    let expected ← Checked.access (expected.read? 0 authTagSize)
    if !constantTimeEqual tag expected then return .error .authRequired
    return .ok unwrappedLength

def authSendResponse {n : ℕ} (request : Packet) (responseCommand : Command)
    (payload : Buffer UInt8 n) (length : ℕ) : AuthRoutine Unit := do
  let responsePayload ← Checked.access
    (copySome (Buffer.blank UInt8 protocolMaxPayload) 0 payload length)
  let s ← Checked.get
  if s.required && s.authenticated && authCommandIsProtected request.command then
    if length + authTagSize > protocolMaxPayload then
      protocolSendNack request.sequence .invalidLength
    else
      -- The result is not looked at: where it is false, the tag is not initialised.
      let tag ← mac (computeResponseTag s.sessionKey request.command responseCommand.code
        request.sequence payload length)
      let tag := tag.getD (.blank UInt8 sha256Size)
      let responsePayload ← Checked.access do
        responsePayload.copy? length (← tag.read? 0 authTagSize)
      let responseLength := length + authTagSize
      let digest ← Checked.access (computeRequestDigest request)
      Checked.update fun s => do
        let entry ← s.replayCache.load? s.nextReplayEntry
        let requestDigest ← entry.requestDigest.copy? 0 (← digest.read? 0 sha256Size)
        let stored ← entry.responsePayload.copy? 0 (← responsePayload.read? 0 responseLength)
        let replayCache ← s.replayCache.store? s.nextReplayEntry {
          valid := true
          requestCommand := request.command
          sequence := request.sequence
          requestDigest
          responseCommand := responseCommand.code
          responseLength
          responsePayload := stored }
        return { s with
          replayCache, nextReplayEntry := (s.nextReplayEntry + 1) % authReplayCacheSize }
      protocolSendPacket responseCommand.code request.sequence responsePayload responseLength
  else protocolSendPacket responseCommand.code request.sequence responsePayload length

def authSendAck (request : Packet) : AuthRoutine Unit :=
  authSendResponse request .ack (status .ok) 1

def authSendNack (request : Packet) (error : ProtocolError) : AuthRoutine Unit :=
  authSendResponse request .nack (status error) 1

/-! ## What the arrays hold -/

/-- The entry stores `e`. -/
structure ReplayEntry.Stores (m : ReplayEntry) (e : OtaLink.ReplayEntry UInt8) : Prop where
  valid : m.valid = true
  requestCommand : m.requestCommand = e.requestCommand
  sequence : m.sequence = e.sequence
  requestDigest : m.requestDigest.Begins e.requestDigest
  length_requestDigest : e.requestDigest.length = sha256Size
  responseCommand : m.responseCommand = e.responseCommand
  responseLength : m.responseLength = e.responsePayload.length
  responsePayload : m.responsePayload.Begins e.responsePayload

/-- The entry is what the slot says. -/
def ReplayEntry.In (m : ReplayEntry) : Option (OtaLink.ReplayEntry UInt8) → Prop
  | none => m.valid = false
  | some e => m.Stores e

/-- The cache is the ring. -/
def CacheHolds (cache : Buffer ReplayEntry authReplayCacheSize) (next : ℕ)
    (r : Ring (OtaLink.ReplayEntry UInt8) 8) : Prop :=
  next = r.next ∧ ∃ entries : List ReplayEntry, entries.length = 8 ∧ cache.Begins entries ∧
    ∀ (i : ℕ) (m : ReplayEntry) o, entries[i]? = some m → r.slots.toList[i]? = some o → m.In o

/-- The arrays hold the session. -/
structure AuthState.Holds (m : AuthState) (s : OtaLink.AuthState UInt8) : Prop where
  required : m.required = s.required
  pending : m.pending = s.pending
  authenticated : m.authenticated = s.authenticated
  key : m.key.Begins s.key
  keyLen : m.keyLen = s.key.length
  clientNonce : m.clientNonce.Begins s.clientNonce
  serverNonce : m.serverNonce.Begins s.serverNonce
  sessionKey : m.sessionKey.Begins s.sessionKey
  length_sessionKey : s.sessionKey.length = sha256Size
  cache : CacheHolds m.replayCache m.nextReplayEntry s.replayCache

theorem cacheHolds_cleared : CacheHolds (.filled _ .cleared) 0 (.empty 8) := by
  refine ⟨rfl, List.replicate 8 .cleared, rfl, Buffer.begins_filled _ _, fun i m o hm ho => ?_⟩
  have hm' : m = .cleared := List.eq_of_mem_replicate (List.mem_of_getElem? hm)
  have ho' : o = none := by
    refine List.eq_of_mem_replicate (n := 8) (List.mem_of_getElem? (i := i) ?_)
    exact ho
  rw [hm', ho', ReplayEntry.In]
  rfl

theorem holds_cleared : AuthState.cleared.Holds .cleared where
  required := rfl
  pending := rfl
  authenticated := rfl
  key := Buffer.begins_nil _
  keyLen := rfl
  clientNonce := Buffer.begins_filled _ _
  serverNonce := Buffer.begins_filled _ _
  sessionKey := Buffer.begins_filled _ _
  length_sessionKey := rfl
  cache := cacheHolds_cleared

/-- The key is copied where it fits. -/
theorem authConfigure_spec (key : Option (List UInt8)) (requireAuthentication : Bool) :
    ∃ m, authConfigure key requireAuthentication = some m ∧
      m.Holds (OtaLink.authConfigure key requireAuthentication) := by
  rcases key with _ | octets
  · exact ⟨_, rfl, holds_cleared⟩
  by_cases hlen : octets.length = 0 ∨ octets.length > authKeyMaxSize
  · simp only [authConfigure, OtaLink.authConfigure, if_pos hlen]
    exact ⟨_, rfl, holds_cleared⟩
  · obtain ⟨key, hcopy, hbegins⟩ := (Buffer.begins_nil AuthState.cleared.key).copy octets (by
      rw [List.length_nil]
      omega)
    rw [List.length_nil] at hcopy
    simp only [authConfigure, OtaLink.authConfigure, if_neg hlen, hcopy]
    exact ⟨_, rfl, { holds_cleared with required := rfl, key := hbegins, keyLen := rfl }⟩

/-! ## The handshake realizes the handshake -/

section Spec
variable {σ : Type}

/-- Where the helper returns true there is no event. -/
theorem run_mac_bind {β : Type} {r : Option (Option (Buffer UInt8 sha256Size))}
    {output : Buffer UInt8 sha256Size} (h : r = some (some output))
    (f : Option (Buffer UInt8 sha256Size) → Checked σ Event β) (s : σ) :
    (mac r >>= f).run s = (f (some output)).run s := by
  rw [Checked.run_bind, mac, h, Checked.run_access_bind, Option.bind_some]
  cases hf : (f (some output)).run s <;> simp [Checked.andThen, hf]

/-- The key of a session is at most one block. -/
theorem AuthState.Holds.length_key {m : AuthState} {s : OtaLink.AuthState UInt8} (h : m.Holds s) :
    s.key.length ≤ hmacBlockSize := h.key.length_le

/-- The MAC of the nonce pair of a session. -/
theorem AuthState.Holds.noncePair {m : AuthState} {s : OtaLink.AuthState UInt8} (h : m.Holds s)
    {pre : List UInt8} (hp : pre.length ≤ 32) :
    ∃ output, hmacPrefixedNoncePair pre m.key m.keyLen m.clientNonce m.serverNonce =
        some (some output) ∧
      output.Begins (Alphabet.hmac s.key (pre ++ s.clientNonce ++ s.serverNonce)) := by
  rw [h.keyLen]
  exact hmacPrefixedNoncePair_spec h.key h.length_key h.clientNonce h.serverNonce
    s.length_clientNonce s.length_serverNonce hp

/-- A part of the output of a helper. -/
theorem read_tag {output : Buffer UInt8 sha256Size} {key data : List UInt8}
    (h : output.Begins (Alphabet.hmac key data)) :
    output.read? 0 authTagSize = some ((Alphabet.hmac key data).take authTagSize) := by
  rw [h.read (by rw [Alphabet.length_hmac]; decide), List.drop_zero]

theorem Packet.Holds.read {m : Packet} {p : OtaLink.Packet UInt8} (h : m.Holds p) {i n : ℕ}
    (hfit : i + n ≤ p.payload.length) :
    m.payload.read? i n = some ((p.payload.drop i).take n) := h.payload.read hfit

/-- The response to a challenge. -/
theorem challengeResponse_spec {serverNonce : Buffer UInt8 authNonceSize}
    {deviceProof : Buffer UInt8 sha256Size} {sn key data : List UInt8} (hs : serverNonce.Begins sn)
    (hsn : sn.length = authNonceSize) (hd : deviceProof.Begins (Alphabet.hmac key data)) :
    ∃ response, challengeResponse serverNonce deviceProof = some response ∧
      response.Begins (statusPayload .ok ++ sn ++ (Alphabet.hmac key data).take authTagSize) := by
  obtain ⟨r₁, h₁, hf₁⟩ := (Buffer.begins_nil
    (.blank UInt8 (1 + authNonceSize + authTagSize))).store ProtocolError.ok.code (by decide)
  obtain ⟨r₂, h₂, hf₂⟩ := hf₁.copy sn (by simp [hsn])
  obtain ⟨r₃, h₃, hf₃⟩ := hf₂.copy ((Alphabet.hmac key data).take authTagSize) (by
    simp only [List.length_append, List.length_nil, List.length_singleton, List.length_take, hsn,
      authTagSize]
    omega)
  have hread := hs.read_all
  simp only [List.length_append, List.length_nil, List.length_singleton, hsn] at hread h₁ h₂ h₃
  refine ⟨r₃, ?_, hf₃⟩
  simp only [challengeResponse, h₁, hread, h₂, read_tag hd, h₃, bind, Option.bind]

/-- A challenge draws a new session. -/
theorem authHandlePacket_challenge_run (esp : EspIdf UInt8) {packet : Packet}
    {p : OtaLink.Packet UInt8} (hp : packet.Holds p) {m : AuthState} {s : OtaLink.AuthState UInt8}
    (h : m.Holds s) (hr : s.required = true) (hn : p.payload.length = authNonceSize) :
    ∃ m', (authHandlePacket esp packet).run m = some (.ok, m', [sent (frame .ack p.sequence
        (statusPayload .ok ++ esp.fillRandom ++
          deviceProofOf s.key p.payload esp.fillRandom))]) ∧
      m'.Holds (s.challenged p.payload esp.fillRandom hn esp.length_fillRandom) := by
  obtain ⟨clientNonce, hcopy₁, hc⟩ :=
    (Buffer.begins_nil m.clientNonce).copy p.payload (by simp [hn])
  obtain ⟨serverNonce, hcopy₂, hs⟩ := (Buffer.begins_nil m.serverNonce).copy esp.fillRandom
    (by simp [esp.length_fillRandom, authNonceSize])
  have hread : packet.payload.read? 0 authNonceSize = some p.payload := by
    rw [← hn, hp.payload.read_all]
  rw [List.length_nil] at hcopy₁ hcopy₂
  rw [List.nil_append] at hc hs
  have hpair : ∀ pre : List UInt8, pre.length ≤ 32 → ∃ output,
      hmacPrefixedNoncePair pre m.key m.keyLen clientNonce serverNonce = some (some output) ∧
      output.Begins (Alphabet.hmac s.key (pre ++ p.payload ++ esp.fillRandom)) := by
    intro pre hpre
    rw [h.keyLen]
    exact hmacPrefixedNoncePair_spec h.key h.length_key hc hs hn esp.length_fillRandom hpre
  obtain ⟨sessionKey, hmac₁, hsession⟩ := hpair authSessionPrefix (by simp [authSessionPrefix])
  obtain ⟨deviceProof, hmac₂, hproof⟩ := hpair authDeviceProofPrefix
    (by simp [authDeviceProofPrefix])
  obtain ⟨response, hfill, hresponse⟩ := challengeResponse_spec hs esp.length_fillRandom hproof
  have hsize : (statusPayload .ok ++ esp.fillRandom ++ (Alphabet.hmac s.key
      (authDeviceProofPrefix ++ p.payload ++ esp.fillRandom)).take authTagSize).length =
      1 + authNonceSize + authTagSize := by
    simp [statusPayload, esp.length_fillRandom, authTagSize, authNonceSize]
  have hsend := fun m : AuthState => protocolSendPacket_run Command.ack.code p.sequence hresponse
    (by rw [hsize]; decide) m
  rw [hsize] at hsend
  have hreq : m.required = true := h.required.trans hr
  refine ⟨{ m with
    clientNonce
    serverNonce
    sessionKey
    pending := true
    authenticated := false
    replayCache := .filled _ .cleared
    nextReplayEntry := 0 }, ?_, ?_⟩
  · simp only [authHandlePacket, Checked.run_get_bind, hreq, Bool.not_true, Bool.false_eq_true,
      if_false, hp.length, hn, if_true, Checked.run_update_bind, hread, hcopy₁, hcopy₂,
      Option.bind_eq_bind, Option.bind_some, Option.pure_def, run_mac_bind hmac₁,
      run_mac_bind hmac₂, Checked.run_access_bind, hfill, Checked.run_bind_of_eq (hsend _),
      hp.sequence]
    rfl
  · exact { h with
      pending := rfl
      authenticated := rfl
      clientNonce := hc
      serverNonce := hs
      sessionKey := hsession
      length_sessionKey := length_sessionKeyOf ..
      cache := cacheHolds_cleared }

theorem authHandlePacket_realizes (esp : EspIdf UInt8) {packet : Packet}
    {p : OtaLink.Packet UInt8} (hp : packet.Holds p) :
    Checked.Realizes view AuthState.Holds Eq (authHandlePacket esp packet)
      (OtaLink.authHandlePacket esp p) := by
  intro m s h
  by_cases hr : s.required = true
  swap
  · refine ⟨.unknownCommand, m, ?_, ?_⟩
    · simp [authHandlePacket, h.required, hr, OtaLink.authHandlePacket]
    · simpa [OtaLink.authHandlePacket, hr] using h
  by_cases hn : p.payload.length = authNonceSize
  · obtain ⟨hval, hstate, hlog⟩ := authHandlePacket_challenge esp p hr hn
    obtain ⟨m', hrun, h'⟩ := authHandlePacket_challenge_run esp hp h hr hn
    rw [hval, hstate, hlog]
    exact ⟨.ok, m', hrun, h', rfl⟩
  by_cases hl : p.payload.length = authNonceSize + authTagSize
  swap
  · refine ⟨.invalidLength, m, ?_, ?_⟩
    · simp [authHandlePacket, h.required, hr, OtaLink.authHandlePacket, hp.length, hn, hl]
    · simpa [OtaLink.authHandlePacket, hr, hn, hl] using h
  have hne : authTagSize ≠ 0 := by decide
  by_cases ha : s.pending = true ∨ s.authenticated = true
  swap
  · simp only [not_or, Bool.not_eq_true] at ha
    refine ⟨.authRequired, m, ?_, ?_⟩
    · simp [authHandlePacket, h.required, h.pending, h.authenticated, hr, hp.length, hl, hne, ha,
        OtaLink.authHandlePacket]
    · simpa [OtaLink.authHandlePacket, hr, hl, hne, ha] using h
  have hpending : ¬ (s.pending = false ∧ s.authenticated = false) := by
    rcases ha with ha | ha <;> simp [ha]
  -- From here on both sides compare the two halves of the payload, one after the other.
  have hnonce : packet.payload.read? 0 authNonceSize = some (p.payload.take authNonceSize) := by
    rw [hp.read (by omega), List.drop_zero]
  have hproof : packet.payload.read? authNonceSize authTagSize =
      some (p.payload.drop authNonceSize) := by
    rw [hp.read (by omega), List.take_of_length_le]
    rw [List.length_drop]
    omega
  have hclient : m.clientNonce.read? 0 authNonceSize = some s.clientNonce := by
    have hread := h.clientNonce.read_all
    rwa [s.length_clientNonce] at hread
  obtain ⟨expected, hmac, hexpected⟩ := @AuthState.Holds.noncePair m s h authProofPrefix
    (by simp [authProofPrefix])
  have hlist : OtaLink.hmacPrefixedNoncePair authProofPrefix s.key s.clientNonce s.serverNonce =
      some (Alphabet.hmac s.key (authProofPrefix ++ s.clientNonce ++ s.serverNonce)) :=
    hmacPrefixedNoncePair_eq (by simp [authProofPrefix]) s.length_clientNonce s.length_serverNonce
  have htag := read_tag hexpected
  have hlen := Alphabet.length_hmac s.key (authProofPrefix ++ s.clientNonce ++ s.serverNonce)
  have hself : authProofOf s.key s.clientNonce s.serverNonce = (Alphabet.hmac s.key
    (authProofPrefix ++ s.clientNonce ++ s.serverNonce)).take authTagSize := rfl
  generalize Alphabet.hmac s.key (authProofPrefix ++ s.clientNonce ++ s.serverNonce) = tag
    at hlist htag hlen hself
  by_cases hc : p.payload.take authNonceSize = s.clientNonce
  swap
  · have hdiff : constantTimeEqual (p.payload.take authNonceSize) s.clientNonce = false :=
      Bool.eq_false_iff.mpr fun heq => hc ((constantTimeEqual_iff (by simp [hl])).mp heq)
    refine ⟨.authRequired, m, ?_, ?_⟩
    · simp [authHandlePacket, h.required, h.pending, h.authenticated, hr, hp.length, hl, hne,
        hpending, hnonce, hclient, hdiff, hc, OtaLink.authHandlePacket]
    · simpa [OtaLink.authHandlePacket, hr, hl, hne, hpending, hc] using h
  by_cases ht : p.payload.drop authNonceSize = tag.take authTagSize
  swap
  · have hdiff : constantTimeEqual (p.payload.drop authNonceSize) (tag.take authTagSize) = false :=
      Bool.eq_false_iff.mpr fun heq =>
        ht ((constantTimeEqual_iff (by simp [hl, hlen, authTagSize])).mp heq)
    refine ⟨.authRequired, m, ?_, ?_⟩
    · simp [authHandlePacket, h.required, h.pending, h.authenticated, hr, hp.length, hl, hne,
        hpending, hnonce, hclient, constantTimeEqual_self, hc, run_mac_bind hmac, hproof, htag,
        hdiff, hlist, ht, OtaLink.authHandlePacket]
    · simpa [OtaLink.authHandlePacket, hr, hl, hne, hpending, hc, hlist, ht] using h
  have hpay : p.payload = s.clientNonce ++ authProofOf s.key s.clientNonce s.serverNonce := by
    rw [← List.take_append_drop authNonceSize p.payload, hc, ht, hself]
  obtain ⟨hval, hstate, hlog⟩ := authHandlePacket_proof esp p hr ha hpay
  rw [hval, hstate, hlog]
  refine ⟨.ok, { m with pending := false, authenticated := true }, ?_,
    { h with pending := rfl, authenticated := rfl }, rfl⟩
  simp [authHandlePacket, h.required, h.pending, h.authenticated, hr, hp.length, hl, hne, hpending,
    hnonce, hclient, constantTimeEqual_self, hc, run_mac_bind hmac, hproof, htag, ht, hp.sequence,
    Checked.run_bind_of_eq (protocolSendAck_run _ _)]

/-! ## The replay cache realizes the ring -/

/-- The loop finds what the ring finds. -/
theorem findReplay_spec {cache : Buffer ReplayEntry authReplayCacheSize}
    {entries : List ReplayEntry} {slots : List (Option (OtaLink.ReplayEntry UInt8))}
    (hbegins : cache.Begins entries) (hlen : entries.length = 8) (hslots : slots.length = 8)
    (hin : ∀ (i : ℕ) (m : ReplayEntry) o, entries[i]? = some m → slots[i]? = some o → m.In o)
    {packet : Packet} {p : OtaLink.Packet UInt8} (hp : packet.Holds p) (k : ℕ) :
    ∀ i, i + k = 8 → ∃ r, findReplay cache packet k i = some r ∧
      Option.Rel ReplayEntry.Stores r (((slots.drop i).filterMap id).find? fun entry =>
        entry.requestCommand == p.command && entry.sequence == p.sequence) := by
  induction k with
  | zero =>
    intro i hi
    rw [List.drop_of_length_le (by omega)]
    exact ⟨none, rfl, .none⟩
  | succ k ih =>
    intro i hi
    have hm : entries[i]? = some entries[i] := List.getElem?_eq_getElem (by omega)
    have ho : slots[i]? = some slots[i] := List.getElem?_eq_getElem (by omega)
    have hload : cache.load? i = some entries[i] := (hbegins.load (by omega)).trans hm
    obtain ⟨r, hr, hrel⟩ := ih (i + 1) (by omega)
    have hdrop : slots.drop i = slots[i] :: slots.drop (i + 1) :=
      List.drop_eq_getElem_cons (by omega)
    have hcell := hin i _ _ hm ho
    rw [hdrop]
    simp only [findReplay, hload, Option.bind_eq_bind, Option.bind_some]
    rcases hslot : slots[i] with _ | e <;> rw [hslot] at hcell
    · have hvalid : entries[i].valid = false := hcell
      rw [hvalid]
      exact ⟨r, hr, hrel⟩
    · have hstores : entries[i].Stores e := hcell
      have hfilter : (some e :: slots.drop (i + 1)).filterMap id =
          e :: (slots.drop (i + 1)).filterMap id := rfl
      rw [hfilter, List.find?_cons, hstores.valid, hstores.requestCommand,
        hstores.sequence, hp.command, hp.sequence]
      by_cases hmatch : e.requestCommand = p.command ∧ e.sequence = p.sequence
      · refine ⟨some entries[i], ?_, ?_⟩
        · simp [hmatch]
        · simpa [hmatch] using Option.Rel.some hstores
      · have hmiss : (e.requestCommand == p.command && e.sequence == p.sequence) = false := by
          simpa using hmatch
        have hskip : (!true || e.requestCommand != p.command || e.sequence != p.sequence) =
            true := by
          simp only [Bool.not_true, Bool.false_or, bne, ← Bool.not_and, hmiss, Bool.not_false]
        rw [if_pos hskip, hmiss]
        exact ⟨r, hr, hrel⟩

theorem authCheckReplay_realizes {packet : Packet} {p : OtaLink.Packet UInt8}
    (hp : packet.Holds p) : Checked.Realizes view AuthState.Holds Eq (authCheckReplay packet)
      (OtaLink.authCheckReplay p) := by
  intro m s h
  by_cases hr : s.required = true ∧ authCommandIsProtected p.command = true
  swap
  · have hskip : (!s.required || !authCommandIsProtected p.command) = true := by
      simpa [-not_and, not_and_or] using hr
    refine ⟨(.ok, false), m, ?_, ?_⟩
    · simp [authCheckReplay, OtaLink.authCheckReplay, h.required, hp.command, -Bool.or_eq_true,
        hskip]
    · simpa [OtaLink.authCheckReplay, -Bool.or_eq_true, hskip] using h
  by_cases ha : s.authenticated = true
  swap
  · refine ⟨(.authRequired, false), m, ?_, ?_⟩
    · simp [authCheckReplay, OtaLink.authCheckReplay, h.required, hp.command, h.authenticated, hr,
        ha]
    · simpa [OtaLink.authCheckReplay, hr, ha] using h
  obtain ⟨digest, hdigest, hbegins⟩ := computeRequestDigest_spec hp
  obtain ⟨hnext, entries, hlen, hcache, hin⟩ := h.cache
  obtain ⟨r, hfind, hrel⟩ := findReplay_spec hcache hlen (by simp) hin hp 8 0 rfl
  have hring : ((s.replayCache.slots.toList.drop 0).filterMap id).find? (fun entry =>
      entry.requestCommand == p.command && entry.sequence == p.sequence) =
      s.replayCache.find? fun entry =>
        entry.requestCommand == p.command && entry.sequence == p.sequence := rfl
  rw [hring] at hrel
  have hright : digest.read? 0 sha256Size = some (OtaLink.computeRequestDigest p) := by
    have hread := hbegins.read_all
    rwa [OtaLink.computeRequestDigest, Alphabet.length_espSha] at hread
  generalize hlookup : s.replayCache.find? (fun entry =>
    entry.requestCommand == p.command && entry.sequence == p.sequence) = found at hrel
  rcases hrel with @⟨entry, e, hstores⟩ | _
  swap
  · refine ⟨(.ok, false), m, ?_, ?_⟩
    · simp [authCheckReplay, OtaLink.authCheckReplay, h.required, hp.command, h.authenticated, hr,
        ha, hdigest, hfind, authReplayCacheSize, AuthState.lookup, hlookup]
    · simpa [OtaLink.authCheckReplay, hr, ha, AuthState.lookup, hlookup] using h
  have hleft : entry.requestDigest.read? 0 sha256Size = some e.requestDigest := by
    have hread := hstores.requestDigest.read_all
    rwa [hstores.length_requestDigest] at hread
  have hlength : e.requestDigest.length = (OtaLink.computeRequestDigest p).length := by
    rw [hstores.length_requestDigest, OtaLink.computeRequestDigest, Alphabet.length_espSha]
    rfl
  by_cases hsame : e.requestDigest = OtaLink.computeRequestDigest p
  swap
  · have hdiff : constantTimeEqual e.requestDigest (OtaLink.computeRequestDigest p) = false :=
      Bool.eq_false_iff.mpr fun heq => hsame ((constantTimeEqual_iff hlength).mp heq)
    refine ⟨(.authRequired, false), m, ?_, ?_⟩
    · simp [authCheckReplay, OtaLink.authCheckReplay, h.required, hp.command, h.authenticated, hr,
        ha, hdigest, hfind, authReplayCacheSize, AuthState.lookup, hlookup, hleft, hright, hdiff,
        hsame]
    · simpa [OtaLink.authCheckReplay, hr, ha, AuthState.lookup, hlookup, hsame] using h
  have hsend := protocolSendPacket_run e.responseCommand p.sequence hstores.responsePayload
    hstores.responsePayload.length_le m
  rw [← hstores.responseLength] at hsend
  refine ⟨(.ok, true), m, ?_, ?_⟩
  · simp [authCheckReplay, OtaLink.authCheckReplay, h.required, hp.command, h.authenticated, hr,
      ha, hdigest, hfind, authReplayCacheSize, AuthState.lookup, hlookup, hleft, hright,
      constantTimeEqual_self, hsame, Checked.run_bind_of_eq hsend, sent, hstores.responseCommand,
      hp.sequence]
  · simpa [OtaLink.authCheckReplay, hr, ha, AuthState.lookup, hlookup, hsame] using h

/-! ## Tags -/

/-- The unwrapped length and the unwrapped payload, or the same error. -/
def Unwrapped (packet : Packet) :
    Except ProtocolError ℕ → Except ProtocolError (List UInt8) → Prop
  | .error e, .error e' => e = e'
  | .ok n, .ok payload => n = payload.length ∧ packet.payload.Begins payload
  | _, _ => False

/-- Unwrapping reads inside the payload and finds what unwrapping a list finds. -/
theorem authUnwrapPacket_run {packet : Packet} {p : OtaLink.Packet UInt8} (hp : packet.Holds p)
    {m : AuthState} {s : OtaLink.AuthState UInt8} (h : m.Holds s) :
    ∃ r, (∀ t : σ, (authUnwrapPacket m packet).run t = some (r, t, [])) ∧
      Unwrapped packet r (OtaLink.authUnwrapPacket s p) := by
  have hle := hp.length_le
  by_cases hr : s.required = true ∧ authCommandIsProtected p.command = true
  swap
  · have hskip : (!s.required || !authCommandIsProtected p.command) = true := by
      simpa [-not_and, not_and_or] using hr
    refine ⟨.ok p.payload.length, fun t => ?_, ?_⟩
    · simp [authUnwrapPacket, h.required, hp.command, hp.length, -Bool.or_eq_true, hskip]
    · simp only [OtaLink.authUnwrapPacket, hskip, if_true]
      exact ⟨rfl, hp.payload⟩
  by_cases ha : s.authenticated = true ∧ authTagSize ≤ p.payload.length
  swap
  · have hbad : (!s.authenticated || decide (p.payload.length < authTagSize)) = true := by
      simpa [-not_and, not_and_or] using ha
    refine ⟨.error .authRequired, fun t => ?_, ?_⟩
    · simp [authUnwrapPacket, h.required, hp.command, hp.length, h.authenticated, hr,
        -Bool.or_eq_true, hbad]
    · simp only [OtaLink.authUnwrapPacket, hr.1, hr.2, hbad]
      rfl
  generalize hn : p.payload.length - authTagSize = n
  generalize hpay : p.payload.take n = payload
  have hlen : payload.length = n := by
    rw [← hpay, List.length_take]
    omega
  have hbegins : packet.payload.Begins payload := by
    have hsplit := List.take_append_drop n p.payload
    rw [hpay] at hsplit
    exact (hsplit.symm ▸ hp.payload).of_append
  obtain ⟨expected, hmac, hexpected⟩ := computePacketTag_spec p.command p.sequence h.sessionKey
    h.length_sessionKey hbegins (by omega)
  rw [hlen] at hmac
  have htag : packet.payload.read? n authTagSize = some (p.payload.drop n) := by
    rw [hp.read (by omega), List.take_of_length_le]
    rw [List.length_drop]
    omega
  have hread := read_tag hexpected
  have hsize := Alphabet.length_hmac s.sessionKey (requestInput p.command p.sequence payload)
  have hlist : OtaLink.computePacketTag s p.command p.sequence payload =
      some (Alphabet.hmac s.sessionKey (requestInput p.command p.sequence payload)) := by
    rw [OtaLink.computePacketTag, OtaLink.hmacSha256, if_neg]
    rw [length_requestInput, hmacMaxDataSize]
    omega
  generalize Alphabet.hmac s.sessionKey (requestInput p.command p.sequence payload) = tag
    at hread hsize hlist
  have hshort : ¬ p.payload.length < authTagSize := by omega
  by_cases ht : p.payload.drop n = tag.take authTagSize
  · refine ⟨.ok n, fun t => ?_, ?_⟩
    · simp [authUnwrapPacket, h.required, hp.command, hp.sequence, hp.length, h.authenticated, hr,
        ha.1, hshort, hn, run_mac_bind hmac, htag, hread, ht, constantTimeEqual_self]
    · simp only [OtaLink.authUnwrapPacket, hr.1, hr.2, ha.1, hshort, hn, hpay, hlist, ht,
        Bool.not_true, Bool.or_self, Bool.false_eq_true, if_false, decide_false, ne_eq, not_true]
      exact ⟨hlen.symm, hbegins⟩
  · have hdiff : constantTimeEqual (p.payload.drop n) (tag.take authTagSize) = false := by
      refine Bool.eq_false_iff.mpr fun heq => ht ((constantTimeEqual_iff ?_).mp heq)
      rw [List.length_drop, List.length_take, hsize]
      have hmin : authTagSize ≤ 32 := by decide
      omega
    refine ⟨.error .authRequired, fun t => ?_, ?_⟩
    · simp [authUnwrapPacket, h.required, hp.command, hp.sequence, hp.length, h.authenticated, hr,
        ha.1, hshort, hn, run_mac_bind hmac, htag, hread, hdiff]
    · simp [OtaLink.authUnwrapPacket, hr.1, hr.2, ha.1, hshort, hn, hpay, hlist, ht, Unwrapped]

/-! ## The response path realizes the response path -/

section Cache
variable {cache : Buffer ReplayEntry authReplayCacheSize} {next : ℕ}
  {r : Ring (OtaLink.ReplayEntry UInt8) 8}

/-- The entry that is written next is one of the array. -/
theorem CacheHolds.load (h : CacheHolds cache next r) : ∃ entry, cache.load? next = some entry := by
  obtain ⟨hnext, entries, hlen, hbegins, -⟩ := h
  have hlt : next < entries.length := by
    have := r.next.isLt
    omega
  exact ⟨_, (hbegins.load hlt).trans (List.getElem?_eq_getElem hlt)⟩

theorem CacheHolds.insert (h : CacheHolds cache next r) {m : ReplayEntry}
    {e : OtaLink.ReplayEntry UInt8} (hm : m.Stores e) :
    ∃ cache', cache.store? next m = some cache' ∧
      CacheHolds cache' ((next + 1) % authReplayCacheSize) (r.insert e) := by
  obtain ⟨hnext, entries, hlen, hbegins, hin⟩ := h
  have hlt : next < entries.length := by
    have := r.next.isLt
    omega
  obtain ⟨cache', hstore, hbegins'⟩ := hbegins.set hlt m
  refine ⟨cache', hstore, ?_, entries.set next m, by rw [List.length_set, hlen], hbegins', ?_⟩
  · rw [hnext]
    rfl
  · intro i x o hx ho
    have hslots : (r.insert e).slots.toList = r.slots.toList.set next (some e) := by
      rw [Ring.insert, Vector.toList_set, hnext]
    rw [hslots] at ho
    rw [List.getElem?_set] at hx ho
    by_cases hi : next = i
    · have hlt' : i < r.slots.toList.length := by
        rw [Vector.length_toList]
        omega
      rw [if_pos hi, if_pos (by omega)] at hx
      rw [if_pos hi, if_pos (by omega)] at ho
      cases hx
      cases ho
      exact hm
    · rw [if_neg hi] at hx ho
      exact hin i x o hx ho

end Cache

theorem authSendResponse_realizes {n : ℕ} {request : Packet} {p : OtaLink.Packet UInt8}
    (hp : request.Holds p) (c : Command) {payload : Buffer UInt8 n} {ps : List UInt8}
    (hpayload : payload.Begins ps) (hfit : ps.length ≤ protocolMaxPayload) :
    Checked.Realizes view AuthState.Holds (fun _ _ => True)
      (authSendResponse request c payload ps.length) (OtaLink.authSendResponse p c ps) := by
  intro m s h
  obtain ⟨response, hcopy, hresponse⟩ := copySome_spec
    (Buffer.begins_nil (.blank UInt8 protocolMaxPayload)) hpayload (by simpa using hfit)
  rw [List.length_nil] at hcopy
  rw [List.nil_append] at hresponse
  have hsigns : (m.required && m.authenticated && authCommandIsProtected p.command) =
      s.signs p.command := by
    rw [h.required, h.authenticated, OtaLink.AuthState.signs]
  by_cases hs : s.signs p.command = true
  swap
  · refine ⟨(), m, ?_, ?_⟩
    · simp only [authSendResponse, Checked.run_access_bind, hcopy, Option.bind_some,
        Checked.run_get_bind, hp.command, hsigns, hs, Bool.false_eq_true, if_false, hp.sequence]
      rw [protocolSendPacket_run c.code p.sequence hresponse hfit]
      simp [OtaLink.authSendResponse, hs, sent, frame]
    · simpa [OtaLink.authSendResponse, hs] using h
  by_cases hl : ps.length + authTagSize > protocolMaxPayload
  · refine ⟨(), m, ?_, ?_⟩
    · simp only [authSendResponse, Checked.run_access_bind, hcopy, Option.bind_some,
        Checked.run_get_bind, hp.command, hsigns, hs, if_true, if_pos hl, hp.sequence]
      rw [protocolSendNack_run]
      simp [OtaLink.authSendResponse, hs, hl]
    · simpa [OtaLink.authSendResponse, hs, hl] using h
  obtain ⟨hstate, hlog⟩ := authSendResponse_spec p c (Nat.not_lt.mp hl) s
  rw [hstate, hlog]
  obtain ⟨tag, hmac, htag⟩ := computeResponseTag_spec p.command c.code p.sequence h.sessionKey
    h.length_sessionKey hpayload hfit
  obtain ⟨signed, hsign, hsigned⟩ := hresponse.copy
    (responseTag s.sessionKey p.command c.code p.sequence ps) (by
      rw [length_responseTag]
      exact Nat.not_lt.mp hl)
  obtain ⟨digest, hdigest, hdbegins⟩ := computeRequestDigest_spec hp
  obtain ⟨entry, hentry⟩ := h.cache.load
  -- The entry takes the digest of the request and the signed response.
  obtain ⟨requestDigest, hcopy₁, hd⟩ := (Buffer.begins_nil entry.requestDigest).copy
    (OtaLink.computeRequestDigest p) (by simp [OtaLink.computeRequestDigest, sha256Size])
  obtain ⟨stored, hcopy₂, hstored⟩ := (Buffer.begins_nil entry.responsePayload).copy
    (ps ++ responseTag s.sessionKey p.command c.code p.sequence ps)
    (by simpa using hsigned.length_le)
  have hsize : (ps ++ responseTag s.sessionKey p.command c.code p.sequence ps).length =
      ps.length + authTagSize := by
    rw [List.length_append, length_responseTag]
    rfl
  have hread₁ : digest.read? 0 sha256Size = some (OtaLink.computeRequestDigest p) := by
    have hread := hdbegins.read_all
    rwa [OtaLink.computeRequestDigest, Alphabet.length_espSha] at hread
  have hread₂ := hsigned.read_all
  rw [hsize] at hread₂
  have hread₃ : tag.read? 0 authTagSize =
      some (responseTag s.sessionKey p.command c.code p.sequence ps) := read_tag htag
  rw [List.length_nil] at hcopy₁ hcopy₂
  obtain ⟨cache, hstore, hcache⟩ := h.cache.insert (m := {
      valid := true
      requestCommand := p.command
      sequence := p.sequence
      requestDigest
      responseCommand := c.code
      responseLength := ps.length + authTagSize
      responsePayload := stored }) (e := s.entryFor p c ps) {
    valid := rfl
    requestCommand := rfl
    sequence := rfl
    requestDigest := hd
    length_requestDigest := Alphabet.length_espSha _
    responseCommand := rfl
    responseLength := hsize.symm
    responsePayload := hstored }
  have hsend := fun m : AuthState => protocolSendPacket_run c.code p.sequence hsigned
    hsigned.length_le m
  rw [hsize] at hsend
  refine ⟨(), { m with
    replayCache := cache
    nextReplayEntry := (m.nextReplayEntry + 1) % authReplayCacheSize }, ?_, ?_, trivial⟩
  · simp only [authSendResponse, Checked.run_access_bind, hcopy, Option.bind_some,
      Checked.run_get_bind, hsigns, hs, if_true, if_neg hl, hp.command, hp.sequence,
      run_mac_bind hmac, Option.getD_some, hread₃, Option.bind_eq_bind, hsign, hdigest,
      Checked.run_update_bind, hentry, hread₁, hcopy₁, hread₂, hcopy₂, hstore, Option.pure_def,
      hsend]
    rw [OtaLink.AuthState.response, if_pos hs]
    rfl
  · rw [OtaLink.AuthState.remember, if_pos hs]
    exact { h with cache := hcache }

theorem authSendAck_realizes {request : Packet} {p : OtaLink.Packet UInt8} (hp : request.Holds p) :
    Checked.Realizes view AuthState.Holds (fun _ _ => True) (authSendAck request)
      (OtaLink.authSendAck p) :=
  authSendResponse_realizes hp .ack (begins_status .ok)
    (by simp [statusPayload, protocolMaxPayload])

theorem authSendNack_realizes {request : Packet} {p : OtaLink.Packet UInt8} (hp : request.Holds p)
    (error : ProtocolError) :
    Checked.Realizes view AuthState.Holds (fun _ _ => True) (authSendNack request error)
      (OtaLink.authSendNack p error) :=
  authSendResponse_realizes hp .nack (begins_status error)
    (by simp [statusPayload, protocolMaxPayload])

end Spec
end OtaLink.Mem
