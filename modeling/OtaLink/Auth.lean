import OtaLink.Platform
import OtaLink.Lib.Ring

/-!
# Link authentication (`auth.c`)

A session is a nonce pair, the key derived from it, and a cache of the responses
to recent protected requests. A challenge starts a session and empties the cache, a
proof over the current nonce pair makes it authenticated, and a protected request is
looked up in the cache, then verified, then executed, then answered through
`authSendResponse`, which signs the response and stores it.

## Main definitions

* `AuthState`, `ReplayEntry` — `auth_state_t` and `auth_replay_entry_t`.
* `authConfigure`, `authHandlePacket`, `authCheckReplay`, `authUnwrapPacket`,
  `authSendResponse` — the functions of the module.
* `AuthState.lookup` — the verdict of the replay cache on a request.
-/

namespace OtaLink
open Lib

def authKeyMaxSize : ℕ := 64
def authNonceSize : ℕ := 16
def authTagSize : ℕ := 16
def sha256Size : ℕ := 32
def authReplayCacheSize : ℕ := 8

variable {β : Type} [Alphabet β]

/-- The octets of an ASCII text. -/
def ascii (text : List Char) : List β := text.map fun c => ofByte c.toNat.toUInt8

def authProofPrefix : List β := ascii ['a', 'u', 't', 'h', '-', 'p', 'r', 'o', 'o', 'f']
def authDeviceProofPrefix : List β :=
  ascii ['d', 'e', 'v', 'i', 'c', 'e', '-', 'p', 'r', 'o', 'o', 'f']
def authSessionPrefix : List β := ascii ['s', 'e', 's', 's', 'i', 'o', 'n']
def authResponsePrefix : List β := ascii ['r', 'e', 's', 'p', 'o', 'n', 's', 'e']

/-- The largest input of `hmac_sha256`: the response prefix, two command octets, the
sequence and a full payload. -/
def hmacMaxDataSize : ℕ := 8 + 4 + protocolMaxPayload

/-- `hmac_sha256` fails on inputs its buffer cannot hold. -/
def hmacSha256 (key data : List β) : Option (List β) :=
  if data.length > hmacMaxDataSize then none else some (Alphabet.hmac key data)

/-- The prefix domain-separates challenge proof, device proof, and session-key
derivation over the same nonce pair. -/
def hmacPrefixedNoncePair (pre key clientNonce serverNonce : List β) : Option (List β) :=
  if pre.length + 2 * authNonceSize > 32 + 2 * authNonceSize then none
  else hmacSha256 key (pre ++ clientNonce ++ serverNonce)

/-- The octets a request is identified and authenticated by. -/
def requestInput (command : UInt8) (sequence : UInt16) (payload : List β) : List β :=
  ofByte command :: le16 sequence ++ payload

/-- The octets a response is authenticated by; they bind the original request command. -/
def responseInput (requestCommand responseCommand : UInt8) (sequence : UInt16)
    (payload : List β) : List β :=
  authResponsePrefix ++ ofByte requestCommand :: ofByte responseCommand :: le16 sequence ++
    payload

/-- Replay-cache identity of a request, over its payload with the tag. -/
def computeRequestDigest (packet : Packet β) : List β :=
  Alphabet.espSha (requestInput packet.command packet.sequence packet.payload)

/-- A cached response under the request it answers. -/
structure ReplayEntry (β : Type) where
  requestCommand : UInt8
  sequence : UInt16
  requestDigest : List β
  responseCommand : UInt8
  responsePayload : List β
  deriving DecidableEq

/-- `s_auth`. The cache is a ring whose empty slots are the entries with `valid` unset. -/
structure AuthState (β : Type) where
  required : Bool
  pending : Bool
  authenticated : Bool
  key : List β
  clientNonce : List β
  serverNonce : List β
  sessionKey : List β
  replayCache : Ring (ReplayEntry β) 8
  length_clientNonce : clientNonce.length = authNonceSize
  length_serverNonce : serverNonce.length = authNonceSize

attribute [simp] AuthState.length_clientNonce AuthState.length_serverNonce

/-- The state after `memset(&s_auth, 0, sizeof(s_auth))`. -/
def AuthState.cleared : AuthState β where
  required := false
  pending := false
  authenticated := false
  key := []
  clientNonce := List.replicate authNonceSize (ofByte 0)
  serverNonce := List.replicate authNonceSize (ofByte 0)
  sessionKey := List.replicate sha256Size (ofByte 0)
  replayCache := .empty 8
  length_clientNonce := List.length_replicate
  length_serverNonce := List.length_replicate

/-- Passing an invalid key disables authentication; the caller rejects it before. -/
def authConfigure (key : Option (List β)) (requireAuthentication : Bool) : AuthState β :=
  match key with
  | none => .cleared
  | some key =>
    if key.length = 0 ∨ key.length > authKeyMaxSize then .cleared
    else { AuthState.cleared with key, required := requireAuthentication }

def authCommandIsProtected (command : UInt8) : Bool :=
  command == Command.reboot.code || command == Command.rollback.code ||
    command == Command.otaBegin.code || command == Command.otaData.code ||
    command == Command.otaEnd.code || command == Command.otaAbort.code

/-- The commands `auth_command_is_protected` names. -/
def Command.isProtected : Command → Bool
  | .reboot | .rollback | .otaBegin | .otaData | .otaEnd | .otaAbort => true
  | _ => false

@[simp] theorem authCommandIsProtected_code (c : Command) :
    authCommandIsProtected c.code = c.isProtected := by
  cases c <;> rfl

/-! ## Frames -/

/-- `protocol_send_packet`. -/
def frame (command : Command) (sequence : UInt16) (payload : List β) : Packet β where
  version := protocolVersion
  command := command.code
  sequence
  payload

/-- The payload of an ACK, and of a NACK with its error code. -/
def statusPayload (status : ProtocolError) : List β := [ofByte status.code]

/-- `protocol_send_ack`. -/
def ackFrame (sequence : UInt16) : Packet β := frame .ack sequence (statusPayload .ok)

/-- `protocol_send_nack`. -/
def nackFrame (sequence : UInt16) (error : ProtocolError) : Packet β :=
  frame .nack sequence (statusPayload error)

abbrev AuthRoutine (β : Type) := Routine (AuthState β) (Event β)

/-! ## The handshake -/

def authHandlePacket (esp : EspIdf β) (packet : Packet β) : AuthRoutine β ProtocolError := do
  let s ← Routine.get
  if !s.required then return .unknownCommand
  if hn : packet.payload.length = authNonceSize then
    -- A fresh challenge: the old session and its replay cache must not survive.
    Routine.modify ({ · with
      clientNonce := packet.payload
      serverNonce := esp.fillRandom
      length_clientNonce := hn
      length_serverNonce := esp.length_fillRandom })
    match hmacPrefixedNoncePair authSessionPrefix s.key packet.payload esp.fillRandom with
    | none => return .authRequired
    | some sessionKey =>
      Routine.modify ({ · with
        sessionKey
        pending := true
        authenticated := false
        replayCache := .empty 8 })
      match hmacPrefixedNoncePair authDeviceProofPrefix s.key packet.payload esp.fillRandom with
      | none => return .authRequired
      | some deviceProof =>
        Routine.emit (.send (frame .ack packet.sequence
          (statusPayload .ok ++ esp.fillRandom ++ deviceProof.take authTagSize)))
        return .ok
  else if packet.payload.length = authNonceSize + authTagSize then
    -- Also accepted when already authenticated, so that a lost proof ACK can be retried.
    if !s.pending && !s.authenticated then return .authRequired
    if packet.payload.take authNonceSize ≠ s.clientNonce then return .authRequired
    match hmacPrefixedNoncePair authProofPrefix s.key s.clientNonce s.serverNonce with
    | none => return .authRequired
    | some expected =>
      if packet.payload.drop authNonceSize ≠ expected.take authTagSize then return .authRequired
      Routine.modify ({ · with pending := false, authenticated := true })
      Routine.emit (.send (ackFrame packet.sequence))
      return .ok
  else return .invalidLength

/-! ## Protected requests -/

/-- What the replay cache says about a request. -/
inductive ReplayVerdict (β : Type)
  /-- No live entry has the request's command and sequence. -/
  | fresh
  /-- The first such entry has another digest. -/
  | conflict
  /-- The first such entry is an exact duplicate. -/
  | duplicate (entry : ReplayEntry β)
  deriving DecidableEq

/-- The search loop of `auth_check_replay`: the first entry by index decides. -/
def AuthState.lookup (s : AuthState β) (packet : Packet β) : ReplayVerdict β :=
  match s.replayCache.find? fun entry =>
      entry.requestCommand == packet.command && entry.sequence == packet.sequence with
  | none => .fresh
  | some entry =>
    if entry.requestDigest ≠ computeRequestDigest packet then .conflict else .duplicate entry

/-- Returns the error and whether a cached response was resent. -/
def authCheckReplay (packet : Packet β) : AuthRoutine β (ProtocolError × Bool) := do
  let s ← Routine.get
  if !s.required || !authCommandIsProtected packet.command then return (.ok, false)
  if !s.authenticated then return (.authRequired, false)
  match s.lookup packet with
  | .fresh => return (.ok, false)
  | .conflict => return (.authRequired, false)
  | .duplicate entry =>
    Routine.emit (.send {
      version := protocolVersion
      command := entry.responseCommand
      sequence := packet.sequence
      payload := entry.responsePayload })
    return (.ok, true)

/-- `compute_packet_tag`. -/
def computePacketTag (s : AuthState β) (command : UInt8) (sequence : UInt16) (payload : List β) :
    Option (List β) := hmacSha256 s.sessionKey (requestInput command sequence payload)

/-- `compute_response_tag`. -/
def computeResponseTag (s : AuthState β) (requestCommand responseCommand : UInt8)
    (sequence : UInt16) (payload : List β) : Option (List β) :=
  hmacSha256 s.sessionKey (responseInput requestCommand responseCommand sequence payload)

/-- The payload without its tag, or the error. -/
def authUnwrapPacket (s : AuthState β) (packet : Packet β) : Except ProtocolError (List β) :=
  if !s.required || !authCommandIsProtected packet.command then .ok packet.payload
  else if !s.authenticated || packet.payload.length < authTagSize then .error .authRequired
  else
    let payload := packet.payload.take (packet.payload.length - authTagSize)
    match computePacketTag s packet.command packet.sequence payload with
    | none => .error .authRequired
    | some expected =>
      if packet.payload.drop (packet.payload.length - authTagSize) ≠ expected.take authTagSize then
        .error .authRequired
      else .ok payload

/-- The response goes through the session that authenticated its request. -/
def AuthState.signs (s : AuthState β) (command : UInt8) : Bool :=
  s.required && s.authenticated && authCommandIsProtected command

/-- Sign, cache and send a response. The tag is computed even if the result of
`compute_response_tag` is not looked at; the length check above it makes it succeed. -/
def authSendResponse (request : Packet β) (responseCommand : Command) (payload : List β) :
    AuthRoutine β Unit := do
  let s ← Routine.get
  if s.signs request.command then
    if payload.length + authTagSize > protocolMaxPayload then
      Routine.emit (.send (nackFrame request.sequence .invalidLength))
    else
      let tag := ((computeResponseTag s request.command responseCommand.code request.sequence
        payload).getD (List.replicate sha256Size (ofByte 0))).take authTagSize
      Routine.modify fun s => { s with
        replayCache := s.replayCache.insert {
          requestCommand := request.command
          sequence := request.sequence
          requestDigest := computeRequestDigest request
          responseCommand := responseCommand.code
          responsePayload := payload ++ tag } }
      Routine.emit (.send (frame responseCommand request.sequence (payload ++ tag)))
  else Routine.emit (.send (frame responseCommand request.sequence payload))

/-- `auth_send_ack`. -/
def authSendAck (request : Packet β) : AuthRoutine β Unit :=
  authSendResponse request .ack (statusPayload .ok)

/-- `auth_send_nack`. -/
def authSendNack (request : Packet β) (error : ProtocolError) : AuthRoutine β Unit :=
  authSendResponse request .nack (statusPayload error)

/-! ## What each function can do

The bounds that `hmac_sha256` and `hmac_prefixed_nonce_pair` check always hold
where they are called, so every MAC below is the plain primitive. -/

/-- The session key of a nonce pair. -/
def sessionKeyOf (key clientNonce serverNonce : List β) : List β :=
  Alphabet.hmac key (authSessionPrefix ++ clientNonce ++ serverNonce)

/-- The tag by which the device proves it holds the key. -/
def deviceProofOf (key clientNonce serverNonce : List β) : List β :=
  (Alphabet.hmac key (authDeviceProofPrefix ++ clientNonce ++ serverNonce)).take authTagSize

/-- The tag by which the client proves it holds the key. -/
def authProofOf (key clientNonce serverNonce : List β) : List β :=
  (Alphabet.hmac key (authProofPrefix ++ clientNonce ++ serverNonce)).take authTagSize

/-- The tag of a protected request. -/
def requestTag (sessionKey : List β) (command : UInt8) (sequence : UInt16) (payload : List β) :
    List β := (Alphabet.hmac sessionKey (requestInput command sequence payload)).take authTagSize

/-- The tag of a response to a protected request. -/
def responseTag (sessionKey : List β) (requestCommand responseCommand : UInt8)
    (sequence : UInt16) (payload : List β) : List β :=
  (Alphabet.hmac sessionKey
    (responseInput requestCommand responseCommand sequence payload)).take authTagSize

@[simp] theorem length_requestTag (k : List β) (c n p) : (requestTag k c n p).length = 16 := by
  simp [requestTag, authTagSize]
@[simp] theorem length_responseTag (k : List β) (rc c n p) :
    (responseTag k rc c n p).length = 16 := by
  simp [responseTag, authTagSize]
@[simp] theorem length_deviceProofOf (k cn sn : List β) : (deviceProofOf k cn sn).length = 16 := by
  simp [deviceProofOf, authTagSize]
@[simp] theorem length_authProofOf (k cn sn : List β) : (authProofOf k cn sn).length = 16 := by
  simp [authProofOf, authTagSize]
@[simp] theorem length_sessionKeyOf (k cn sn : List β) :
    (sessionKeyOf k cn sn).length = sha256Size := Alphabet.length_hmac _ _

@[simp] theorem length_ascii (text : List Char) : (ascii text : List β).length = text.length := by
  simp [ascii]

@[simp] theorem length_requestInput (c n) (p : List β) :
    (requestInput c n p).length = p.length + 3 := by
  simp [requestInput, le16]
@[simp] theorem length_responseInput (rc c n) (p : List β) :
    (responseInput rc c n p).length = p.length + 12 := by
  simp [responseInput, authResponsePrefix, le16]
  omega

theorem hmacPrefixedNoncePair_eq {pre key cn sn : List β} (hp : pre.length ≤ 32)
    (hc : cn.length = authNonceSize) (hs : sn.length = authNonceSize) :
    hmacPrefixedNoncePair pre key cn sn = some (Alphabet.hmac key (pre ++ cn ++ sn)) := by
  simp only [authNonceSize] at hc hs
  unfold hmacPrefixedNoncePair hmacSha256
  rw [if_neg (by simp only [authNonceSize]; omega), if_neg]
  simp only [List.length_append, hmacMaxDataSize, protocolMaxPayload]
  omega

/-- The state after a challenge over `clientNonce` answered with `serverNonce`. -/
def AuthState.challenged (s : AuthState β) (clientNonce serverNonce : List β)
    (hc : clientNonce.length = authNonceSize) (hs : serverNonce.length = authNonceSize) :
    AuthState β :=
  { s with
    pending := true
    authenticated := false
    clientNonce
    serverNonce
    sessionKey := sessionKeyOf s.key clientNonce serverNonce
    replayCache := .empty 8
    length_clientNonce := hc
    length_serverNonce := hs }

/-- The state after the proof of the current nonce pair. -/
def AuthState.proved (s : AuthState β) : AuthState β :=
  { s with pending := false, authenticated := true }

/-- A challenge always draws a new session. -/
theorem authHandlePacket_challenge (esp : EspIdf β) (packet : Packet β) {s : AuthState β}
    (hr : s.required = true) (hn : packet.payload.length = authNonceSize) :
    (authHandlePacket esp packet).val s = .ok ∧
      (authHandlePacket esp packet).state s =
        s.challenged packet.payload esp.fillRandom hn esp.length_fillRandom ∧
      (authHandlePacket esp packet).log s = [.send (frame .ack packet.sequence
        (statusPayload .ok ++ esp.fillRandom ++
          deviceProofOf s.key packet.payload esp.fillRandom))] := by
  have hk : hmacPrefixedNoncePair authSessionPrefix s.key _ _ = _ := hmacPrefixedNoncePair_eq
    (by simp [authSessionPrefix]) hn esp.length_fillRandom
  have hd : hmacPrefixedNoncePair authDeviceProofPrefix s.key _ _ = _ := hmacPrefixedNoncePair_eq
    (by simp [authDeviceProofPrefix]) hn esp.length_fillRandom
  simp [authHandlePacket, hr, hn, hk, hd, AuthState.challenged, sessionKeyOf, deviceProofOf]

/-- The proof of the current nonce pair is accepted, also when it comes again. -/
theorem authHandlePacket_proof (esp : EspIdf β) (packet : Packet β) {s : AuthState β}
    (hr : s.required = true) (hp : s.pending = true ∨ s.authenticated = true)
    (hpay : packet.payload = s.clientNonce ++ authProofOf s.key s.clientNonce s.serverNonce) :
    (authHandlePacket esp packet).val s = .ok ∧ (authHandlePacket esp packet).state s = s.proved ∧
      (authHandlePacket esp packet).log s = [.send (ackFrame packet.sequence)] := by
  have hl : packet.payload.length = authNonceSize + authTagSize := by
    simp [hpay, authTagSize]
  have hne : authTagSize ≠ 0 := by decide
  have hc : packet.payload.take authNonceSize = s.clientNonce := by
    rw [hpay, ← s.length_clientNonce, List.take_left]
  have ht : packet.payload.drop authNonceSize =
      authProofOf s.key s.clientNonce s.serverNonce := by
    rw [hpay, ← s.length_clientNonce, List.drop_left]
  obtain ⟨expected, he, hproof⟩ : ∃ expected,
      hmacPrefixedNoncePair authProofPrefix s.key s.clientNonce s.serverNonce = some expected ∧
      authProofOf s.key s.clientNonce s.serverNonce = expected.take authTagSize :=
    ⟨_, hmacPrefixedNoncePair_eq (by simp [authProofPrefix]) s.length_clientNonce
      s.length_serverNonce, rfl⟩
  rw [hproof] at ht
  rcases hp with hp | hp <;> simp [authHandlePacket, hr, hl, hp, hc, he, ht, hne, AuthState.proved]

/-- The handshake rejects without a trace, or draws a new session, or accepts the
proof of the current nonce pair. -/
theorem authHandlePacket_cases (esp : EspIdf β) (packet : Packet β) (s : AuthState β) :
    ((authHandlePacket esp packet).val s ≠ .ok ∧ (authHandlePacket esp packet).state s = s ∧
      (authHandlePacket esp packet).log s = []) ∨
    (∃ hn : packet.payload.length = authNonceSize, s.required = true ∧
      (authHandlePacket esp packet).val s = .ok ∧
      (authHandlePacket esp packet).state s =
        s.challenged packet.payload esp.fillRandom hn esp.length_fillRandom ∧
      (authHandlePacket esp packet).log s = [.send (frame .ack packet.sequence
        (statusPayload .ok ++ esp.fillRandom ++
          deviceProofOf s.key packet.payload esp.fillRandom))]) ∨
    (s.required = true ∧ (s.pending = true ∨ s.authenticated = true) ∧
      packet.payload = s.clientNonce ++ authProofOf s.key s.clientNonce s.serverNonce ∧
      (authHandlePacket esp packet).val s = .ok ∧
      (authHandlePacket esp packet).state s = s.proved ∧
      (authHandlePacket esp packet).log s = [.send (ackFrame packet.sequence)]) := by
  by_cases hr : s.required = true
  swap
  · simp [authHandlePacket, hr]
  by_cases hn : packet.payload.length = authNonceSize
  · exact .inr (.inl ⟨hn, hr, authHandlePacket_challenge esp packet hr hn⟩)
  by_cases hl : packet.payload.length = authNonceSize + authTagSize
  swap
  · simp [authHandlePacket, hr, hn, hl]
  have hne : authTagSize ≠ 0 := by decide
  by_cases hp : s.pending = true ∨ s.authenticated = true
  swap
  · simp only [not_or, Bool.not_eq_true] at hp
    simp [authHandlePacket, hr, hl, hp, hne]
  by_cases hc : packet.payload.take authNonceSize = s.clientNonce
  swap
  · left
    rcases hp with hp | hp <;> simp [authHandlePacket, hr, hl, hp, hc, hne]
  obtain ⟨expected, he, hproof⟩ : ∃ expected,
      hmacPrefixedNoncePair authProofPrefix s.key s.clientNonce s.serverNonce = some expected ∧
      authProofOf s.key s.clientNonce s.serverNonce = expected.take authTagSize :=
    ⟨_, hmacPrefixedNoncePair_eq (by simp [authProofPrefix]) s.length_clientNonce
      s.length_serverNonce, rfl⟩
  by_cases ht : packet.payload.drop authNonceSize = expected.take authTagSize
  · have hpay : packet.payload = s.clientNonce ++
        authProofOf s.key s.clientNonce s.serverNonce := by
      rw [← List.take_append_drop authNonceSize packet.payload, hc, ht, hproof]
    exact .inr (.inr ⟨hr, hp, hpay, authHandlePacket_proof esp packet hr hp hpay⟩)
  · left
    rcases hp with hp | hp <;> simp [authHandlePacket, hr, hl, hp, hc, he, ht, hne]

/-- Unwrapping a request of the session succeeds on exactly the tagged payloads. -/
theorem authUnwrapPacket_eq_ok {s : AuthState β} {packet : Packet β}
    (hs : s.signs packet.command = true) {payload : List β} :
    authUnwrapPacket s packet = .ok payload ↔
      packet.payload = payload ++ requestTag s.sessionKey packet.command packet.sequence payload ∧
        payload.length + 3 ≤ hmacMaxDataSize := by
  obtain ⟨⟨hr, ha⟩, hp⟩ : (s.required = true ∧ s.authenticated = true) ∧
      authCommandIsProtected packet.command = true := by simpa [AuthState.signs] using hs
  by_cases hl : packet.payload.length < authTagSize
  · have : ¬packet.payload = payload ++
        requestTag s.sessionKey packet.command packet.sequence payload := by
      intro h
      rw [h, List.length_append, length_requestTag] at hl
      simp only [authTagSize] at hl
      omega
    simp [authUnwrapPacket, hr, ha, hp, hl, this]
  constructor
  · intro h
    simp only [authUnwrapPacket, hr, ha, hp, hl, computePacketTag, hmacSha256] at h
    simp only [Bool.not_true, Bool.or_self, Bool.false_eq_true, if_false, decide_false] at h
    split at h
    · cases h
    · rename_i expected he
      split at he
      · cases he
      · rename_i hm
        simp only [length_requestInput, Option.some.injEq] at hm he
        split at h
        · cases h
        · rename_i ht
          simp only [ne_eq, Decidable.not_not] at ht
          cases h
          refine ⟨?_, by omega⟩
          rw [requestTag, he, ← ht, List.take_append_drop]
  · rintro ⟨h, hm⟩
    have htake : packet.payload.take (packet.payload.length - authTagSize) = payload := by
      rw [h]; simp [authTagSize]
    have hdrop : packet.payload.drop (packet.payload.length - authTagSize) =
        requestTag s.sessionKey packet.command packet.sequence payload := by
      rw [h]; simp [authTagSize]
    have hmac : computePacketTag s packet.command packet.sequence payload =
        some (Alphabet.hmac s.sessionKey
          (requestInput packet.command packet.sequence payload)) := by
      rw [computePacketTag, hmacSha256, if_neg]
      rw [length_requestInput]
      omega
    simp [authUnwrapPacket, hr, ha, hp, hl, htake, hdrop, hmac, requestTag]

/-- A request that does not carry its tag is answered with one error only. -/
theorem authUnwrapPacket_eq_error {s : AuthState β} {packet : Packet β} {e : ProtocolError}
    (h : authUnwrapPacket s packet = .error e) : e = .authRequired := by
  unfold authUnwrapPacket at h
  split_ifs at h with h₁ h₂
  · cases h; rfl
  · dsimp only at h
    split at h
    · cases h; rfl
    · split at h
      · cases h; rfl
      · cases h

/-- Where the session does not sign, an authenticated device takes the payload as it is. -/
theorem authUnwrapPacket_of_not_required {s : AuthState β} {packet : Packet β}
    (h : s.required = false) : authUnwrapPacket s packet = .ok packet.payload := by
  simp [authUnwrapPacket, h]

/-! ## The response path -/

/-- The entry that stores a signed response. -/
def AuthState.entryFor (s : AuthState β) (request : Packet β) (responseCommand : Command)
    (payload : List β) : ReplayEntry β where
  requestCommand := request.command
  sequence := request.sequence
  requestDigest := computeRequestDigest request
  responseCommand := responseCommand.code
  responsePayload := payload ++
    responseTag s.sessionKey request.command responseCommand.code request.sequence payload

/-- The session after a response: where it signs, it has also stored the entry. -/
def AuthState.remember (s : AuthState β) (request : Packet β) (responseCommand : Command)
    (payload : List β) : AuthState β :=
  if s.signs request.command then
    { s with replayCache := s.replayCache.insert (s.entryFor request responseCommand payload) }
  else s

/-- The frame of a response. -/
def AuthState.response (s : AuthState β) (request : Packet β) (responseCommand : Command)
    (payload : List β) : Packet β :=
  frame responseCommand request.sequence <|
    if s.signs request.command then
      payload ++
        responseTag s.sessionKey request.command responseCommand.code request.sequence payload
    else payload

/-- A response that fits is signed, stored and sent. -/
theorem authSendResponse_spec (request : Packet β) (responseCommand : Command) {payload : List β}
    (hl : payload.length + authTagSize ≤ protocolMaxPayload) (s : AuthState β) :
    (authSendResponse request responseCommand payload).state s =
        s.remember request responseCommand payload ∧
      (authSendResponse request responseCommand payload).log s =
        [.send (s.response request responseCommand payload)] := by
  have hmac : computeResponseTag s request.command responseCommand.code request.sequence payload =
      some (Alphabet.hmac s.sessionKey
        (responseInput request.command responseCommand.code request.sequence payload)) := by
    rw [computeResponseTag, hmacSha256, if_neg]
    rw [length_responseInput]
    simp only [hmacMaxDataSize, authTagSize, protocolMaxPayload] at hl ⊢
    omega
  by_cases hs : s.signs request.command = true
  · simp [authSendResponse, hs, Nat.not_lt.mpr hl, hmac, AuthState.remember, AuthState.response,
      AuthState.entryFor, responseTag]
  · simp [authSendResponse, hs, AuthState.remember, AuthState.response]

/-- The response that reports `error`, an ACK where there is none. -/
def responseFor (error : ProtocolError) : Command := if error = .ok then .ack else .nack

@[simp] theorem responseFor_ok : responseFor .ok = .ack := rfl
@[simp] theorem responseFor_of_ne {error : ProtocolError} (h : error ≠ .ok) :
    responseFor error = .nack := if_neg h

theorem length_statusPayload_le (error : ProtocolError) :
    (statusPayload error : List β).length + authTagSize ≤ protocolMaxPayload := by
  simp [statusPayload, authTagSize, protocolMaxPayload]

end OtaLink
