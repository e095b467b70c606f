import OtaLink.Auth
import OtaLink.Lib.Interaction

/-!
# The host client (`otalink.py`)

`OtaLinkClient` counts sequence numbers and keeps one session. A call authenticates
where it has to, sends one packet up to `retries` times, and authenticates once more
and sends a new packet if the device answers that it needs to. A call ends with a
response, or raises `TimeoutError` or `SystemExit`.

A transport request is one send and one receive that waits for the sequence number of
the packet; deadlines are not modelled, so a timer may expire at any time.

## Main definitions

* `HostConfig`, `HostState` — the constant and the mutable fields of `OtaLinkClient`.
* `Host.expectedDeviceProof` and its companions — the MACs of the client, which are those of the
  device.
* `authenticate`, `request` — the client.
* `runUpdateBegin`, `runUpdateData`, `runUpdateEnd`, `runAbort` — the commands.
* `cmdUpdate` — a whole update.
-/

namespace OtaLink
open Lib

variable {β : Type} [Alphabet β]

/-- The fields of the client that never change. -/
structure HostConfig (β : Type) where
  retries : ℕ
  authKey : Option (List β)

/-- The fields of the client that change. -/
structure HostState (β : Type) where
  sequence : UInt16
  sessionKey : Option (List β)
  authenticated : Bool

/-- A new client: it has no session, and its counter starts anywhere. -/
def HostState.opened (sequence : UInt16) : HostState β := ⟨sequence, none, false⟩

/-- The client with its session as in `u` and its counter at `n`. -/
def HostState.at (u : HostState β) (n : UInt16) : HostState β := { u with sequence := n }

omit [Alphabet β] in
@[simp] theorem HostState.at_at (u : HostState β) (m n : UInt16) : (u.at m).at n = u.at n := rfl
omit [Alphabet β] in
@[simp] theorem HostState.sequence_at (u : HostState β) (n : UInt16) : (u.at n).sequence = n := rfl

/-- What the client asks its operating system. -/
inductive Ask
  /-- `os.urandom(AUTH_NONCE_SIZE)`. -/
  | urandom
  deriving DecidableEq

def Answer (β : Type) : Ask → Type
  | .urandom => { nonce : List β // nonce.length = authNonceSize }

/-- What a command was doing when it failed. -/
inductive Context
  | ping | reboot | rollback | authChallenge | authProof | otaBegin | otaEnd | otaAbort
  | otaData (chunk offset : ℕ)
  deriving DecidableEq

/-- The exceptions of the client. -/
inductive HostError
  /-- `TimeoutError("timed out waiting for response")`. -/
  | timeout
  /-- `PacketTooLarge`. -/
  | packetTooLarge
  /-- `ValueError` of a payload builder. -/
  | valueError
  /-- `Authentication challenge failed`. -/
  | challengeFailed
  /-- `Authentication challenge failed: invalid device proof`. -/
  | invalidDeviceProof
  /-- `Authentication session is not established`. -/
  | sessionNotEstablished
  /-- `Authenticated response is missing its tag`. -/
  | missingTag
  /-- `Authenticated response tag verification failed`. -/
  | tagVerificationFailed
  /-- `Device returned ACK status .. during ..`. -/
  | ackStatus (context : Context)
  /-- `Device rejected ..: ..`. -/
  | rejected (context : Context)
  /-- `Unexpected response command during ..`. -/
  | unexpectedResponse (context : Context)
  /-- `No .. response from device on ..`. -/
  | noResponse (context : Context)
  /-- `Firmware file is too small to be an ESP-IDF image`. -/
  | firmwareTooSmall
  deriving DecidableEq

abbrev HostTask (β α : Type) := Task Ask (Answer β) (Packet β) (HostState β) HostError α

/-- `PROTECTED_COMMANDS`, where the client holds a key. -/
def HostConfig.guards (cfg : HostConfig β) (command : Command) : Bool :=
  cfg.authKey.isSome && command.isProtected

/-! ## Packets -/

/-- `build_packet`. -/
def buildPacket (command : Command) (sequence : UInt16) (payload : List β) :
    HostTask β (Packet β) :=
  if payload.length > protocolMaxPayload then Task.raise .packetTooLarge
  else pure (frame command sequence payload)

/-- `_next_sequence`. -/
def nextSequence : HostTask β UInt16 := do
  Task.update fun t => { t with sequence := t.sequence + 1 }
  let t ← Task.read
  return t.sequence

/-- `_request_packet` over `SerialTransport.request`. -/
def requestPacket (cfg : HostConfig β) (packet : Packet β) : HostTask β (Packet β) := do
  match ← Task.exchange packet (fun r => r.sequence == packet.sequence) cfg.retries with
  | some r => pure r
  | none => Task.raise .timeout

/-- `_request_unprotected`. -/
def requestUnprotected (cfg : HostConfig β) (command : Command) (payload : List β) :
    HostTask β (Packet β) := do
  let sequence ← nextSequence
  let packet ← buildPacket command sequence payload
  requestPacket cfg packet

/-- `ensure_ack`. -/
def ensureAck (packet : Packet β) (context : Context) : HostTask β Unit :=
  if packet.command = Command.ack.code then
    match packet.payload with
    | [] => pure ()
    | status :: _ =>
      if status = ofByte ProtocolError.ok.code then pure () else Task.raise (.ackStatus context)
  else if packet.command = Command.nack.code then Task.raise (.rejected context)
  else Task.raise (.unexpectedResponse context)

/-! ## The MACs of the client -/

namespace Host

/-- `AUTH_PROOF_PREFIX`, and the other texts that `otalink.py` puts in front. -/
def authProofPrefix : List β := ascii ['a', 'u', 't', 'h', '-', 'p', 'r', 'o', 'o', 'f']
def authDeviceProofPrefix : List β :=
  ascii ['d', 'e', 'v', 'i', 'c', 'e', '-', 'p', 'r', 'o', 'o', 'f']
def authSessionPrefix : List β := ascii ['s', 'e', 's', 's', 'i', 'o', 'n']
def authResponsePrefix : List β := ascii ['r', 'e', 's', 'p', 'o', 'n', 's', 'e']

/-- `n.to_bytes(length, "little")`, the length last. -/
def toBytesLittle (n : ℕ) : ℕ → List β
  | 0 => []
  | length + 1 => ofByte (UInt8.ofNat n) :: toBytesLittle (n / 2 ^ 8) length

/-- `expected_device_proof` of `authenticate`. -/
def expectedDeviceProof (authKey clientNonce serverNonce : List β) : List β :=
  (Alphabet.hmac authKey (authDeviceProofPrefix ++ clientNonce ++ serverNonce)).take authTagSize

/-- `self._session_key` of `authenticate`. -/
def sessionKey (authKey clientNonce serverNonce : List β) : List β :=
  Alphabet.hmac authKey (authSessionPrefix ++ clientNonce ++ serverNonce)

/-- `proof` of `authenticate`. -/
def proof (authKey clientNonce serverNonce : List β) : List β :=
  (Alphabet.hmac authKey (authProofPrefix ++ clientNonce ++ serverNonce)).take authTagSize

def requestInput (command : UInt8) (sequence : UInt16) (payload : List β) : List β :=
  [ofByte command] ++ toBytesLittle sequence.toNat 2 ++ payload

/-- `tag` of `_authenticated_payload`. -/
def tag (sessionKey : List β) (command : UInt8) (sequence : UInt16) (payload : List β) : List β :=
  (Alphabet.hmac sessionKey (requestInput command sequence payload)).take authTagSize

def responseInput (requestCommand command : UInt8) (sequence : UInt16) (payload : List β) :
    List β :=
  authResponsePrefix ++ [ofByte requestCommand] ++ [ofByte command] ++
    toBytesLittle sequence.toNat 2 ++ payload

/-- `expected` of `_verified_response`. -/
def expected (sessionKey : List β) (requestCommand command : UInt8) (sequence : UInt16)
    (payload : List β) : List β :=
  (Alphabet.hmac sessionKey (responseInput requestCommand command sequence payload)).take
    authTagSize

/-! ### They are those of the device -/

theorem authProofPrefix_eq : (authProofPrefix : List β) = OtaLink.authProofPrefix := rfl
theorem authDeviceProofPrefix_eq :
    (authDeviceProofPrefix : List β) = OtaLink.authDeviceProofPrefix := rfl
theorem authSessionPrefix_eq : (authSessionPrefix : List β) = OtaLink.authSessionPrefix := rfl
theorem authResponsePrefix_eq : (authResponsePrefix : List β) = OtaLink.authResponsePrefix := rfl

theorem toBytesLittle_two (n : UInt16) : (toBytesLittle n.toNat 2 : List β) = le16 n := by
  have hlow : UInt8.ofNat n.toNat = n.toUInt8 := rfl
  have hhigh : UInt8.ofNat (n.toNat / 2 ^ 8) = (n >>> 8).toUInt8 := by
    rw [← UInt8.toNat_inj, UInt16.toNat_toUInt8, UInt16.toNat_shiftRight, Nat.shiftRight_eq_div_pow]
    rfl
  rw [toBytesLittle, toBytesLittle, toBytesLittle, hlow, hhigh, le16]

theorem requestInput_eq (command : UInt8) (sequence : UInt16) (payload : List β) :
    requestInput command sequence payload = OtaLink.requestInput command sequence payload := by
  rw [requestInput, toBytesLittle_two, OtaLink.requestInput, List.append_assoc]
  rfl

theorem responseInput_eq (requestCommand command : UInt8) (sequence : UInt16) (payload : List β) :
    responseInput requestCommand command sequence payload =
      OtaLink.responseInput requestCommand command sequence payload := by
  rw [responseInput, toBytesLittle_two, authResponsePrefix_eq, OtaLink.responseInput]
  simp only [List.append_assoc, List.cons_append, List.nil_append]

section Macs
variable (key clientNonce serverNonce payload : List β) (c r : UInt8) (n : UInt16)

@[simp] theorem expectedDeviceProof_eq :
    expectedDeviceProof key clientNonce serverNonce =
      deviceProofOf key clientNonce serverNonce := by
  rw [expectedDeviceProof, authDeviceProofPrefix_eq, deviceProofOf]
@[simp] theorem sessionKey_eq :
    sessionKey key clientNonce serverNonce = sessionKeyOf key clientNonce serverNonce := by
  rw [sessionKey, authSessionPrefix_eq, sessionKeyOf]
@[simp] theorem proof_eq :
    proof key clientNonce serverNonce = authProofOf key clientNonce serverNonce := by
  rw [proof, authProofPrefix_eq, authProofOf]
@[simp] theorem tag_eq : tag key c n payload = requestTag key c n payload := by
  rw [tag, requestInput_eq, requestTag]
@[simp] theorem expected_eq : expected key c r n payload = responseTag key c r n payload := by
  rw [expected, responseInput_eq, responseTag]

end Macs

end Host

/-! ## Sessions -/

/-- `_clear_authentication`. -/
def clearAuthentication : HostTask β Unit :=
  Task.update fun t => { t with sessionKey := none, authenticated := false }

/-- `authenticate`. -/
def authenticate (cfg : HostConfig β) : HostTask β Unit := do
  match cfg.authKey with
  | none => pure ()
  | some key =>
    let t ← Task.read
    if t.authenticated then pure ()
    else
      let nonce ← Task.ask .urandom
      let clientNonce : List β := nonce.1
      let challenge ← requestUnprotected cfg .auth clientNonce
      if challenge.command ≠ Command.ack.code ∨
          challenge.payload.length ≠ 1 + authNonceSize + authTagSize then
        Task.raise .challengeFailed
      else
        ensureAck challenge .authChallenge
        let serverNonce := (challenge.payload.drop 1).take authNonceSize
        let deviceProof := challenge.payload.drop (1 + authNonceSize)
        if deviceProof ≠ Host.expectedDeviceProof key clientNonce serverNonce then
          Task.raise .invalidDeviceProof
        else
          Task.update fun t =>
            { t with sessionKey := some (Host.sessionKey key clientNonce serverNonce) }
          let response ← requestUnprotected cfg .auth
            (clientNonce ++ Host.proof key clientNonce serverNonce)
          ensureAck response .authProof
          Task.update fun t => { t with authenticated := true }

/-- The handshake of the client in the terms of the device. -/
theorem authenticate_eq (cfg : HostConfig β) : authenticate cfg = (match cfg.authKey with
    | none => pure ()
    | some key => do
      let t ← Task.read
      if t.authenticated then pure ()
      else
        let nonce ← Task.ask .urandom
        let clientNonce : List β := nonce.1
        let challenge ← requestUnprotected cfg .auth clientNonce
        if challenge.command ≠ Command.ack.code ∨
            challenge.payload.length ≠ 1 + authNonceSize + authTagSize then
          Task.raise .challengeFailed
        else
          ensureAck challenge .authChallenge
          let serverNonce := (challenge.payload.drop 1).take authNonceSize
          let deviceProof := challenge.payload.drop (1 + authNonceSize)
          if deviceProof ≠ deviceProofOf key clientNonce serverNonce then
            Task.raise .invalidDeviceProof
          else
            Task.update fun t =>
              { t with sessionKey := some (sessionKeyOf key clientNonce serverNonce) }
            let response ← requestUnprotected cfg .auth
              (clientNonce ++ authProofOf key clientNonce serverNonce)
            ensureAck response .authProof
            Task.update fun t => { t with authenticated := true }) := by
  unfold authenticate
  simp only [Host.expectedDeviceProof_eq, Host.sessionKey_eq, Host.proof_eq]

/-- `_authenticated_payload`. -/
def authenticatedPayload (cfg : HostConfig β) (command : Command) (sequence : UInt16)
    (payload : List β) : HostTask β (List β) :=
  if !cfg.guards command then pure payload
  else do
    let t ← Task.read
    match t.sessionKey with
    | none => Task.raise .sessionNotEstablished
    | some key => pure (payload ++ Host.tag key command.code sequence payload)

/-- `_verified_response`. -/
def verifiedResponse (command : Command) (sequence : UInt16) (packet : Packet β) :
    HostTask β (Packet β) := do
  let t ← Task.read
  match t.sessionKey with
  | none => Task.raise .sessionNotEstablished
  | some key =>
    if packet.payload.length < authTagSize then Task.raise .missingTag
    else
      let payload := packet.payload.take (packet.payload.length - authTagSize)
      let tag := packet.payload.drop (packet.payload.length - authTagSize)
      if tag ≠ Host.expected key command.code packet.command sequence payload then
        Task.raise .tagVerificationFailed
      else pure { packet with payload }

/-- `_is_auth_required`. -/
def isAuthRequired (packet : Packet β) : Bool :=
  packet.command == Command.nack.code &&
    packet.payload.head? == some (ofByte ProtocolError.authRequired.code)

/-- Only the response to a guarded command is verified. -/
def checkedResponse (cfg : HostConfig β) (command : Command) (sequence : UInt16)
    (packet : Packet β) : HostTask β (Packet β) :=
  if cfg.guards command then verifiedResponse command sequence packet else pure packet

/-- The end of `request`: the response is verified, and a reboot ends the session. -/
def finishRequest (cfg : HostConfig β) (command : Command) (sequence : UInt16)
    (packet : Packet β) : HostTask β (Packet β) := do
  let packet ← checkedResponse cfg command sequence packet
  if (command = .reboot ∨ command = .rollback) ∧ packet.command = Command.ack.code then
    clearAuthentication
    pure packet
  else pure packet

/-- One pass of the loop of `request`; `again` is the rest of the loop while
`auth_retried` is unset. -/
def requestOnce (cfg : HostConfig β) (command : Command) (payload : List β)
    (again : Option (HostTask β (Packet β))) : HostTask β (Packet β) := do
  let sequence ← nextSequence
  let packetPayload ← authenticatedPayload cfg command sequence payload
  let request ← buildPacket command sequence packetPayload
  let packet ← requestPacket cfg request
  match again with
  | none => finishRequest cfg command sequence packet
  | some again =>
    if cfg.guards command && isAuthRequired packet then again
    else finishRequest cfg command sequence packet

/-- A guarded command needs a session. -/
def authenticateFor (cfg : HostConfig β) (command : Command) : HostTask β Unit :=
  if cfg.guards command then authenticate cfg else pure ()

/-- `OtaLinkClient.request`. -/
def request (cfg : HostConfig β) (command : Command) (payload : List β) :
    HostTask β (Packet β) := do
  authenticateFor cfg command
  requestOnce cfg command payload <| some do
    clearAuthentication
    authenticate cfg
    requestOnce cfg command payload none

/-! ## Commands -/

/-- A command that reports a timeout as its own failure and insists on an ACK. -/
def runCommand (cfg : HostConfig β) (command : Command) (payload : List β) (context : Context) :
    HostTask β Unit := do
  let packet ← (request cfg command payload).handle fun e =>
    match e with
    | .timeout => Task.raise (.noResponse context)
    | e => Task.raise e
  ensureAck packet context

def runPing (cfg : HostConfig β) : HostTask β Unit := runCommand cfg .ping [] .ping
def runReboot (cfg : HostConfig β) : HostTask β Unit := runCommand cfg .reboot [] .reboot
def runRollback (cfg : HostConfig β) : HostTask β Unit := runCommand cfg .rollback [] .rollback
def runAbort (cfg : HostConfig β) : HostTask β Unit := runCommand cfg .otaAbort [] .otaAbort

/-- `build_ota_begin_payload`. -/
def buildOtaBeginPayload (firmwareSize : ℕ) (sha256 : List β) : HostTask β (List β) :=
  if ¬(0 < firmwareSize ∧ firmwareSize ≤ 0xFFFFFFFF) ∨ sha256.length ≠ 32 then
    Task.raise .valueError
  else pure (le32 firmwareSize ++ sha256)

/-- `build_ota_data_payload`. -/
def buildOtaDataPayload (chunkNumber offset : ℕ) (data : List β) : HostTask β (List β) :=
  if chunkNumber > 0xFFFFFFFF ∨ offset > 0xFFFFFFFF then Task.raise .valueError
  else if data.length > 1016 then Task.raise .packetTooLarge
  else if data.length = 0 then Task.raise .valueError
  else pure (le32 chunkNumber ++ le32 offset ++ data)

/-- `max_ota_chunk_data_size`. -/
def maxOtaChunkDataSize (cfg : HostConfig β) : ℕ := if cfg.authKey.isSome then 1000 else 1016

def runUpdateBegin (cfg : HostConfig β) (firmware : List β) : HostTask β Unit :=
  if firmware.length < 32 then Task.raise .firmwareTooSmall
  else do
    let payload ← buildOtaBeginPayload firmware.length (firmware.drop (firmware.length - 32))
    runCommand cfg .otaBegin payload .otaBegin

/-- The loop of `run_update_data` over the rest of the file, at most `fuel` times. -/
def sendChunks (cfg : HostConfig β) : ℕ → ℕ → ℕ → List β → HostTask β Unit
  | 0, _, _, _ => pure ()
  | fuel + 1, chunkNumber, sent, rest =>
    let chunk := rest.take (maxOtaChunkDataSize cfg)
    if chunk = [] then pure ()
    else do
      let payload ← buildOtaDataPayload chunkNumber sent chunk
      runCommand cfg .otaData payload (.otaData chunkNumber sent)
      sendChunks cfg fuel (chunkNumber + 1) (sent + chunk.length)
        (rest.drop (maxOtaChunkDataSize cfg))

/-- Each pass of the loop takes at least one octet of the file. -/
def runUpdateData (cfg : HostConfig β) (firmware : List β) : HostTask β Unit :=
  sendChunks cfg (firmware.length + 1) 0 0 firmware

def runUpdateEnd (cfg : HostConfig β) : HostTask β Unit := runCommand cfg .otaEnd [] .otaEnd

/-- `cmd_update`; it returns when "OTA finalized" has been printed. -/
def cmdUpdate (cfg : HostConfig β) (firmware : List β) : HostTask β Unit := do
  runUpdateBegin cfg firmware
  runUpdateData cfg firmware
  runUpdateEnd cfg

/-! ## Specifications of the parts that do not use the link -/

section Spec
variable {σ : Type} {E : Env Ask (Answer β) (Packet β) σ} {I : σ → Prop}
  {P : HostState β → σ → Prop} {Err : HostError → HostState β → σ → Prop}

omit [Alphabet β] in
theorem nextSequence_spec : Task.Spec E I P nextSequence (fun n t s =>
    ∃ t₀, P t₀ s ∧ n = t₀.sequence + 1 ∧ t = { t₀ with sequence := n }) Err :=
  fun t _ h => ⟨t, h, rfl, rfl⟩

omit [Alphabet β] in
theorem clearAuthentication_spec : Task.Spec E I P clearAuthentication (fun _ t s =>
    ∃ t₀, P t₀ s ∧ t = { t₀ with sessionKey := none, authenticated := false }) Err :=
  fun t _ h => ⟨t, h, rfl⟩

omit [Alphabet β] in
theorem buildPacket_spec {command : Command} {sequence : UInt16} {payload : List β}
    (hErr : ∀ t s, P t s → protocolMaxPayload < payload.length → Err .packetTooLarge t s) :
    Task.Spec E I P (buildPacket command sequence payload) (fun m t s =>
      P t s ∧ m = frame command sequence payload ∧ payload.length ≤ protocolMaxPayload) Err := by
  refine Task.Spec.ite (fun h => ?_) (fun h => ?_)
  · exact Task.Spec.raise fun t s hp => hErr t s hp h
  · exact Task.Spec.pure fun t s hp => ⟨hp, rfl, by omega⟩

/-- The tag of a guarded request, and of no other. -/
def HostConfig.tagFor (cfg : HostConfig β) (t : HostState β) (command : Command)
    (sequence : UInt16) (payload : List β) : List β :=
  if cfg.guards command then (t.sessionKey.elim [] fun key =>
    requestTag key command.code sequence payload) else []

theorem authenticatedPayload_spec {cfg : HostConfig β} {command : Command} {sequence : UInt16}
    {payload : List β} (hErr : cfg.guards command = true → ∀ t s, P t s → t.sessionKey = none →
      Err .sessionNotEstablished t s) :
    Task.Spec E I P (authenticatedPayload cfg command sequence payload) (fun pp t s =>
      P t s ∧ pp = payload ++ cfg.tagFor t command sequence payload ∧
        (cfg.guards command = true → t.sessionKey ≠ none)) Err := by
  unfold authenticatedPayload HostConfig.tagFor
  cases hg : cfg.guards command
  · exact Task.Spec.pure fun t s hp => ⟨hp, by simp, by simp⟩
  · refine Task.Spec.read_bind fun t => ?_
    cases hk : t.sessionKey with
    | none =>
      refine Task.Spec.raise ?_
      rintro _ s ⟨rfl, hp⟩
      exact hErr hg _ s hp hk
    | some key =>
      refine Task.Spec.pure ?_
      rintro _ s ⟨rfl, hp⟩
      exact ⟨hp, by simp [hk], by simp [hk]⟩

/-- The packet of a call under sequence number `n`. -/
def callPacket (cfg : HostConfig β) (u : HostState β) (c : Command) (n : UInt16)
    (payload : List β) : Packet β :=
  frame c n (payload ++ cfg.tagFor u c n payload)

theorem length_tagFor (cfg : HostConfig β) (u : HostState β) (c : Command) (n : UInt16)
    (payload : List β) (h : cfg.guards c = true → u.sessionKey ≠ none) :
    (cfg.tagFor u c n payload).length = if cfg.guards c then 16 else 0 := by
  unfold HostConfig.tagFor
  split
  · rename_i hg
    obtain ⟨key, hk⟩ := Option.ne_none_iff_exists'.mp (h hg)
    simp [hk]
  · rfl

/-- The response without its tag, where the command is guarded. -/
def HostConfig.strip (cfg : HostConfig β) (command : Command) (packet : Packet β) : Packet β :=
  if cfg.guards command then
    { packet with payload := packet.payload.take (packet.payload.length - authTagSize) }
  else packet

omit [Alphabet β] in
@[simp] theorem command_strip (cfg : HostConfig β) (c : Command) (packet : Packet β) :
    (cfg.strip c packet).command = packet.command := by
  unfold HostConfig.strip; split <;> rfl

/-- A guarded response carries the tag of the client's session. -/
def Verified (cfg : HostConfig β) (t : HostState β) (command : Command) (sequence : UInt16)
    (packet : Packet β) : Prop :=
  cfg.guards command = true → ∃ key, t.sessionKey = some key ∧
    packet.payload = (cfg.strip command packet).payload ++
      responseTag key command.code packet.command sequence (cfg.strip command packet).payload

theorem finishRequest_spec {cfg : HostConfig β} {command : Command} {sequence : UInt16}
    {packet : Packet β} (hErr : ∀ e t s, P t s → ¬Verified cfg t command sequence packet →
      e ≠ .packetTooLarge → e ≠ .timeout → Err e t s) :
    Task.Spec E I P (finishRequest cfg command sequence packet) (fun r t s =>
      ∃ t₀, P t₀ s ∧ r = cfg.strip command packet ∧ Verified cfg t₀ command sequence packet ∧
        (t = t₀ ∨ (command = .reboot ∨ command = .rollback) ∧
          t = { t₀ with sessionKey := none, authenticated := false })) Err := by
  unfold finishRequest
  refine Task.Spec.bind (R := fun r t s => P t s ∧ r = cfg.strip command packet ∧
    Verified cfg t command sequence packet) ?_ fun r => ?_
  · unfold checkedResponse
    cases hg : cfg.guards command
    · exact Task.Spec.pure fun t s hp =>
        ⟨hp, by simp [HostConfig.strip, hg], by simp [Verified, hg]⟩
    · have hstrip : cfg.strip command packet =
          { packet with payload := packet.payload.take (packet.payload.length - authTagSize) } := by
        simp [HostConfig.strip, hg]
      simp only [if_true, hstrip]
      refine Task.Spec.read_bind fun t => ?_
      cases hk : t.sessionKey with
      | none =>
        refine Task.Spec.raise ?_
        rintro _ s ⟨rfl, hp⟩
        exact hErr _ _ s hp (fun hv => by simp [Verified, hg, hk] at hv) (by simp) (by simp)
      | some key =>
        refine Task.Spec.ite (fun hl => ?_) (fun _ => Task.Spec.ite (fun ht => ?_) (fun ht => ?_))
        · refine Task.Spec.raise ?_
          rintro _ s ⟨rfl, hp⟩
          refine hErr _ _ s hp (fun hv => ?_) (by simp) (by simp)
          obtain ⟨key', -, hpay⟩ := hv hg
          rw [hpay, List.length_append, length_responseTag] at hl
          simp only [authTagSize] at hl
          omega
        · refine Task.Spec.raise ?_
          rintro _ s ⟨rfl, hp⟩
          refine hErr _ _ s hp (fun hv => ht ?_) (by simp) (by simp)
          obtain ⟨key', hkey', hpay⟩ := hv hg
          rw [hstrip] at hpay
          obtain rfl : key = key' := by rw [hk] at hkey'; exact Option.some.inj hkey'
          rw [Host.expected_eq]
          exact List.append_cancel_left ((List.take_append_drop _ packet.payload).trans hpay)
        · refine Task.Spec.pure ?_
          rintro _ s ⟨rfl, hp⟩
          refine ⟨hp, rfl, fun _ => ⟨key, hk, ?_⟩⟩
          simp only [ne_eq, Decidable.not_not, Host.expected_eq] at ht
          rw [hstrip, ← ht, List.take_append_drop]
  · refine Task.Spec.ite (fun hc => ?_) (fun _ => ?_)
    · refine Task.Spec.bind clearAuthentication_spec fun _ => Task.Spec.pure ?_
      rintro t s ⟨t₀, ⟨hp, hr, hv⟩, rfl⟩
      exact ⟨t₀, hp, hr, hv, .inr ⟨hc.1, rfl⟩⟩
    · refine Task.Spec.pure ?_
      rintro t s ⟨hp, hr, hv⟩
      exact ⟨t, hp, hr, hv, .inl rfl⟩

/-- The exceptions of `ensureAck` name its context. -/
theorem ensureAck_rule {packet : Packet β} {context : Context}
    (hErr : ∀ e t s, P t s → e = .ackStatus context ∨ e = .rejected context ∨
      e = .unexpectedResponse context → Err e t s) :
    Task.Spec E I P (ensureAck packet context) (fun _ t s =>
      P t s ∧ packet.command = Command.ack.code) Err := by
  unfold ensureAck
  refine Task.Spec.ite (fun h => ?_) (fun _ => Task.Spec.ite (fun _ => ?_) (fun _ => ?_))
  · split
    · exact Task.Spec.pure fun t s hp => ⟨hp, h⟩
    · refine Task.Spec.ite (fun _ => ?_) (fun _ => ?_)
      · exact Task.Spec.pure fun t s hp => ⟨hp, h⟩
      · exact Task.Spec.raise fun t s hp => hErr _ t s hp (.inl rfl)
  · exact Task.Spec.raise fun t s hp => hErr _ t s hp (.inr (.inl rfl))
  · exact Task.Spec.raise fun t s hp => hErr _ t s hp (.inr (.inr rfl))

theorem ensureAck_spec {packet : Packet β} {context : Context}
    (hErr : ∀ e t s, P t s → e ≠ .packetTooLarge → Err e t s) :
    Task.Spec E I P (ensureAck packet context) (fun _ t s =>
      P t s ∧ packet.command = Command.ack.code) Err := by
  refine ensureAck_rule fun e t s hp he => hErr e t s hp ?_
  rcases he with rfl | rfl | rfl <;> simp

@[simp] theorem ensureAck_ackFrame (n : UInt16) (context : Context) :
    ensureAck (ackFrame n : Packet β) context = pure () := by
  simp [ensureAck, ackFrame, frame, statusPayload]

/-- A client with a session keeps it. -/
theorem authenticate_authenticated {cfg : HostConfig β} {u : HostState β} {B : σ → Prop}
    (hu : u.authenticated = true) : Task.Spec E I (fun t s => t = u ∧ B s) (authenticate cfg)
      (fun _ t s => t = u ∧ B s) (fun _ _ _ => False) := by
  rw [authenticate_eq]
  split
  · exact Task.Spec.pure fun t s h => h
  · refine Task.Spec.read_bind fun t₀ => Task.Spec.ite (fun _ => ?_) (fun ha => ?_)
    · refine Task.Spec.pure ?_
      rintro t s ⟨rfl, h⟩
      exact h
    · rintro t s ⟨rfl, rfl, -⟩
      exact absurd hu ha

/-- **The rule for one pass of `request`**, in any environment: given what sending the
packet of the call leads to. -/
theorem requestOnce_rule {cfg : HostConfig β} {c : Command} {payload : List β}
    {again : Option (HostTask β (Packet β))} (u : HostState β) {n : UInt16} {B : σ → Prop}
    {A : Packet β → σ → Prop} {Ok : Packet β → HostState β → σ → Prop}
    (hlen : payload.length + (if cfg.guards c then 16 else 0) ≤ protocolMaxPayload)
    (hkey : cfg.guards c = true → u.sessionKey = none → ∀ s, B s →
      Err .sessionNotEstablished (u.at (n + 1)) s)
    (hsend : (cfg.guards c = true → u.sessionKey ≠ none) → Task.Spec E I
      (fun t s => t = u.at (n + 1) ∧ B s) (requestPacket cfg (callPacket cfg u c (n + 1) payload))
      (fun r t s => t = u.at (n + 1) ∧ A r s) Err)
    (hverify : cfg.guards c = true → ∀ e r s, A r s → ¬Verified cfg u c (n + 1) r →
      e ≠ .packetTooLarge → Err e (u.at (n + 1)) s)
    (hagain : ∀ task, again = some task → ∀ r, cfg.guards c = true → isAuthRequired r = true →
      Task.Spec E I (fun t s => t = u.at (n + 1) ∧ A r s) task Ok Err)
    (hOk : ∀ r t s, (t = u.at (n + 1) ∨ (c = .reboot ∨ c = .rollback) ∧
        t = { u.at (n + 1) with sessionKey := none, authenticated := false }) → A r s →
      Verified cfg u c (n + 1) r → Ok (cfg.strip c r) t s) :
    Task.Spec E I (fun t s => t = u.at n ∧ B s) (requestOnce cfg c payload again) Ok Err := by
  have hfinish : ∀ r, Task.Spec E I (fun t s => t = u.at (n + 1) ∧ A r s)
      (finishRequest cfg c (n + 1) r) Ok Err := by
    intro r
    refine (finishRequest_spec ?_).consequence (fun _ _ h => h) ?_ (fun _ _ _ h => h)
    · rintro e t s ⟨rfl, ha⟩ hv he -
      refine hverify ?_ e r s ha hv he
      by_contra hg
      exact hv fun h => absurd h hg
    · rintro _ t s ⟨t₀, ⟨rfl, ha⟩, rfl, hv, ht⟩
      exact hOk r t s ht ha hv
  unfold requestOnce
  refine Task.Spec.bind (R := fun m t s => (t = u.at (n + 1) ∧ B s) ∧ m = n + 1) ?_ fun m => ?_
  · refine nextSequence_spec.consequence (fun _ _ h => h) ?_ (fun _ _ _ h => h)
    rintro m t s ⟨t₀, ⟨rfl, hb⟩, rfl, rfl⟩
    exact ⟨⟨rfl, hb⟩, rfl⟩
  refine Task.Spec.bind (R := fun pp t s => (t = u.at (n + 1) ∧ B s) ∧ m = n + 1 ∧
    pp = payload ++ cfg.tagFor u c (n + 1) payload ∧
    (cfg.guards c = true → u.sessionKey ≠ none)) ?_ fun pp => ?_
  · refine (authenticatedPayload_spec ?_).consequence (fun _ _ h => h) ?_ (fun _ _ _ h => h)
    · rintro hg t s ⟨⟨rfl, hb⟩, -⟩ hn
      exact hkey hg hn s hb
    · rintro pp t s ⟨⟨⟨rfl, hb⟩, rfl⟩, rfl, hk⟩
      exact ⟨⟨rfl, hb⟩, rfl, rfl, hk⟩
  refine Task.Spec.bind (buildPacket_spec ?_) fun q => ?_
  · rintro t s ⟨-, rfl, rfl, hk⟩ hl
    rw [List.length_append, length_tagFor cfg u c _ payload hk] at hl
    omega
  rintro t s ⟨⟨⟨rfl, hb⟩, rfl, rfl, hk⟩, rfl, -⟩
  refine Task.Spec.bind (hsend hk) (fun r => ?_) _ _ ⟨rfl, hb⟩
  cases again with
  | none => exact hfinish r
  | some task =>
    refine Task.Spec.ite (fun h => ?_) (fun _ => hfinish r)
    simp only [Bool.and_eq_true] at h
    exact hagain task rfl r h.1 h.2

/-- A payload that leaves no room for its tag is refused before anything is sent. -/
theorem requestOnce_tooLarge {cfg : HostConfig β} {c : Command} {payload : List β}
    {again : Option (HostTask β (Packet β))} (u : HostState β) {n : UInt16} {B : σ → Prop}
    {Ok : Packet β → HostState β → σ → Prop}
    (hlen : protocolMaxPayload < payload.length + (if cfg.guards c then 16 else 0))
    (hErr : ∀ e s, B s → Err e (u.at (n + 1)) s) :
    Task.Spec E I (fun t s => t = u.at n ∧ B s) (requestOnce cfg c payload again) Ok Err := by
  unfold requestOnce
  refine Task.Spec.bind (R := fun m t s => t = u.at (n + 1) ∧ B s) ?_ fun m => ?_
  · refine nextSequence_spec.consequence (fun _ _ h => h) ?_ (fun _ _ _ h => h)
    rintro m t s ⟨t₀, ⟨rfl, hb⟩, rfl, rfl⟩
    exact ⟨rfl, hb⟩
  refine Task.Spec.bind (R := fun pp t s => (t = u.at (n + 1) ∧ B s) ∧
    protocolMaxPayload < pp.length) ?_ fun pp => ?_
  · refine (authenticatedPayload_spec ?_).consequence (fun _ _ h => h) ?_ (fun _ _ _ h => h)
    · rintro - t s ⟨rfl, hb⟩ -
      exact hErr _ s hb
    · rintro pp t s ⟨⟨rfl, hb⟩, rfl, hk⟩
      refine ⟨⟨rfl, hb⟩, ?_⟩
      rwa [List.length_append, length_tagFor cfg _ c m payload hk]
  refine Task.Spec.bind (R := fun _ _ _ => False) ?_ fun q => ?_
  · refine (buildPacket_spec ?_).consequence (fun _ _ h => h)
      (fun _ _ _ h => absurd h.2.2 (Nat.not_le.mpr h.1.2)) (fun _ _ _ h => h)
    rintro t s ⟨⟨rfl, hb⟩, -⟩ -
    exact hErr _ s hb
  · exact fun _ _ h => h.elim

end Spec

end OtaLink
