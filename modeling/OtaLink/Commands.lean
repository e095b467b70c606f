import OtaLink.Auth
import OtaLink.OtaManager

/-!
# The command dispatcher (`commands.c`)

`commandsHandlePacket` handles one decoded packet. A protected command passes the
replay check and the tag check before it touches the OTA session or restarts the
device, and its response goes through the session that authenticated the request.

The specification splits a protected command into its `gate`, a pure function of
the session and the packet, and its `execute`, a pure function of the OTA session
and the unwrapped payload. `commandsHandlePacket_cases` says that handling a packet
is a public reply, a handshake step, or a gate followed by at most one execution.

## Main definitions

* `Device` — the static state of the component.
* `commandsHandlePacket` — the dispatcher.
* `AuthState.gate`, `execute`, `Device.answer` — a protected command in normal form.
* `Command.CarriedOut` — the platform calls of a command.
* `commandsHandlePacket_cases` — all that handling a packet can do.
-/

namespace OtaLink
open Lib

variable {β : Type}

/-- The static state of `auth.c` and `ota_manager.c`. -/
structure Device (β : Type) where
  auth : AuthState β
  ota : OtaState β

abbrev DeviceRoutine (β : Type) := Routine (Device β) (Event β)

def onAuth {α : Type} (x : AuthRoutine β α) : DeviceRoutine β α :=
  x.on Device.auth fun d auth => { d with auth }

def onOta {α : Type} (x : OtaRoutine β α) : DeviceRoutine β α :=
  x.on Device.ota fun d ota => { d with ota }

section Parts
variable {α : Type} (x : AuthRoutine β α) (y : OtaRoutine β α) (d : Device β)

@[simp] theorem val_onAuth : (onAuth x).val d = x.val d.auth := rfl
@[simp] theorem state_onAuth : (onAuth x).state d = { d with auth := x.state d.auth } := rfl
@[simp] theorem log_onAuth : (onAuth x).log d = x.log d.auth := rfl
@[simp] theorem val_onOta : (onOta y).val d = y.val d.ota := rfl
@[simp] theorem state_onOta : (onOta y).state d = { d with ota := y.state d.ota } := rfl
@[simp] theorem log_onOta : (onOta y).log d = y.log d.ota := rfl

end Parts

variable [Alphabet β]

/-- Resend cached authenticated responses before command side effects. -/
def handleAuthenticatedReplay (packet : Packet β) : DeviceRoutine β Bool := do
  let r ← onAuth (authCheckReplay packet)
  if r.1 ≠ .ok then
    onAuth (authSendNack packet r.1)
    return true
  return r.2

/-- What every branch of a protected command does first: the replay check, then the
tag check; `command` runs on the unwrapped payload. -/
def handleProtected (packet : Packet β) (command : List β → DeviceRoutine β Unit) :
    DeviceRoutine β Unit := do
  if ← handleAuthenticatedReplay packet then return
  let d ← Routine.get
  match authUnwrapPacket d.auth packet with
  | .error error => onAuth (authSendNack packet error)
  | .ok payload => command payload

/-- The branches of `CMD_OTA_BEGIN`, `CMD_OTA_DATA`, `CMD_OTA_END` and `CMD_OTA_ABORT`.
The last two are `bare`: they take no payload. -/
def handleOta (packet : Packet β) (command : Command) (bare : Bool)
    (operation : List β → OtaRoutine β ProtocolError) : DeviceRoutine β Unit :=
  handleProtected packet fun payload => do
    if bare && payload.length != 0 then onAuth (authSendNack packet .invalidLength)
    else
      let error ← onOta (operation payload)
      Routine.emit (.operate command packet.sequence payload error)
      if error = .ok then onAuth (authSendAck packet) else onAuth (authSendNack packet error)

/-- The branch of `CMD_REBOOT`. -/
def handleReboot (packet : Packet β) : DeviceRoutine β Unit :=
  handleProtected packet fun payload => do
    let d ← Routine.get
    if payload.length ≠ 0 then onAuth (authSendNack packet .invalidLength)
    else if otaManagerIsActive d.ota then onAuth (authSendNack packet .busy)
    else
      onAuth (authSendAck packet)
      Routine.emit (.operate .reboot packet.sequence payload .ok)
      Routine.emit .restart

/-- The branch of `CMD_ROLLBACK`. -/
def handleRollback (esp : EspIdf β) (packet : Packet β) : DeviceRoutine β Unit :=
  handleProtected packet fun payload => do
    let d ← Routine.get
    if payload.length ≠ 0 then onAuth (authSendNack packet .invalidLength)
    else if otaManagerIsActive d.ota then onAuth (authSendNack packet .busy)
    else
      Routine.emit (.checkRollbackIsPossible esp.rollbackIsPossible)
      if !esp.rollbackIsPossible then onAuth (authSendNack packet .rollbackNotAvailable)
      else
        onAuth (authSendAck packet)
        Routine.emit (.operate .rollback packet.sequence payload .ok)
        Routine.emit (.markInvalidRollbackAndReboot esp.markInvalidReboots)

def commandsHandlePacket (esp : EspIdf β) (packet : Packet β) : DeviceRoutine β Unit :=
  if packet.version ≠ protocolVersion then
    Routine.emit (.send (nackFrame packet.sequence .invalidPacket))
  else
    match Command.ofCode? packet.command with
    | some .ping => Routine.emit (.send (ackFrame packet.sequence))
    | some .getInfo =>
      if esp.infoPayload.length = 0 then
        Routine.emit (.send (nackFrame packet.sequence .invalidLength))
      else Routine.emit (.send (frame .info packet.sequence esp.infoPayload))
    | some .auth => do
      let error ← onAuth (authHandlePacket esp packet)
      if error ≠ .ok then Routine.emit (.send (nackFrame packet.sequence error))
    | some .reboot => handleReboot packet
    | some .rollback => handleRollback esp packet
    | some .otaBegin => handleOta packet .otaBegin false (otaManagerBegin esp)
    | some .otaAbort => handleOta packet .otaAbort true fun _ => otaManagerAbort esp
    | some .otaData => handleOta packet .otaData false (otaManagerWriteData esp)
    | some .otaEnd => handleOta packet .otaEnd true fun _ => otaManagerEnd esp
    | _ => Routine.emit (.send (nackFrame packet.sequence .unknownCommand))

/-! ## Protected commands in normal form -/

/-- What happens to a protected request before its command runs. -/
inductive Gate (β : Type)
  /-- A stored response is sent again. -/
  | resend (entry : ReplayEntry β)
  /-- The request is answered with a NACK. -/
  | refuse (error : ProtocolError)
  /-- The command runs on the unwrapped payload. -/
  | run (payload : List β)

/-- The replay check followed by the tag check. -/
def AuthState.gate (s : AuthState β) (packet : Packet β) : Gate β :=
  if !s.required then .run packet.payload
  else if !s.authenticated then .refuse .authRequired
  else
    match s.lookup packet with
    | .conflict => .refuse .authRequired
    | .duplicate entry => .resend entry
    | .fresh =>
      match authUnwrapPacket s packet with
      | .error error => .refuse error
      | .ok payload => .run payload

/-- The gate refuses with one error only. -/
theorem error_of_refuse {s : AuthState β} {packet : Packet β} {error : ProtocolError}
    (h : s.gate packet = .refuse error) : error = .authRequired := by
  unfold AuthState.gate at h
  split_ifs at h
  · cases h
    rfl
  · split at h
    · cases h
      rfl
    · cases h
    · split at h
      · rename_i hu
        cases h
        exact authUnwrapPacket_eq_error hu
      · cases h

/-- The result of a command: its error, the OTA session it leaves, and the events
before and after its response. -/
structure Outcome (β : Type) where
  error : ProtocolError
  ota : OtaState β
  before : List (Event β)
  after : List (Event β)

/-- A command that is refused without a call. -/
def Outcome.refused (ota : OtaState β) (error : ProtocolError) : Outcome β := ⟨error, ota, [], []⟩

/-- A command that runs one operation of the OTA manager. -/
def Outcome.operated (command : Command) (sequence : UInt16) (payload : List β)
    (operation : OtaRoutine β ProtocolError) (ota : OtaState β) : Outcome β where
  error := operation.val ota
  ota := operation.state ota
  before := operation.log ota ++ [.operate command sequence payload (operation.val ota)]
  after := []

/-- Run an OTA branch; a `bare` command takes no payload. -/
def runOta (command : Command) (sequence : UInt16) (bare : Bool)
    (operation : List β → OtaRoutine β ProtocolError) (ota : OtaState β) (payload : List β) :
    Outcome β :=
  if bare && payload.length != 0 then .refused ota .invalidLength
  else .operated command sequence payload (operation payload) ota

/-- Run a protected command on its unwrapped payload. -/
def execute (esp : EspIdf β) (ota : OtaState β) (command : Command) (sequence : UInt16)
    (payload : List β) : Outcome β :=
  match command with
  | .otaBegin => runOta .otaBegin sequence false (otaManagerBegin esp) ota payload
  | .otaAbort => runOta .otaAbort sequence true (fun _ => otaManagerAbort esp) ota payload
  | .otaData => runOta .otaData sequence false (otaManagerWriteData esp) ota payload
  | .otaEnd => runOta .otaEnd sequence true (fun _ => otaManagerEnd esp) ota payload
  | .reboot =>
    if payload.length ≠ 0 then .refused ota .invalidLength
    else if ota.active then .refused ota .busy
    else ⟨.ok, ota, [], [.operate .reboot sequence payload .ok, .restart]⟩
  | .rollback =>
    if payload.length ≠ 0 then .refused ota .invalidLength
    else if ota.active then .refused ota .busy
    else if !esp.rollbackIsPossible then
      ⟨.rollbackNotAvailable, ota, [.checkRollbackIsPossible false], []⟩
    else ⟨.ok, ota, [.checkRollbackIsPossible true],
      [.operate .rollback sequence payload .ok,
        .markInvalidRollbackAndReboot esp.markInvalidReboots]⟩
  | _ => .refused ota .unknownCommand

/-- No command demands authentication; only the gate does. -/
theorem execute_ne_authRequired (esp : EspIdf β) (ota : OtaState β) (c : Command) (n : UInt16)
    (payload : List β) : (execute esp ota c n payload).error ≠ .authRequired := by
  have hrun : ∀ (c : Command) (bare : Bool) (operation : List β → OtaRoutine β ProtocolError),
      (operation payload).val ota ≠ .authRequired →
      (runOta c n bare operation ota payload).error ≠ .authRequired := by
    intro c bare operation h
    unfold runOta
    split
    · simp [Outcome.refused]
    · exact h
  cases c with
  | otaBegin => exact hrun _ _ _ (otaManagerBegin_ne_authRequired esp payload ota)
  | otaData => exact hrun _ _ _ (otaManagerWriteData_ne_authRequired esp payload ota)
  | otaEnd => exact hrun _ _ _ (otaManagerEnd_ne_authRequired esp ota)
  | otaAbort => exact hrun _ _ _ (otaManagerAbort_ne_authRequired esp ota)
  | reboot =>
    simp only [execute]
    split_ifs <;> simp [Outcome.refused]
  | rollback =>
    simp only [execute]
    split_ifs <;> simp [Outcome.refused]
  | _ => simp [execute, Outcome.refused]

/-- The platform calls of a command that reports no error. An `OTA_DATA` may have come with the
last chunk again, which is already written; whether the rollback succeeds nobody asks. -/
def Command.CarriedOut (c : Command) (ota : OtaState β) (payload : List β)
    (events : List (Event β)) : Prop :=
  match c with
  | .otaBegin => ∃ partition handle,
      .otaBegin partition (readU32Le payload) (some handle) ∈ events
  | .otaData => .otaWrite ota.handle (payload.drop otaDataHeaderSize) true ∈ events ∨
      ota.isLastChunk (readU32Le (payload.drop 4)) (payload.drop otaDataHeaderSize) = true
  | .otaEnd => .otaEnd ota.handle true ∈ events ∧
      .partitionGetSha256 ota.partition (some ota.expectedSha256) ∈ events ∧
      .setBootPartition ota.partition true ∈ events
  | .otaAbort => .otaAbort ota.handle true ∈ events
  | .reboot => .restart ∈ events
  | .rollback => ∃ reboots, .markInvalidRollbackAndReboot reboots ∈ events
  | _ => False

theorem Command.CarriedOut.mono {c : Command} {ota : OtaState β} {payload : List β}
    {events more : List (Event β)}
    (h : c.CarriedOut ota payload events) (hsub : events ⊆ more) :
    c.CarriedOut ota payload more := by
  cases c with
  | otaBegin =>
    obtain ⟨partition, handle, h⟩ := h
    exact ⟨partition, handle, hsub h⟩
  | otaData => exact h.imp_left fun h => hsub h
  | otaEnd => exact ⟨hsub h.1, hsub h.2.1, hsub h.2.2⟩
  | otaAbort | reboot => exact hsub h
  | rollback =>
    obtain ⟨reboots, h⟩ := h
    exact ⟨reboots, hsub h⟩
  | _ => exact h.elim

/-- The frame that resends a stored response. -/
def ReplayEntry.frame (entry : ReplayEntry β) (sequence : UInt16) : Packet β where
  version := protocolVersion
  command := entry.responseCommand
  sequence
  payload := entry.responsePayload

/-- The device after it has reported `error` for `packet`. -/
def Device.report (d : Device β) (packet : Packet β) (error : ProtocolError) : Device β :=
  { d with auth := d.auth.remember packet (responseFor error) (statusPayload error) }

/-- The frame that reports `error` for `packet`. -/
def Device.reply (d : Device β) (packet : Packet β) (error : ProtocolError) : Packet β :=
  d.auth.response packet (responseFor error) (statusPayload error)

/-- The next state and the events of a protected branch whose command is `run`. -/
def Device.answerWith (d : Device β) (packet : Packet β) (run : List β → Outcome β) :
    Device β × List (Event β) :=
  match d.auth.gate packet with
  | .resend entry => (d, [.send (entry.frame packet.sequence)])
  | .refuse error => (d.report packet error, [.send (d.reply packet error)])
  | .run payload =>
    ({ d with ota := (run payload).ota }.report packet (run payload).error,
      (run payload).before ++ .send (d.reply packet (run payload).error) :: (run payload).after)

/-- A protected command in normal form: the next state and the events. -/
def Device.answer (d : Device β) (esp : EspIdf β) (command : Command) (packet : Packet β) :
    Device β × List (Event β) :=
  d.answerWith packet (execute esp d.ota command packet.sequence)

section NormalForm
variable (esp : EspIdf β) (packet : Packet β)

theorem authSendNack_spec {error : ProtocolError} (he : error ≠ .ok) (s : AuthState β) :
    (authSendNack packet error).state s =
        s.remember packet (responseFor error) (statusPayload error) ∧
      (authSendNack packet error).log s =
        [.send (s.response packet (responseFor error) (statusPayload error))] := by
  rw [responseFor_of_ne he]
  exact authSendResponse_spec packet .nack (length_statusPayload_le error) s

theorem authSendAck_spec (s : AuthState β) :
    (authSendAck packet).state s = s.remember packet .ack (statusPayload .ok) ∧
      (authSendAck packet).log s = [.send (s.response packet .ack (statusPayload .ok))] :=
  authSendResponse_spec packet .ack (length_statusPayload_le .ok) s

/-- The replay check in terms of the gate: it leaves the session alone and either
decides the request or leaves it to the tag check. -/
theorem authCheckReplay_cases (hp : authCommandIsProtected packet.command = true)
    (s : AuthState β) :
    (authCheckReplay packet).state s = s ∧
    ((∃ entry, s.gate packet = .resend entry ∧ (authCheckReplay packet).val s = (.ok, true) ∧
        (authCheckReplay packet).log s = [.send (entry.frame packet.sequence)]) ∨
      (s.gate packet = .refuse .authRequired ∧
        (authCheckReplay packet).val s = (.authRequired, false) ∧
        (authCheckReplay packet).log s = []) ∨
      ((authCheckReplay packet).val s = (.ok, false) ∧ (authCheckReplay packet).log s = [] ∧
        s.gate packet = match authUnwrapPacket s packet with
          | .error error => .refuse error
          | .ok payload => .run payload)) := by
  cases hr : s.required
  · simp [authCheckReplay, AuthState.gate, authUnwrapPacket_of_not_required, hr]
  cases ha : s.authenticated
  · simp [authCheckReplay, AuthState.gate, hr, ha, hp]
  cases hv : s.lookup packet <;>
    simp [authCheckReplay, AuthState.gate, ReplayEntry.frame, hr, ha, hp, hv]

/-- The replay check answers the request itself, or leaves it to the tag check. -/
theorem handleAuthenticatedReplay_cases (hp : authCommandIsProtected packet.command = true)
    (d : Device β) :
    ((handleAuthenticatedReplay packet).val d = true ∧
      ((∃ entry, d.auth.gate packet = .resend entry ∧
          (handleAuthenticatedReplay packet).state d = d ∧
          (handleAuthenticatedReplay packet).log d = [.send (entry.frame packet.sequence)]) ∨
        (d.auth.gate packet = .refuse .authRequired ∧
          (handleAuthenticatedReplay packet).state d = d.report packet .authRequired ∧
          (handleAuthenticatedReplay packet).log d =
            [.send (d.reply packet .authRequired)]))) ∨
    ((handleAuthenticatedReplay packet).val d = false ∧
      (handleAuthenticatedReplay packet).state d = d ∧
      (handleAuthenticatedReplay packet).log d = [] ∧
      d.auth.gate packet = match authUnwrapPacket d.auth packet with
        | .error error => .refuse error
        | .ok payload => .run payload) := by
  obtain ⟨hs, hl⟩ :=
    authSendNack_spec packet (show ProtocolError.authRequired ≠ .ok by decide) d.auth
  obtain ⟨hstate, h⟩ := authCheckReplay_cases packet hp d.auth
  rcases h with ⟨entry, hg, hv, hlog⟩ | ⟨hg, hv, hlog⟩ | ⟨hv, hlog, hg⟩
  · left
    simp [handleAuthenticatedReplay, hstate, hg, hv, hlog]
  · left
    simp [handleAuthenticatedReplay, hstate, hg, hv, hlog, hs, hl, Device.report, Device.reply]
  · right
    simp [handleAuthenticatedReplay, hstate, hg, hv, hlog]

/-- A protected branch in normal form, given the normal form of its command. -/
theorem handleProtected_spec (hp : authCommandIsProtected packet.command = true) {d : Device β}
    {command : List β → DeviceRoutine β Unit} {run : List β → Outcome β}
    (hrun : ∀ payload,
      (command payload).state d = { d with ota := (run payload).ota }.report packet
          (run payload).error ∧
        (command payload).log d = (run payload).before ++
          .send (d.reply packet (run payload).error) :: (run payload).after) :
    (handleProtected packet command).state d = (d.answerWith packet run).1 ∧
      (handleProtected packet command).log d = (d.answerWith packet run).2 := by
  rcases handleAuthenticatedReplay_cases packet hp d with
    ⟨hv, ⟨entry, hg, hs, hl⟩ | ⟨hg, hs, hl⟩⟩ | ⟨hv, hs, hl, hg⟩
  · simp [handleProtected, Device.answerWith, hv, hs, hl, hg]
  · simp [handleProtected, Device.answerWith, hv, hs, hl, hg]
  · cases hu : authUnwrapPacket d.auth packet with
    | error e =>
      obtain rfl := authUnwrapPacket_eq_error hu
      obtain ⟨hns, hnl⟩ :=
        authSendNack_spec packet (show ProtocolError.authRequired ≠ .ok by decide) d.auth
      simp [handleProtected, Device.answerWith, Device.report, Device.reply, hv, hs, hl, hg, hu,
        hns, hnl]
    | ok payload =>
      obtain ⟨hrs, hrl⟩ := hrun payload
      simp [handleProtected, Device.answerWith, hv, hs, hl, hg, hu, hrs, hrl]

theorem handleOta_spec (hp : authCommandIsProtected packet.command = true) (d : Device β)
    (command : Command) (bare : Bool) (operation : List β → OtaRoutine β ProtocolError) :
    (handleOta packet command bare operation).state d =
        (d.answerWith packet (runOta command packet.sequence bare operation d.ota)).1 ∧
      (handleOta packet command bare operation).log d =
        (d.answerWith packet (runOta command packet.sequence bare operation d.ota)).2 := by
  apply handleProtected_spec packet hp
  intro payload
  unfold runOta
  cases hb : (bare && payload.length != 0)
  · obtain ⟨hs, hl⟩ := authSendAck_spec packet d.auth
    by_cases he : (operation payload).val d.ota = .ok
    · simp [Outcome.operated, Device.report, Device.reply, he, hs, hl]
    · obtain ⟨hns, hnl⟩ := authSendNack_spec packet he d.auth
      simp [Outcome.operated, Device.report, Device.reply, he, hns, hnl]
  · obtain ⟨hns, hnl⟩ :=
      authSendNack_spec packet (show ProtocolError.invalidLength ≠ .ok by decide) d.auth
    simp [hns, hnl, Outcome.refused, Device.report, Device.reply]

theorem handleReboot_spec (hp : authCommandIsProtected packet.command = true) (d : Device β) :
    (handleReboot packet).state d = (d.answer esp .reboot packet).1 ∧
      (handleReboot packet).log d = (d.answer esp .reboot packet).2 := by
  apply handleProtected_spec packet hp
  intro payload
  by_cases hl : payload.length = 0
  swap
  · obtain ⟨hns, hnl⟩ :=
      authSendNack_spec packet (show ProtocolError.invalidLength ≠ .ok by decide) d.auth
    simp [execute, hl, hns, hnl, Outcome.refused, Device.report, Device.reply]
  cases ha : d.ota.active
  · obtain ⟨hs, hsl⟩ := authSendAck_spec packet d.auth
    simp [execute, hl, ha, hs, hsl, otaManagerIsActive, Device.report, Device.reply]
  · obtain ⟨hns, hnl⟩ := authSendNack_spec packet (show ProtocolError.busy ≠ .ok by decide) d.auth
    simp [execute, hl, ha, hns, hnl, otaManagerIsActive, Outcome.refused, Device.report,
      Device.reply]

theorem handleRollback_spec (hp : authCommandIsProtected packet.command = true) (d : Device β) :
    (handleRollback esp packet).state d = (d.answer esp .rollback packet).1 ∧
      (handleRollback esp packet).log d = (d.answer esp .rollback packet).2 := by
  apply handleProtected_spec packet hp
  intro payload
  by_cases hl : payload.length = 0
  swap
  · obtain ⟨hns, hnl⟩ :=
      authSendNack_spec packet (show ProtocolError.invalidLength ≠ .ok by decide) d.auth
    simp [execute, hl, hns, hnl, Outcome.refused, Device.report, Device.reply]
  cases ha : d.ota.active
  swap
  · obtain ⟨hns, hnl⟩ := authSendNack_spec packet (show ProtocolError.busy ≠ .ok by decide) d.auth
    simp [execute, hl, ha, hns, hnl, otaManagerIsActive, Outcome.refused, Device.report,
      Device.reply]
  cases hr : esp.rollbackIsPossible
  · obtain ⟨hns, hnl⟩ :=
      authSendNack_spec packet (show ProtocolError.rollbackNotAvailable ≠ .ok by decide) d.auth
    simp [execute, hl, ha, hr, hns, hnl, otaManagerIsActive, Device.report, Device.reply]
  · obtain ⟨hs, hsl⟩ := authSendAck_spec packet d.auth
    simp [execute, hl, ha, hr, hs, hsl, otaManagerIsActive, Device.report, Device.reply]

/-- **The dispatcher in normal form.** A protected command is its gate and at most
one execution. -/
theorem commandsHandlePacket_protected {c : Command} (hv : packet.version = protocolVersion)
    (hc : packet.command = c.code) (hp : c.isProtected = true) (d : Device β) :
    (commandsHandlePacket esp packet).state d = (d.answer esp c packet).1 ∧
      (commandsHandlePacket esp packet).log d = (d.answer esp c packet).2 := by
  have hp' : authCommandIsProtected packet.command = true := by rw [hc]; simpa using hp
  cases c with
  | reboot => simpa [commandsHandlePacket, hv, hc] using handleReboot_spec esp packet hp' d
  | rollback => simpa [commandsHandlePacket, hv, hc] using handleRollback_spec esp packet hp' d
  | otaBegin =>
    have h : commandsHandlePacket esp packet = handleOta packet .otaBegin false
        (otaManagerBegin esp) := by simp [commandsHandlePacket, hv, hc]
    exact h ▸ handleOta_spec packet hp' d .otaBegin false (otaManagerBegin esp)
  | otaData =>
    have h : commandsHandlePacket esp packet = handleOta packet .otaData false
        (otaManagerWriteData esp) := by simp [commandsHandlePacket, hv, hc]
    exact h ▸ handleOta_spec packet hp' d .otaData false (otaManagerWriteData esp)
  | otaEnd =>
    have h : commandsHandlePacket esp packet = handleOta packet .otaEnd true
        (fun _ => otaManagerEnd esp) := by simp [commandsHandlePacket, hv, hc]
    exact h ▸ handleOta_spec packet hp' d .otaEnd true fun _ => otaManagerEnd esp
  | otaAbort =>
    have h : commandsHandlePacket esp packet = handleOta packet .otaAbort true
        (fun _ => otaManagerAbort esp) := by simp [commandsHandlePacket, hv, hc]
    exact h ▸ handleOta_spec packet hp' d .otaAbort true fun _ => otaManagerAbort esp
  | _ => exact absurd hp (by decide)

end NormalForm

/-! ## All that handling a packet can do -/

/-- The next state and the events of one packet. -/
def Device.handle (d : Device β) (esp : EspIdf β) (packet : Packet β) :
    Device β × List (Event β) :=
  ((commandsHandlePacket esp packet).state d, (commandsHandlePacket esp packet).log d)

/-- The device after the challenge in `packet`. -/
def Device.challenged (d : Device β) (esp : EspIdf β) (packet : Packet β)
    (hn : packet.payload.length = authNonceSize) : Device β :=
  { d with auth := d.auth.challenged packet.payload esp.fillRandom hn esp.length_fillRandom }

/-- The device after the proof of its current nonce pair. -/
def Device.proved (d : Device β) : Device β := { d with auth := d.auth.proved }

/-- The possible effects of handling a packet. -/
inductive Handled (d : Device β) (esp : EspIdf β) (packet : Packet β) :
    Device β × List (Event β) → Prop
  /-- A public status, or a NACK of the dispatcher or the handshake. -/
  | status (error : ProtocolError) (hping : error = .ok → packet.command = Command.ping.code)
      (hp : packet.version = protocolVersion → authCommandIsProtected packet.command = false) :
      Handled d esp packet
        (d, [.send (frame (responseFor error) packet.sequence (statusPayload error))])
  | info (hc : packet.command = Command.getInfo.code) :
      Handled d esp packet (d, [.send (frame .info packet.sequence esp.infoPayload)])
  | challenge (hc : packet.command = Command.auth.code) (hr : d.auth.required = true)
      (hn : packet.payload.length = authNonceSize) :
      Handled d esp packet
        (d.challenged esp packet hn,
          [.send (frame .ack packet.sequence (statusPayload .ok ++ esp.fillRandom ++
            deviceProofOf d.auth.key packet.payload esp.fillRandom))])
  | proof (hc : packet.command = Command.auth.code) (hr : d.auth.required = true)
      (hs : d.auth.pending = true ∨ d.auth.authenticated = true)
      (hpay : packet.payload = d.auth.clientNonce ++
        authProofOf d.auth.key d.auth.clientNonce d.auth.serverNonce) :
      Handled d esp packet
        (d.proved, [.send (ackFrame packet.sequence)])
  | guarded (c : Command) (hv : packet.version = protocolVersion)
      (hc : packet.command = c.code) (hp : c.isProtected = true) :
      Handled d esp packet (d.answer esp c packet)

/-- A challenge is always answered. -/
theorem handle_challenge {d : Device β} (esp : EspIdf β) {packet : Packet β}
    (hv : packet.version = protocolVersion) (hc : packet.command = Command.auth.code)
    (hr : d.auth.required = true) (hn : packet.payload.length = authNonceSize) :
    d.handle esp packet = (d.challenged esp packet hn,
      [.send (frame .ack packet.sequence (statusPayload .ok ++ esp.fillRandom ++
        deviceProofOf d.auth.key packet.payload esp.fillRandom))]) := by
  obtain ⟨hok, hs, hl⟩ := authHandlePacket_challenge esp packet hr hn
  simp [Device.handle, commandsHandlePacket, Device.challenged, hv, hc, hok, hs, hl]

/-- The proof of the current nonce pair is always accepted. -/
theorem handle_proof {d : Device β} (esp : EspIdf β) {packet : Packet β}
    (hv : packet.version = protocolVersion) (hc : packet.command = Command.auth.code)
    (hr : d.auth.required = true) (hs : d.auth.pending = true ∨ d.auth.authenticated = true)
    (hpay : packet.payload = d.auth.clientNonce ++
      authProofOf d.auth.key d.auth.clientNonce d.auth.serverNonce) :
    d.handle esp packet = (d.proved, [.send (ackFrame packet.sequence)]) := by
  obtain ⟨hok, hstate, hl⟩ := authHandlePacket_proof esp packet hr hs hpay
  simp [Device.handle, commandsHandlePacket, Device.proved, hv, hc, hok, hstate, hl]

theorem Handled.nack {d : Device β} {esp : EspIdf β} {packet : Packet β} {error : ProtocolError}
    (he : error ≠ .ok)
    (hp : packet.version = protocolVersion → authCommandIsProtected packet.command = false) :
    Handled d esp packet (d, [.send (nackFrame packet.sequence error)]) := by
  have h : Handled d esp packet _ := .status error (fun h => absurd h he) hp
  rwa [responseFor_of_ne he] at h

/-- An octet that names no protected command is not protected. -/
theorem authCommandIsProtected_of_ofCode? {x : UInt8}
    (h : ∀ c, Command.ofCode? x = some c → c.isProtected = false) :
    authCommandIsProtected x = false := by
  by_contra hx
  simp only [authCommandIsProtected, Bool.not_eq_false, Bool.or_eq_true, beq_iff_eq] at hx
  rcases hx with ((((rfl | rfl) | rfl) | rfl) | rfl) | rfl <;>
    exact absurd (h _ (Command.ofCode?_code _)) (by decide)

theorem handle_cases (d : Device β) (esp : EspIdf β) (packet : Packet β) :
    Handled d esp packet (d.handle esp packet) := by
  by_cases hv : packet.version = protocolVersion
  swap
  · have h : d.handle esp packet = (d, [.send (nackFrame packet.sequence .invalidPacket)]) := by
      simp [Device.handle, commandsHandlePacket, hv]
    exact h ▸ Handled.nack (by decide) fun h => absurd h hv
  cases hc : Command.ofCode? packet.command with
  | none =>
    have h : d.handle esp packet = (d, [.send (nackFrame packet.sequence .unknownCommand)]) := by
      simp [Device.handle, commandsHandlePacket, hv, hc]
    exact h ▸ Handled.nack (by decide) fun _ =>
      authCommandIsProtected_of_ofCode? fun c h => by simp [hc] at h
  | some c =>
    have hcode := (Command.code_of_ofCode? hc).symm
    by_cases hp : c.isProtected = true
    · obtain ⟨hs, hl⟩ := commandsHandlePacket_protected esp packet hv hcode hp d
      rw [Device.handle, hs, hl]
      exact .guarded c hv hcode hp
    have hnp : authCommandIsProtected packet.command = false := by
      rw [hcode, authCommandIsProtected_code]
      simpa using hp
    by_cases hauth : c = .auth
    · subst hauth
      rcases authHandlePacket_cases esp packet d.auth with
        ⟨hne, hs, hl⟩ | ⟨hn, hr, hok, hs, hl⟩ | ⟨hr, hst, hpay, hok, hs, hl⟩
      · have h : d.handle esp packet =
            (d, [.send (nackFrame packet.sequence
              ((authHandlePacket esp packet).val d.auth))]) := by
          simp [Device.handle, commandsHandlePacket, hv, hc, hne, hs, hl]
        exact h ▸ Handled.nack hne fun _ => hnp
      · have h : d.handle esp packet =
            (d.challenged esp packet hn,
              [.send (frame .ack packet.sequence (statusPayload .ok ++ esp.fillRandom ++
                deviceProofOf d.auth.key packet.payload esp.fillRandom))]) := by
          simp [Device.handle, commandsHandlePacket, Device.challenged, hv, hc, hok, hs, hl]
        exact h ▸ .challenge hcode hr hn
      · have h : d.handle esp packet =
            (d.proved, [.send (ackFrame packet.sequence)]) := by
          simp [Device.handle, commandsHandlePacket, Device.proved, hv, hc, hok, hs, hl]
        exact h ▸ .proof hcode hr hst hpay
    by_cases hping : c = .ping
    · subst hping
      have h : d.handle esp packet = (d, [.send (ackFrame packet.sequence)]) := by
        simp [Device.handle, commandsHandlePacket, hv, hc]
      exact h ▸ .status .ok (fun _ => hcode) fun _ => hnp
    by_cases hinfo : c = .getInfo
    · subst hinfo
      by_cases hlen : esp.infoPayload = []
      · have h : d.handle esp packet =
            (d, [.send (nackFrame packet.sequence .invalidLength)]) := by
          simp [Device.handle, commandsHandlePacket, hv, hc, hlen]
        exact h ▸ Handled.nack (by decide) fun _ => hnp
      · have h : d.handle esp packet =
            (d, [.send (frame .info packet.sequence esp.infoPayload)]) := by
          simp [Device.handle, commandsHandlePacket, hv, hc, hlen]
        exact h ▸ .info hcode
    have h : d.handle esp packet = (d, [.send (nackFrame packet.sequence .unknownCommand)]) := by
      cases c <;> simp_all [Device.handle, commandsHandlePacket, Command.isProtected]
    exact h ▸ Handled.nack (by decide) fun _ => hnp

end OtaLink
