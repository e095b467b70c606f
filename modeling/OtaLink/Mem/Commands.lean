import OtaLink.DeviceInfo
import OtaLink.Mem.Auth
import OtaLink.Mem.OtaManager
import OtaLink.Replay

/-!
# The firmware over arrays

The dispatcher and the command loop over the arrays of the component, from the octets that
arrive to the octets that are written. The whole firmware realizes the device: what it does
on a stream of octets is what the device does on the packets decoded from the stream.

## Main definitions

* `Mem.commandsHandlePacket` — the dispatcher.
* `Mem.Firmware`, `Mem.Firmware.run` — the command loop on a stream.
* `Mem.stimuli` — the packets of a stream.
* `Mem.run_realizes` — the firmware realizes the device.
* `Mem.no_out_of_range_access` — no access of the firmware is out of range.
-/

namespace OtaLink.Mem
open Lib

/-- What ESP-IDF answers while a packet is handled, with all that `device_info.c` reports. -/
structure EspResults where
  calls : EspIdf UInt8
  description : DeviceDescription
  /-- `esp_partition_get_sha256` fills `s_actual_sha256`. -/
  length_partitionSha256 : ∀ digest, calls.partitionSha256 = some digest →
    digest.length = otaSha256Size

/-- The static state of `auth.c` and `ota_manager.c`. -/
structure Device where
  auth : AuthState
  ota : OtaState

abbrev DeviceRoutine := Checked Device Event

def onAuth {α : Type} (x : AuthRoutine α) : DeviceRoutine α :=
  x.on Device.auth fun d auth => { d with auth }

def onOta {α : Type} (x : OtaRoutine α) : DeviceRoutine α :=
  x.on Device.ota fun d ota => { d with ota }

/-! ## The dispatcher -/

def handleAuthenticatedReplay (packet : Packet) : DeviceRoutine Bool := do
  let r ← onAuth (authCheckReplay packet)
  if r.1 ≠ .ok then
    onAuth (authSendNack packet r.1)
    return true
  return r.2

/-- What every branch of a protected command does first; `command` runs on the length of the
unwrapped payload. -/
def handleProtected (packet : Packet) (command : ℕ → DeviceRoutine Unit) : DeviceRoutine Unit := do
  if ← handleAuthenticatedReplay packet then return
  let d ← Checked.get
  match ← authUnwrapPacket d.auth packet with
  | .error error => onAuth (authSendNack packet error)
  | .ok length => command length

def handleOta (packet : Packet) (bare : Bool) (operation : ℕ → OtaRoutine ProtocolError) :
    DeviceRoutine Unit :=
  handleProtected packet fun length => do
    if bare && length != 0 then onAuth (authSendNack packet .invalidLength)
    else
      let error ← onOta (operation length)
      if error = .ok then onAuth (authSendAck packet) else onAuth (authSendNack packet error)

def handleReboot (packet : Packet) : DeviceRoutine Unit :=
  handleProtected packet fun length => do
    let d ← Checked.get
    if length ≠ 0 then onAuth (authSendNack packet .invalidLength)
    else if d.ota.active then onAuth (authSendNack packet .busy)
    else
      onAuth (authSendAck packet)
      Checked.emit (.call .restart)

def handleRollback (esp : EspIdf UInt8) (packet : Packet) : DeviceRoutine Unit :=
  handleProtected packet fun length => do
    let d ← Checked.get
    if length ≠ 0 then onAuth (authSendNack packet .invalidLength)
    else if d.ota.active then onAuth (authSendNack packet .busy)
    else
      Checked.emit (.call (.checkRollbackIsPossible esp.rollbackIsPossible))
      if !esp.rollbackIsPossible then onAuth (authSendNack packet .rollbackNotAvailable)
      else
        onAuth (authSendAck packet)
        Checked.emit (.call (.markInvalidRollbackAndReboot esp.markInvalidReboots))

/-- `device_info_build_payload(s_info_payload, sizeof(s_info_payload))`. -/
def buildInfo (d : DeviceDescription) : Build (Buffer UInt8 protocolMaxPayload × ℕ) :=
  deviceInfoBuildPayload d (.blank UInt8 protocolMaxPayload)

/-- The branch of `CMD_GET_INFO`. -/
def handleInfo (d : DeviceDescription) (packet : Packet) : DeviceRoutine Unit :=
  match buildInfo d with
  | .error .fault => Checked.access none
  | .error .zero => protocolSendNack packet.sequence .invalidLength
  | .ok (payload, length) =>
    if length = 0 then protocolSendNack packet.sequence .invalidLength
    else protocolSendPacket Command.info.code packet.sequence payload length

def commandsHandlePacket (esp : EspResults) (packet : Packet) : DeviceRoutine Unit :=
  if packet.version ≠ protocolVersion then protocolSendNack packet.sequence .invalidPacket
  else
    match Command.ofCode? packet.command with
    | some .ping => protocolSendAck packet.sequence
    | some .getInfo => handleInfo esp.description packet
    | some .auth => do
      let error ← onAuth (authHandlePacket esp.calls packet)
      if error ≠ .ok then protocolSendNack packet.sequence error
    | some .reboot => handleReboot packet
    | some .rollback => handleRollback esp.calls packet
    | some .otaBegin => handleOta packet false (otaManagerBegin esp.calls packet.payload)
    | some .otaAbort => handleOta packet true fun _ => otaManagerAbort esp.calls
    | some .otaData => handleOta packet false (otaManagerWriteData esp.calls packet.payload)
    | some .otaEnd => handleOta packet true fun _ => otaManagerEnd esp.calls
    | _ => protocolSendNack packet.sequence .unknownCommand

/-! ## The command loop -/

/-- `ota_link_start_with_config` on a configuration it accepts. -/
def otaLinkStart (config : OtaLinkConfig UInt8) : Option Device := do
  let auth ← authConfigure config.authKey config.requireAuthentication
  return ⟨auth, .cleared⟩

/-- The device starts again after this event. -/
def Event.reboots : Event → Bool
  | .call e => e.reboots
  | _ => false

/-- Handle one packet and start again where the dispatcher asked for it. -/
def Device.step (config : OtaLinkConfig UInt8) (d : Device) (esp : EspResults) (packet : Packet) :
    Option (Device × List Event) := do
  let (_, d', events) ← (commandsHandlePacket esp packet).run d
  if events.any Event.reboots then return (← otaLinkStart config, events)
  return (d', events)

/-- The parser and the rest of the static state. -/
structure Firmware where
  parser : Parser
  device : Device

/-- `protocol_parser_init`. -/
def Parser.init : Parser := ⟨.filled _ 0, 0⟩

/-- What reaches the firmware: an octet, with what ESP-IDF answers if it completes a packet,
or a power cycle. -/
inductive Input
  | octet (byte : UInt8) (esp : EspResults)
  | reset

def Firmware.boot (config : OtaLinkConfig UInt8) : Option Firmware := do
  return ⟨Parser.init, ← otaLinkStart config⟩

/-- The body of the loop of `ota_link_task`. A complete packet leaves the parser as a restart
does. -/
def Firmware.step (config : OtaLinkConfig UInt8) (f : Firmware) :
    Input → Option (Firmware × List Event)
  | .octet byte esp => do
    let (parser, packet) ← protocolParserFeed f.parser byte
    match packet with
    | none => return (⟨parser, f.device⟩, [])
    | some packet =>
      let (device, events) ← f.device.step config esp packet
      return (⟨parser, device⟩, events)
  | .reset => do return (← Firmware.boot config, [])

def Firmware.run (config : OtaLinkConfig UInt8) (f : Firmware) :
    List Input → Option (Firmware × List Event)
  | [] => some (f, [])
  | x :: xs => do
    let (f, events) ← f.step config x
    let (f, rest) ← f.run config xs
    return (f, events ++ rest)

/-! ## The dispatcher realizes the dispatcher -/

/-- The octets that answer GET_INFO, none where the encoder returns 0. -/
def infoPayload (d : DeviceDescription) : List UInt8 :=
  match buildInfo d with
  | .ok (payload, length) => (payload.read? 0 length).getD []
  | .error _ => []

/-- The encoder stays inside its buffer, and returns 0 or fills a front of it. -/
theorem buildInfo_cases (d : DeviceDescription) :
    (∃ payload, buildInfo d = .ok (payload, (infoPayload d).length) ∧
      payload.Begins (infoPayload d) ∧ (infoPayload d).length ≠ 0) ∨
    (buildInfo d = .error .zero ∧ infoPayload d = []) := by
  rcases deviceInfoBuildPayload_spec d (.blank UInt8 protocolMaxPayload) with
    ⟨-, payload, hbuild, hbegins⟩ | ⟨-, hbuild⟩
  · have hinfo : infoPayload d = d.encode := by
      rw [infoPayload, buildInfo, hbuild]
      simp only [hbegins.read_all, Option.getD_some]
    rw [hinfo]
    refine .inl ⟨payload, hbuild, hbegins, ?_⟩
    rw [DeviceDescription.encode, List.length_append, length_header]
    omega
  · exact .inr ⟨hbuild, by rw [infoPayload, buildInfo, hbuild]⟩

theorem length_infoPayload_le (d : DeviceDescription) :
    (infoPayload d).length ≤ protocolMaxPayload := by
  rcases buildInfo_cases d with ⟨payload, -, hbegins, -⟩ | ⟨-, hnil⟩
  · exact hbegins.length_le
  · simp [hnil]

/-- What ESP-IDF answers, with the info payload as octets. -/
def EspResults.answers (esp : EspResults) : EspIdf UInt8 :=
  { esp.calls with
    infoPayload := infoPayload esp.description
    infoPayload_le := length_infoPayload_le esp.description }

/-- The arrays hold the device. -/
structure Device.Holds (m : Device) (d : OtaLink.Device UInt8) : Prop where
  auth : m.auth.Holds d.auth
  ota : m.ota.Holds d.ota

/-- Both sides have a result; what it is does not matter. -/
abbrev Any {α β : Type} : α → β → Prop := fun _ _ => True

section Realize
variable {packet : Packet} {p : OtaLink.Packet UInt8}

theorem onAuth_realizes {α β : Type} {Q : α → β → Prop} {x : AuthRoutine α}
    {y : OtaLink.AuthRoutine UInt8 β} (h : Checked.Realizes view AuthState.Holds Q x y) :
    Checked.Realizes view Device.Holds Q (onAuth x) (OtaLink.onAuth y) :=
  Checked.Realizes.on (fun _ _ h => h.auth) (fun _ _ _ _ h h' => { h with auth := h' }) h

theorem onOta_realizes {α β : Type} {Q : α → β → Prop} {x : OtaRoutine α}
    {y : OtaLink.OtaRoutine UInt8 β} (h : Checked.Realizes view OtaState.Holds Q x y) :
    Checked.Realizes view Device.Holds Q (onOta x) (OtaLink.onOta y) :=
  Checked.Realizes.on (fun _ _ h => h.ota) (fun _ _ _ _ h h' => { h with ota := h' }) h

theorem sendNack_realizes (hp : packet.Holds p) (error : ProtocolError) :
    Checked.Realizes view Device.Holds Any (onAuth (authSendNack packet error))
      (OtaLink.onAuth (OtaLink.authSendNack p error)) :=
  onAuth_realizes (authSendNack_realizes hp error)

theorem sendAck_realizes (hp : packet.Holds p) :
    Checked.Realizes view Device.Holds Any (onAuth (authSendAck packet))
      (OtaLink.onAuth (OtaLink.authSendAck p)) :=
  onAuth_realizes (authSendAck_realizes hp)

theorem protocolSendNack_realizes (sequence : UInt16) (error : ProtocolError) :
    Checked.Realizes view Device.Holds Any (protocolSendNack sequence error)
      (Routine.emit (.send (nackFrame sequence error))) :=
  fun m _ h => ⟨(), m, protocolSendNack_run sequence error m, h, trivial⟩

theorem protocolSendAck_realizes (sequence : UInt16) :
    Checked.Realizes view Device.Holds Any (protocolSendAck sequence)
      (Routine.emit (.send (ackFrame sequence))) :=
  fun m _ h => ⟨(), m, protocolSendAck_run sequence m, h, trivial⟩

theorem handleAuthenticatedReplay_realizes (hp : packet.Holds p) :
    Checked.Realizes view Device.Holds Eq (handleAuthenticatedReplay packet)
      (OtaLink.handleAuthenticatedReplay p) := by
  refine Checked.Realizes.bind (onAuth_realizes (authCheckReplay_realizes hp)) fun r r' hr => ?_
  subst hr
  refine Checked.Realizes.ite Iff.rfl (fun _ => ?_) fun _ => Checked.Realizes.pure rfl
  exact Checked.Realizes.bind (sendNack_realizes hp r.1) fun _ _ _ => Checked.Realizes.pure rfl

/-- **A protected branch realizes its branch** where its command does on what is unwrapped. -/
theorem handleProtected_realizes (hp : packet.Holds p) {command : ℕ → DeviceRoutine Unit}
    {command' : List UInt8 → OtaLink.DeviceRoutine UInt8 Unit}
    (h : ∀ payload : List UInt8, packet.payload.Begins payload →
      Checked.Realizes view Device.Holds Any (command payload.length) (command' payload)) :
    Checked.Realizes view Device.Holds Any (handleProtected packet command)
      (OtaLink.handleProtected p command') := by
  refine Checked.Realizes.bind (handleAuthenticatedReplay_realizes hp) fun replayed _ hr => ?_
  subst hr
  refine Checked.Realizes.ite Iff.rfl (fun _ => Checked.Realizes.pure trivial) fun _ => ?_
  refine Checked.Realizes.bind Checked.Realizes.get fun m d hd => ?_
  obtain ⟨r, hrun, hun⟩ := authUnwrapPacket_run hp hd.auth
  refine Checked.Realizes.eval hrun ?_
  generalize OtaLink.authUnwrapPacket d.auth p = r' at hun
  rcases r with error | length <;> rcases r' with error' | payload
  · obtain rfl : error = error' := hun
    exact sendNack_realizes hp error
  · exact hun.elim
  · exact hun.elim
  · obtain ⟨rfl, hbegins⟩ : length = payload.length ∧ packet.payload.Begins payload := hun
    exact h payload hbegins

theorem handleOta_realizes (hp : packet.Holds p) (command : Command) (bare : Bool)
    {operation : ℕ → OtaRoutine ProtocolError}
    {operation' : List UInt8 → OtaLink.OtaRoutine UInt8 ProtocolError}
    (h : ∀ payload : List UInt8, packet.payload.Begins payload →
      Checked.Realizes view OtaState.Holds Eq (operation payload.length) (operation' payload)) :
    Checked.Realizes view Device.Holds Any (handleOta packet bare operation)
      (OtaLink.handleOta p command bare operation') := by
  refine handleProtected_realizes hp fun payload hbegins => ?_
  refine Checked.Realizes.ite Iff.rfl (fun _ => sendNack_realizes hp _) fun _ => ?_
  refine Checked.Realizes.bind (onOta_realizes (h payload hbegins)) fun error _ he => ?_
  subst he
  refine Checked.Realizes.skip rfl ?_
  exact Checked.Realizes.ite Iff.rfl (fun _ => sendAck_realizes hp) fun _ => sendNack_realizes hp _

theorem handleReboot_realizes (hp : packet.Holds p) :
    Checked.Realizes view Device.Holds Any (handleReboot packet) (OtaLink.handleReboot p) := by
  refine handleProtected_realizes hp fun payload _ => ?_
  refine Checked.Realizes.bind Checked.Realizes.get fun m d hd => ?_
  refine Checked.Realizes.ite Iff.rfl (fun _ => sendNack_realizes hp _) fun _ => ?_
  refine Checked.Realizes.ite (by rw [hd.ota.active]; rfl) (fun _ => sendNack_realizes hp _)
    fun _ => ?_
  refine Checked.Realizes.bind (sendAck_realizes hp) fun _ _ _ => ?_
  exact Checked.Realizes.skip rfl (Checked.Realizes.emit rfl)

theorem handleRollback_realizes (hp : packet.Holds p) (esp : EspIdf UInt8) :
    Checked.Realizes view Device.Holds Any (handleRollback esp packet)
      (OtaLink.handleRollback esp p) := by
  refine handleProtected_realizes hp fun payload _ => ?_
  refine Checked.Realizes.bind Checked.Realizes.get fun m d hd => ?_
  refine Checked.Realizes.ite Iff.rfl (fun _ => sendNack_realizes hp _) fun _ => ?_
  refine Checked.Realizes.ite (by rw [hd.ota.active]; rfl) (fun _ => sendNack_realizes hp _)
    fun _ => ?_
  refine Checked.Realizes.bind (Checked.Realizes.emit rfl) fun _ _ _ => ?_
  refine Checked.Realizes.ite Iff.rfl (fun _ => sendNack_realizes hp _) fun _ => ?_
  refine Checked.Realizes.bind (sendAck_realizes hp) fun _ _ _ => ?_
  exact Checked.Realizes.skip rfl (Checked.Realizes.emit rfl)

theorem handleInfo_realizes (hp : packet.Holds p) (d : DeviceDescription) :
    Checked.Realizes view Device.Holds Any (handleInfo d packet)
      (if (infoPayload d).length = 0 then Routine.emit (.send (nackFrame p.sequence .invalidLength))
        else Routine.emit (.send (frame .info p.sequence (infoPayload d)))) := by
  rcases buildInfo_cases d with ⟨payload, hbuild, hbegins, hlen⟩ | ⟨hbuild, hnil⟩
  · rw [if_neg hlen]
    intro m s h
    refine ⟨(), m, ?_, h, trivial⟩
    simp only [handleInfo, hbuild, if_neg hlen]
    rw [protocolSendPacket_run _ _ hbegins (length_infoPayload_le d), hp.sequence]
    rfl
  · rw [if_pos (by rw [hnil]; rfl)]
    simp only [handleInfo, hbuild, hp.sequence]
    exact protocolSendNack_realizes _ _

/-- **The dispatcher over arrays realizes the dispatcher.** -/
theorem commandsHandlePacket_realizes (hp : packet.Holds p) (esp : EspResults) :
    Checked.Realizes view Device.Holds Any (commandsHandlePacket esp packet)
      (OtaLink.commandsHandlePacket esp.answers p) := by
  rw [commandsHandlePacket, OtaLink.commandsHandlePacket, hp.version, hp.command]
  refine Checked.Realizes.ite Iff.rfl (fun _ => ?_) fun _ => ?_
  · rw [hp.sequence]
    exact protocolSendNack_realizes _ _
  rcases Command.ofCode? p.command with _ | c
  · rw [hp.sequence]
    exact protocolSendNack_realizes _ _
  cases c with
  | ping =>
    rw [hp.sequence]
    exact protocolSendAck_realizes _
  | getInfo => exact handleInfo_realizes hp esp.description
  | auth =>
    refine Checked.Realizes.bind (onAuth_realizes (authHandlePacket_realizes esp.answers hp))
      fun error _ he => ?_
    subst he
    rw [hp.sequence]
    exact Checked.Realizes.ite Iff.rfl (fun _ => protocolSendNack_realizes _ _)
      fun _ => Checked.Realizes.pure trivial
  | reboot => exact handleReboot_realizes hp
  | rollback => exact handleRollback_realizes hp esp.answers
  | otaBegin =>
    exact handleOta_realizes hp _ _ fun _ h => otaManagerBegin_realizes esp.answers h
  | otaAbort => exact handleOta_realizes hp _ _ fun _ _ => otaManagerAbort_realizes esp.answers
  | otaData =>
    exact handleOta_realizes hp _ _ fun _ h => otaManagerWriteData_realizes esp.answers h
  | otaEnd =>
    exact handleOta_realizes hp _ _ fun _ _ =>
      otaManagerEnd_realizes esp.answers esp.length_partitionSha256
  | _ =>
    rw [hp.sequence]
    exact protocolSendNack_realizes _ _

end Realize
/-! ## The firmware realizes the device -/

/-- The packets the parser hands on, with what ESP-IDF answers, and the power cycles. -/
def stimuli : List UInt8 → List Input → List (Stimulus UInt8)
  | _, [] => []
  | held, .octet byte esp :: xs =>
    ((OtaLink.protocolParserFeed held byte).2.map fun p => Stimulus.packet p esp.answers).toList ++
      stimuli (OtaLink.protocolParserFeed held byte).1 xs
  | _, .reset :: xs => .reset :: stimuli [] xs

/-- The arrays hold the octets of a frame and the device. -/
structure Firmware.Holds (f : Firmware) (held : List UInt8) (d : OtaLink.Device UInt8) : Prop where
  parser : f.parser.Holds held
  device : f.device.Holds d

theorem any_reboots_filterMap (events : List (OtaLink.Event UInt8)) :
    (events.filterMap view).any Event.reboots = events.any OtaLink.Event.reboots := by
  induction events with
  | nil => rfl
  | cons e events ih => cases e <;> first | exact ih | exact congrArg (Bool.or _) ih

section Run
variable {config : OtaLinkConfig UInt8} {d₀ : OtaLink.Device UInt8}

theorem otaLinkStart_spec (h : otaLinkStartWithConfig config = some d₀) :
    ∃ m, otaLinkStart config = some m ∧ m.Holds d₀ := by
  obtain ⟨auth, hconf, hauth⟩ := authConfigure_spec config.authKey config.requireAuthentication
  have hd : d₀ = ⟨OtaLink.authConfigure config.authKey config.requireAuthentication, .cleared⟩ := by
    rw [otaLinkStartWithConfig] at h
    split at h
    · cases h
    · exact (Option.some.inj h).symm
  refine ⟨⟨auth, .cleared⟩, ?_, hd ▸ ⟨hauth, otaHolds_cleared⟩⟩
  simp [otaLinkStart, hconf]

theorem Firmware.boot_spec (h : otaLinkStartWithConfig config = some d₀) :
    ∃ f, Firmware.boot config = some f ∧ f.Holds [] d₀ := by
  obtain ⟨m, hstart, hm⟩ := otaLinkStart_spec h
  refine ⟨⟨Parser.init, m⟩, by simp [Firmware.boot, hstart], ⟨Buffer.begins_nil _, rfl, by simp⟩,
    hm⟩

/-- A packet is handled without a fault, as the device handles it. -/
theorem Device.step_spec (h₀ : otaLinkStartWithConfig config = some d₀) {m : Device}
    {d : OtaLink.Device UInt8} (hm : m.Holds d) (hd : d.restarted = d₀) {packet : Packet}
    {p : OtaLink.Packet UInt8} (hp : packet.Holds p) (esp : EspResults) :
    ∃ m', m.step config esp packet =
        some (m', (d.step esp.answers p).2.filterMap view) ∧
      m'.Holds (d.step esp.answers p).1 := by
  obtain ⟨_, m', hrun, hm', -⟩ := commandsHandlePacket_realizes hp esp m d hm
  have hreboots := any_reboots_filterMap ((OtaLink.commandsHandlePacket esp.answers p).log d)
  have hview : (d.step esp.answers p).2.filterMap view =
      ((OtaLink.commandsHandlePacket esp.answers p).log d).filterMap view := rfl
  rw [hview]
  obtain ⟨m₀, hstart, hm₀⟩ := otaLinkStart_spec h₀
  by_cases hb : ((OtaLink.commandsHandlePacket esp.answers p).log d).any OtaLink.Event.reboots =
    true
  · refine ⟨m₀, ?_, ?_⟩
    · simp [Device.step, hrun, hreboots, -List.any_filterMap, -List.any_eq_true, hb, hstart]
    · have hstate : (d.step esp.answers p).1 =
          ((OtaLink.commandsHandlePacket esp.answers p).state d).restarted := if_pos hb
      have hsame := restarted_step d esp.answers p
      rw [hstate, restarted_restarted, hd] at hsame
      rw [hstate, hsame]
      exact hm₀
  · refine ⟨m', ?_, ?_⟩
    · simp [Device.step, hrun, hreboots, -List.any_filterMap, -List.any_eq_true, hb]
    · have hstate : (d.step esp.answers p).1 =
          (OtaLink.commandsHandlePacket esp.answers p).state d := if_neg hb
      rw [hstate]
      exact hm'

/-- **The firmware realizes the device.** On every stream it makes no faulty access and does
what the device does on the packets of the stream. -/
theorem run_realizes (h₀ : otaLinkStartWithConfig config = some d₀) (inputs : List Input) :
    ∀ {f : Firmware} {held : List UInt8} {d : OtaLink.Device UInt8}, f.Holds held d →
    d.restarted = d₀ → ∃ f', f.run config inputs =
      some (f', (d.run (stimuli held inputs)).2.filterMap view) := by
  induction inputs with
  | nil => exact fun {f held d} _ _ => ⟨f, rfl⟩
  | cons x inputs ih =>
    intro f held d hf hd
    cases x with
    | reset =>
      obtain ⟨f₁, hboot, hf₁⟩ := Firmware.boot_spec h₀
      obtain ⟨f', hrun⟩ := ih (hd ▸ hf₁) (by rw [restarted_restarted, hd])
      refine ⟨f', ?_⟩
      simp only [Firmware.run, Firmware.step, hboot, Option.bind_eq_bind, Option.bind_some,
        Option.pure_def, hrun]
      rfl
    | octet byte esp =>
      obtain ⟨parser, packet, hfeed, hparser, hrel⟩ := protocolParserFeed_spec hf.parser byte
      simp only [Firmware.run, Firmware.step, hfeed, Option.bind_eq_bind, Option.bind_some,
        Option.pure_def, stimuli]
      generalize (OtaLink.protocolParserFeed held byte).2 = decoded at hrel
      rcases hrel with @⟨packet, p, hp⟩ | _
      · obtain ⟨m, hstep, hm⟩ := Device.step_spec h₀ hf.device hd hp esp
        obtain ⟨f', hrun⟩ := ih (f := ⟨parser, m⟩) ⟨hparser, hm⟩
          ((restarted_step d esp.answers p).trans hd)
        refine ⟨f', ?_⟩
        simp only [hstep, Option.bind_some, hrun]
        simp [OtaLink.Device.run, Device.after]
      · obtain ⟨f', hrun⟩ := ih (f := ⟨parser, f.device⟩) ⟨hparser, hf.device⟩ hd
        refine ⟨f', ?_⟩
        simp only [Option.bind_some, hrun]
        rfl

/-- The device never reports that a MAC was not computed. -/
theorem macFailed_notMem (events : List (OtaLink.Event UInt8)) :
    .macFailed ∉ events.filterMap view := by
  intro h
  obtain ⟨e, -, he⟩ := List.mem_filterMap.mp h
  cases e <;> simp [view, sent] at he

/-- **No access is out of range.** From boot with a configuration that is accepted, whatever
octets arrive and whatever ESP-IDF answers, the firmware makes no access beyond an array and
reads no octet that was not written, and no MAC fails to be computed. -/
theorem no_out_of_range_access (h : otaLinkStartWithConfig config = some d₀)
    (inputs : List Input) :
    ∃ f f' events, Firmware.boot config = some f ∧ f.run config inputs = some (f', events) ∧
      .macFailed ∉ events := by
  obtain ⟨f, hboot, hf⟩ := Firmware.boot_spec h
  obtain ⟨f', hrun⟩ := run_realizes h inputs hf (restarted_otaLinkStartWithConfig h)
  exact ⟨f, f', _, hboot, hrun, macFailed_notMem _⟩

end Run

/-! ### A PING on a fresh device -/

/-- What ESP-IDF answers on a board without partitions. -/
def sampleResults : EspResults where
  calls := .succeeding ⟨65536, 4096⟩ (List.replicate 32 9)
  description := {
    runningPartition := none
    bootPartition := none
    appDescription := none
    chipModel := .other
    timerTime := 0
    freeHeap := 0
    bootCount := 0
    rollbackIsPossible := false
    partitions := [] }
  length_partitionSha256 := by
    rintro digest ⟨⟩
    rfl

/-- The octets of a PING. -/
def samplePing : List Input :=
  (OtaLink.protocolSendPacket Command.ping.code 7 []).map (.octet · sampleResults)

theorem no_out_of_range_access_ping :
    ∃ f f' events, Firmware.boot ⟨some [1], true⟩ = some f ∧
      f.run ⟨some [1], true⟩ samplePing = some (f', events) ∧ .macFailed ∉ events :=
  no_out_of_range_access (show otaLinkStartWithConfig ⟨some [1], true⟩ = some _ from rfl) samplePing

end OtaLink.Mem
