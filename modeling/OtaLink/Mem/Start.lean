import OtaLink.BootCount
import OtaLink.Mem.Commands

/-!
# The component from its start

`ota_link_start_with_config` opens the transport, configures the static state and creates the
task that runs the command loop; every one of its calls may fail, and the application may try
again. The command loop reads from the transport that the start has left in `s_config` and
`protocol_send_packet` writes to the writer it has installed, without a check. What `s_config`
has of a transport of the application is a pointer: the table stays with the application, and the
command loop looks into it at each turn.

A second task may mark the running image valid, and so may the tasks of the application. They run
independently of each other: between what one of them asks the platform and what it does about the
answer, anything else may happen.

## Main definitions

* `Start.Component` — the static state.
* `Start.otaLinkStartWithConfig`, `Start.otaLinkTask` — the functions.
* `Start.Component.step` — one call, one step of a task, or a restart.
* `Start.start_cases` — all that a start can do.
* `Start.receiveByte_spec` — an octet is a step of the firmware.
-/

namespace OtaLink.Mem.Start
open Lib

/-! ## The configuration -/

abbrev EspErr := ℤ
def espOk : EspErr := 0
def espErrNoMem : EspErr := 0x101
def espErrInvalidArg : EspErr := 0x102
def espErrInvalidState : EspErr := 0x103

/-- What a call returns that fails. -/
abbrev EspFailure := { err : EspErr // err ≠ espOk }

/-- A callback of a transport: that of the UART, or a function of the application. -/
inductive Callback
  | uart
  | custom (address : ℕ)
  deriving DecidableEq, Repr

/-- `ota_link_transport_t` of the application. An absent callback is a null pointer. -/
structure CustomTransport where
  read : Option ℕ
  write : Option ℕ
  deriving DecidableEq, Repr

abbrev Address := ℕ

/-- The memory of the application, as far as it holds transports. -/
abbrev Tables := Address → CustomTransport

/-- What `s_config.transport` points to. -/
inductive Transport
  /-- `s_uart_transport`. -/
  | uart
  | custom (address : Address)
  deriving DecidableEq, Repr

def Transport.read (tables : Tables) : Transport → Option Callback
  | .uart => some .uart
  | .custom address => (tables address).read.map .custom

def Transport.write (tables : Tables) : Transport → Option Callback
  | .uart => some .uart
  | .custom address => (tables address).write.map .custom

/-- A `void *`, to which a port of the UART is cast too. -/
abbrev Context := ℤ

/-- `ota_link_config_t`. -/
structure Config extends OtaLinkConfig UInt8 where
  uartPort : ℤ
  baudRate : ℤ
  txIoNum : ℤ
  rxIoNum : ℤ
  rtsIoNum : ℤ
  ctsIoNum : ℤ
  rxBufferSize : ℤ
  taskStackSize : UInt32
  taskPriority : ℕ
  autoMarkAppValid : Bool
  autoMarkValidDelayMs : UInt32
  /-- `none` for the UART. -/
  transport : Option Address
  transportContext : Context

/-- `OTA_LINK_DEFAULT_CONFIG`. -/
def Config.default : Config where
  authKey := none
  requireAuthentication := false
  uartPort := 0
  baudRate := 115200
  txIoNum := -1
  rxIoNum := -1
  rtsIoNum := -1
  ctsIoNum := -1
  rxBufferSize := 2048
  taskStackSize := 8192
  taskPriority := 5
  autoMarkAppValid := false
  autoMarkValidDelayMs := 5000
  transport := none
  transportContext := 0

/-! ## The platform -/

/-- What the platform answers during one start. A start stops at the first call of the UART
driver that fails, so one code covers them. -/
structure Answers extends Boot.Answers where
  uartError : EspFailure
  /-- `esp_ota_get_state_partition` of the running partition. -/
  statePartition : Except EspFailure ImgState
  /-- `xTaskCreate` of the task that marks the image valid. -/
  validTaskCreate : Bool

inductive Task
  | otaLink | otaLinkValid
  deriving DecidableEq, Repr

/-- Who calls `ota_link_mark_app_valid`: the task of the component, or one of the application. -/
inductive Caller
  | otaLinkValid
  | application (task : ℕ)
  deriving DecidableEq, Repr

/-- What the component does to the outside. -/
inductive Call
  | uartDriverInstall (port rxBufferSize : ℤ) (ok : Bool)
  | uartParamConfig (port baudRate : ℤ) (ok : Bool)
  | uartSetPin (port tx rx rts cts : ℤ) (ok : Bool)
  | uartDriverDelete (port : ℤ)
  | taskCreate (task : Task) (stackSize : UInt32) (priority : ℕ) (created : Bool)
  | taskDelay (ms : UInt32)
  | taskDelete (task : Task)
  /-- `none` for a start. -/
  | getStatePartition (caller : Option Caller) (state : Except EspFailure ImgState)
  | markAppValidCancelRollback (caller : Caller) (err : EspErr)
  /-- For the application; it returns where it fails. -/
  | markAppInvalidRollbackAndReboot (err : Option EspFailure)
  | read (callback : Callback) (context : Context)
  | write (callback : Callback) (context : Context) (octets : List UInt8)
  /-- An event of the dispatcher that is no frame. -/
  | dispatched (event : Event)
  /-- The device starts again. -/
  | restart

/-- The static state, and the memory of the application. -/
structure Component where
  /-- `s_task_handle`, `s_boot_count` and NVS. -/
  boot : Boot.State
  /-- `s_config`, without the two fields that the start replaces. -/
  config : Config
  transport : Option Transport
  transportContext : Context
  /-- `s_mark_valid_task_handle` is not `NULL`. -/
  markValidTaskHandle : Bool
  /-- `s_write` and `s_write_context`. -/
  writer : Option Callback
  writerContext : Context
  /-- `s_parser`, `s_auth` and `s_ota`. -/
  firmware : Firmware
  tables : Tables
  /-- Who has been told in `ota_link_mark_app_valid` to go on to its second call. -/
  asking : Finset Caller

/-- The configuration that memory cleared to zero holds. -/
def Config.zero : Config where
  authKey := none
  requireAuthentication := false
  uartPort := 0
  baudRate := 0
  txIoNum := 0
  rxIoNum := 0
  rtsIoNum := 0
  ctsIoNum := 0
  rxBufferSize := 0
  taskStackSize := 0
  taskPriority := 0
  autoMarkAppValid := false
  autoMarkValidDelayMs := 0
  transport := none
  transportContext := 0

/-- The state after a restart with this count in flash. -/
def Component.booted (tables : Tables) (flash : Option UInt32) : Component where
  boot := .booted flash
  config := .zero
  transport := none
  transportContext := 0
  markValidTaskHandle := false
  writer := none
  writerContext := 0
  firmware := ⟨.init, .cleared, .cleared⟩
  tables := tables
  asking := ∅

abbrev Routine := Checked Component Call

def modify (f : Component → Component) : Routine Unit := Checked.update fun c => some (f c)

/-! ## The start -/

/-- Install and configure the driver. It is deleted again where a later step fails. -/
def openUart (config : Config) (esp : Answers) : Routine EspErr := do
  Checked.emit (.uartDriverInstall config.uartPort config.rxBufferSize esp.uartDriverInstall)
  if !esp.uartDriverInstall then return esp.uartError
  Checked.emit (.uartParamConfig config.uartPort config.baudRate esp.uartParamConfig)
  if !esp.uartParamConfig then
    Checked.emit (.uartDriverDelete config.uartPort)
    return esp.uartError
  Checked.emit (.uartSetPin config.uartPort config.txIoNum config.rxIoNum config.rtsIoNum
    config.ctsIoNum esp.uartSetPin)
  if !esp.uartSetPin then
    Checked.emit (.uartDriverDelete config.uartPort)
    return esp.uartError
  modify fun c => { c with transport := some .uart, transportContext := config.uartPort }
  return espOk

def openTransport (config : Config) (esp : Answers) : Routine EspErr :=
  match config.transport with
  | none => openUart config esp
  | some address => do
    let transport := (← Checked.get).tables address
    if transport.read.isNone || transport.write.isNone then return espErrInvalidArg
    else return espOk

def protocolSetWriter (write : Option Callback) (context : Context) : Routine Unit :=
  modify fun c => { c with writer := write, writerContext := context }

def runningAppNeedsValidation (esp : Answers) : Routine Bool := do
  Checked.emit (.getStatePartition none esp.statePartition)
  match esp.statePartition with
  | .error _ => return false
  | .ok state => return state == .new || state == .pendingVerify

/-- Create the task that marks the image valid, where it is asked for and needed. -/
def createValidTask (config : Config) (esp : Answers) : Routine Unit := do
  if config.autoMarkAppValid then
    if ← runningAppNeedsValidation esp then
      Checked.emit (.taskCreate .otaLinkValid 3072 1 esp.validTaskCreate)
      if esp.validTaskCreate then modify fun c => { c with markValidTaskHandle := true }

/-- Create the command task, which begins with `protocol_parser_init`. -/
def createTasks (config : Config) (esp : Answers) : Routine EspErr := do
  Checked.emit (.taskCreate .otaLink config.taskStackSize config.taskPriority esp.taskCreate)
  if !esp.taskCreate then
    if config.transport.isNone then Checked.emit (.uartDriverDelete config.uartPort)
    modify fun c => { c with boot.taskHandle := false }
    return espErrNoMem
  modify fun c => { c with boot.taskHandle := true, firmware.parser := .init }
  createValidTask config esp
  return espOk

/-- `none` for a `NULL` configuration. -/
def otaLinkStartWithConfig (config : Option Config) (esp : Answers) : Routine EspErr :=
  match config with
  | none => return espErrInvalidArg
  | some config => do
    if (← Checked.get).boot.taskHandle then return espErrInvalidState
    modify fun c => { c with
      config := config
      transport := config.transport.map .custom
      transportContext := config.transportContext }
    if config.requireAuthentication &&
        (config.authKey.elim true fun key =>
          key.length == 0 || decide (key.length > authKeyMaxSize))
    then return espErrInvalidArg
    let auth ← Checked.access (authConfigure config.authKey config.requireAuthentication)
    modify fun c => { c with
      firmware.device.auth := auth
      boot := Boot.deviceInfoInit esp.toAnswers c.boot }
    let err ← openTransport config esp
    if err ≠ espOk then return err
    let c ← Checked.get
    let transport ← Checked.access c.transport
    protocolSetWriter (transport.write c.tables) c.transportContext
    createTasks config esp

/-- With the default configuration. -/
def otaLinkStart (esp : Answers) : Routine EspErr := otaLinkStartWithConfig (some .default) esp

/-! ## The tasks -/

/-- `protocol_send_packet` after it has filled its buffer. The port of the UART is
`UART_NUM_0`, as `protocol_set_uart_port` is called from here alone. -/
def protocolWrite (octets : List UInt8) : Routine Unit := do
  if (← Checked.get).writer.isNone then protocolSetWriter (some .uart) 0
  let c ← Checked.get
  let write ← Checked.access c.writer
  Checked.emit (.write write c.writerContext octets)

def dispatch : List Event → Routine Unit
  | [] => return ()
  | .write octets :: events => do
    protocolWrite octets
    dispatch events
  | event :: events => do
    Checked.emit (.dispatched event)
    dispatch events

/-- The device starts again. -/
def restart : Routine Unit := do
  Checked.emit .restart
  modify fun c => .booted c.tables c.boot.nvs.stored

/-- An octet for the parser, and the packet it completes for the dispatcher. -/
def receiveByte (byte : UInt8) (esp : EspResults) : Routine Unit := do
  let c ← Checked.get
  let (parser, packet) ← Checked.access (protocolParserFeed c.firmware.parser byte)
  modify fun c => { c with firmware.parser := parser }
  match packet with
  | none => return ()
  | some packet =>
    let (_, device, events) ← Checked.access
      ((commandsHandlePacket esp packet).run c.firmware.device)
    modify fun c => { c with firmware.device := device }
    dispatch events
    if events.any Event.reboots then restart

/-- One turn of the loop: `byte` is none at a timeout or an error of the transport, where the
task only waits. -/
def otaLinkTask (byte : Option UInt8) (esp : EspResults) : Routine Unit := do
  let c ← Checked.get
  let transport ← Checked.access c.transport
  let read ← Checked.access (transport.read c.tables)
  Checked.emit (.read read c.transportContext)
  match byte with
  | none => return ()
  | some byte => receiveByte byte esp

/-- `ota_link_mark_app_valid` as far as its second call of the platform, or what it returns before
it. -/
def otaLinkMarkAppValid (caller : Caller) (state : Except EspFailure ImgState) :
    Routine (Option EspErr) := do
  Checked.emit (.getStatePartition (some caller) state)
  match state with
  | .error err => return some err
  | .ok state =>
    if state ≠ .new ∧ state ≠ .pendingVerify then return some espErrInvalidState
    modify fun c => { c with asking := insert caller c.asking }
    return none

/-- The rest of it. -/
def cancelRollback (caller : Caller) (err : EspErr) : Routine EspErr := do
  Checked.emit (.markAppValidCancelRollback caller err)
  modify fun c => { c with asking := c.asking.erase caller }
  return err

/-- `mark_valid_task` before it calls `ota_link_mark_app_valid`. -/
def markValidTask : Routine Unit := do
  Checked.emit (.taskDelay (← Checked.get).config.autoMarkValidDelayMs)

/-- `mark_valid_task` after that. -/
def markValidTaskEnd : Routine Unit := do
  modify fun c => { c with markValidTaskHandle := false }
  Checked.emit (.taskDelete .otaLinkValid)

/-- None where the platform restarts the device. -/
def otaLinkMarkAppInvalidAndReboot (err : Option EspFailure) : Routine Unit := do
  Checked.emit (.markAppInvalidRollbackAndReboot err)
  if err.isNone then restart

/-! ## Histories -/

/-- What happens to the component. -/
inductive Input
  | start (config : Option Config) (esp : Answers)
  /-- A turn of the command task. -/
  | turn (byte : Option UInt8) (esp : EspResults)
  /-- A task calls `ota_link_mark_app_valid`, and the platform says what the image is. -/
  | ask (caller : Caller) (state : Except EspFailure ImgState)
  /-- It goes on from there. -/
  | mark (caller : Caller) (err : EspErr)
  /-- The application calls `ota_link_mark_app_invalid_and_reboot`. -/
  | markAppInvalid (err : Option EspFailure)
  /-- The application writes a transport to its memory. -/
  | store (address : Address) (transport : CustomTransport)
  /-- NVS writes to flash on its own. -/
  | flush
  | reset

/-- The command task reads from this transport. -/
def Component.inUse (c : Component) (address : Address) : Bool :=
  c.boot.taskHandle && c.transport == some (.custom address)

/-- A task that has not been created takes no turn, and none is at two places at once. The
application leaves the transport as it is from which the command task reads. -/
def routine : Input → Routine Unit
  | .start config esp => do let _ ← otaLinkStartWithConfig config esp
  | .turn byte esp => do if (← Checked.get).boot.taskHandle then otaLinkTask byte esp
  | .ask .otaLinkValid state => do
    let c ← Checked.get
    if c.markValidTaskHandle && decide (.otaLinkValid ∉ c.asking) then
      markValidTask
      let err ← otaLinkMarkAppValid .otaLinkValid state
      if err.isSome then markValidTaskEnd
  | .ask (.application task) state => do
    if .application task ∉ (← Checked.get).asking then
      let _ ← otaLinkMarkAppValid (.application task) state
  | .mark .otaLinkValid err => do
    if .otaLinkValid ∈ (← Checked.get).asking then
      let _ ← cancelRollback .otaLinkValid err
      markValidTaskEnd
  | .mark (.application task) err => do
    if .application task ∈ (← Checked.get).asking then
      let _ ← cancelRollback (.application task) err
  | .markAppInvalid err => otaLinkMarkAppInvalidAndReboot err
  | .store address transport => do
    unless (← Checked.get).inUse address do
      modify fun c => { c with tables := Function.update c.tables address transport }
  | .flush => modify fun c => { c with boot.nvs := c.boot.nvs.commit }
  | .reset => restart

/-- The state and the calls after one input, none where an access faults or an absent
callback is called. -/
def Component.step (c : Component) (x : Input) : Option (Component × List Call) :=
  ((routine x).run c).map Prod.snd

/-! ## What is open -/

/-- The number of drivers installed for a port, after one more call. -/
def drivers (port n : ℤ) : Call → ℤ
  | .uartDriverInstall p _ true => if p = port then n + 1 else n
  | .uartDriverDelete p => if p = port then n - 1 else n
  | .restart => 0
  | _ => n

/-- The number of tasks that exist, after one more call. -/
def tasks (task : Task) (n : ℤ) : Call → ℤ
  | .taskCreate t _ _ true => if t = task then n + 1 else n
  | .taskDelete t => if t = task then n - 1 else n
  | .restart => 0
  | _ => n

/-- What the component does as the firmware does it. -/
def Call.event? : Call → Option Event
  | .write _ _ octets => some (.write octets)
  | .dispatched event => some event
  | _ => none

/-- The call marks the running image valid. -/
def Call.marks : Call → Bool
  | .markAppValidCancelRollback _ _ => true
  | _ => false

/-- The call is one of `ota_link_mark_app_valid` for this caller, or ends all calls. -/
def Call.concerns (caller : Caller) : Call → Bool
  | .getStatePartition caller' _ => caller' = some caller
  | .markAppValidCancelRollback caller' _ => caller' = caller
  | .restart => true
  | _ => false

/-- What the calls of a start add to the drivers and the tasks. The firmware does none of them,
and none is one of `ota_link_mark_app_valid`. -/
structure Adds (calls : List Call) (d : ℤ → ℤ) (t : Task → ℤ) : Prop where
  drivers : ∀ port n, calls.foldl (drivers port) n = n + d port
  tasks : ∀ task n, calls.foldl (tasks task) n = n + t task
  silent : calls.filterMap Call.event? = []
  unconcerned : ∀ caller, calls.filter (Call.concerns caller) = []

theorem Adds.nil : Adds [] 0 0 := ⟨fun _ _ => by simp, fun _ _ => by simp, rfl, fun _ => rfl⟩

theorem Adds.append {calls calls' : List Call} {d d' : ℤ → ℤ} {t t' : Task → ℤ}
    (h : Adds calls d t) (h' : Adds calls' d' t') : Adds (calls ++ calls') (d + d') (t + t') := by
  constructor
  · intro port n
    rw [List.foldl_append, h.drivers, h'.drivers, Pi.add_apply]
    omega
  · intro task n
    rw [List.foldl_append, h.tasks, h'.tasks, Pi.add_apply]
    omega
  · rw [List.filterMap_append, h.silent, h'.silent, List.append_nil]
  · intro caller
    rw [List.filter_append, h.unconcerned, h'.unconcerned, List.append_nil]

/-- One more driver for the port, where the UART is used. -/
def Config.driver (config : Config) (port : ℤ) : ℤ :=
  if config.transport = none ∧ port = config.uartPort then 1 else 0

/-! ## What a start does -/

section Helpers
variable (config : Config) (esp : Answers)

/-- What `s_config.transport` and its context are once the transport is open. -/
def Config.opened (config : Config) : Transport × Context :=
  match config.transport with
  | none => (.uart, config.uartPort)
  | some address => (.custom address, config.transportContext)

/-- The steps that open the transport succeed. -/
def opens (tables : Tables) (config : Config) (esp : Answers) : Bool :=
  match config.transport with
  | none => esp.uartDriverInstall && esp.uartParamConfig && esp.uartSetPin
  | some address => (tables address).read.isSome && (tables address).write.isSome

@[simp] theorem run_modify_bind {α : Type} (f : Component → Component) (g : Unit → Routine α)
    (c : Component) : (modify f >>= g).run c = (g ()).run (f c) := by
  simp [modify]

@[simp] theorem run_modify (f : Component → Component) (c : Component) :
    (modify f).run c = some ((), f c, []) := rfl

/-- **Opening the transport** succeeds, or leaves no driver behind. -/
theorem openTransport_cases {c : Component} (ht : c.transport = config.transport.map .custom)
    (hx : c.transportContext = config.transportContext) :
    (opens c.tables config esp = true ∧ ∃ r w calls, config.opened.1.read c.tables = some r ∧
      config.opened.1.write c.tables = some w ∧ (openTransport config esp).run c =
        some (espOk, { c with
          transport := some config.opened.1
          transportContext := config.opened.2 }, calls) ∧ Adds calls config.driver 0) ∨
    (opens c.tables config esp = false ∧ ∃ err calls, err ≠ espOk ∧
      (openTransport config esp).run c = some (err, c, calls) ∧ Adds calls 0 0) := by
  rw [openTransport, opens, Config.opened]
  cases htr : config.transport with
  | none =>
    -- One call of the driver after another, until one fails.
    have hdriver : config.driver = fun port => if port = config.uartPort then 1 else 0 := by
      funext port
      simp [Config.driver, htr]
    simp only [openUart, Checked.run_bind]
    cases hi : esp.uartDriverInstall
    · refine .inr ⟨rfl, _, _, esp.uartError.2, rfl, ?_⟩
      exact ⟨fun port n => by simp [drivers], fun task n => by simp [tasks], rfl, fun _ => rfl⟩
    cases hp : esp.uartParamConfig
    · refine .inr ⟨rfl, _, _, esp.uartError.2, rfl, ?_⟩
      refine ⟨fun port n => ?_, fun task n => by simp [tasks], rfl, fun _ => rfl⟩
      simp only [List.cons_append, List.nil_append, List.foldl_cons, List.foldl_nil, drivers]
      split <;> simp
    cases hs : esp.uartSetPin
    · refine .inr ⟨rfl, _, _, esp.uartError.2, rfl, ?_⟩
      refine ⟨fun port n => ?_, fun task n => by simp [tasks], rfl, fun _ => rfl⟩
      simp only [List.cons_append, List.nil_append, List.foldl_cons, List.foldl_nil, drivers]
      split <;> simp
    · refine .inl ⟨rfl, .uart, .uart, _, rfl, rfl, rfl, ?_⟩
      rw [hdriver]
      refine ⟨fun port n => ?_, fun task n => by simp [tasks], rfl, fun _ => rfl⟩
      simp only [List.cons_append, List.nil_append, List.foldl_cons, List.foldl_nil, drivers,
        eq_comm (a := port)]
      split <;> simp
  | some address =>
    rw [htr] at ht
    have hdriver : config.driver = 0 := by
      funext port
      simp [Config.driver, htr]
    simp only [Checked.run_get_bind, Transport.read, Transport.write]
    cases hr : (c.tables address).read with
    | none => exact .inr ⟨rfl, _, _, by decide, rfl, .nil⟩
    | some r =>
      cases hw : (c.tables address).write with
      | none => exact .inr ⟨rfl, _, _, by decide, rfl, .nil⟩
      | some w =>
        refine .inl ⟨rfl, .custom r, .custom w, [], rfl, rfl, ?_, hdriver ▸ .nil⟩
        have hc : { c with
            transport := some (.custom address)
            transportContext := config.transportContext } = c := by
          rw [← hx, ← show c.transport = some (.custom address) from ht]
        exact congrArg (fun c => some (espOk, c, [])) hc.symm

theorem runningAppNeedsValidation_run (c : Component) : ∃ needed,
    (runningAppNeedsValidation esp).run c =
      some (needed, c, [.getStatePartition none esp.statePartition]) := by
  rw [runningAppNeedsValidation]
  cases esp.statePartition with
  | error err => exact ⟨_, rfl⟩
  | ok state => exact ⟨_, rfl⟩

theorem createValidTask_cases {c : Component} (hm : c.markValidTaskHandle = false) :
    ∃ valid calls, (valid = true → config.autoMarkAppValid = true) ∧
      (createValidTask config esp).run c =
        some ((), { c with markValidTaskHandle := valid }, calls) ∧
      Adds calls 0 fun task => if valid ∧ task = .otaLinkValid then 1 else 0 := by
  have hsame : { c with markValidTaskHandle := false } = c := by rw [← hm]
  rw [createValidTask]
  cases config.autoMarkAppValid with
  | false => exact ⟨false, [], nofun, congrArg (fun c => some ((), c, [])) hsame.symm, .nil⟩
  | true =>
    obtain ⟨needed, hneeded⟩ := runningAppNeedsValidation_run esp c
    rw [if_pos rfl, Checked.run_bind_of_eq hneeded]
    cases needed with
    | false =>
      refine ⟨false, _, nofun, congrArg (fun c => some ((), c, _)) hsame.symm, ?_⟩
      exact ⟨fun _ _ => by simp [drivers], fun _ _ => by simp [tasks], rfl, fun _ => rfl⟩
    | true =>
      cases esp.validTaskCreate with
      | false =>
        refine ⟨false, _, nofun, congrArg (fun c => some ((), c, _)) hsame.symm, ?_⟩
        exact ⟨fun _ _ => by simp [drivers], fun _ _ => by simp [tasks], rfl, fun _ => rfl⟩
      | true =>
        refine ⟨true, _, fun _ => rfl, rfl, fun _ _ => by simp [drivers], fun task n => ?_, rfl,
          fun _ => rfl⟩
        cases task <;> simp [tasks]

/-- The tasks of a start; `valid` says whether there is one that marks the image valid. -/
def started (valid : Bool) : Task → ℤ
  | .otaLink => 1
  | .otaLinkValid => if valid then 1 else 0

/-- **Creating the tasks** succeeds, or deletes the driver of the UART. -/
theorem createTasks_cases {c : Component} (hm : c.markValidTaskHandle = false) :
    (esp.taskCreate = false ∧ ∃ calls, (createTasks config esp).run c =
        some (espErrNoMem, { c with boot.taskHandle := false }, calls) ∧
      Adds calls (-config.driver) 0) ∨
    (esp.taskCreate = true ∧ ∃ valid calls, (valid = true → config.autoMarkAppValid = true) ∧
      (createTasks config esp).run c = some (espOk, { c with
        boot.taskHandle := true
        firmware.parser := .init
        markValidTaskHandle := valid }, calls) ∧ Adds calls 0 (started valid)) := by
  cases hc : esp.taskCreate with
  | false =>
    cases ht : config.transport with
    | none =>
      refine .inl ⟨rfl, _, by simp [createTasks, hc, ht]; rfl, fun port n => ?_, fun task n => ?_,
        rfl, fun _ => rfl⟩
      · simp only [List.foldl_cons, List.foldl_nil, drivers, Pi.neg_apply, Config.driver, ht,
          true_and, eq_comm (a := port)]
        split <;> omega
      · simp [tasks]
    | some transport =>
      refine .inl ⟨rfl, _, by simp [createTasks, hc, ht]; rfl, fun port n => ?_, fun task n => ?_,
        rfl, fun _ => rfl⟩
      · simp [drivers, Config.driver, ht]
      · simp [tasks]
  | true =>
    obtain ⟨valid, calls, hvalid, hrun, hadds⟩ := createValidTask_cases config esp
      (c := { c with boot.taskHandle := true, firmware.parser := .init }) hm
    have hfirst : Adds [.taskCreate .otaLink config.taskStackSize config.taskPriority true] 0
        (started false) :=
      ⟨fun _ _ => by simp [drivers], fun task n => by cases task <;> simp [tasks, started], rfl,
        fun _ => rfl⟩
    have hboth : started false + (fun task => if valid ∧ task = .otaLinkValid then 1 else 0) =
        started valid := by
      funext task
      cases task <;> simp [started]
    refine .inr ⟨rfl, valid, _, hvalid, ?_, hboth ▸ (hfirst.append hadds)⟩
    rw [createTasks]
    simp [hc, Checked.run_bind_of_eq hrun]

end Helpers

/-- The configuration as the boot counter sees it. -/
def Config.boot (tables : Tables) (config : Config) : Boot.LinkConfig where
  toOtaLinkConfig := config.toOtaLinkConfig
  transport := config.transport.map fun address =>
    ⟨(tables address).read.isSome, (tables address).write.isSome⟩

/-- All that a start can do. -/
inductive Started (c : Component) : Option Config → EspErr → Component → List Call → Prop
  | refused {config : Option Config} {err : EspErr} (hne : err ≠ espOk)
      (h : config = none ∨ c.boot.taskHandle = true) : Started c config err c []
  | failed {config : Config} {err : EspErr} {c' : Component} {calls : List Call}
      (hne : err ≠ espOk) (hc : c.boot.taskHandle = false) (hc' : c'.boot.taskHandle = false)
      (ho : c'.firmware.device.ota = c.firmware.device.ota)
      (hm : c'.markValidTaskHandle = c.markValidTaskHandle) (ht : c'.tables = c.tables)
      (hask : c'.asking = c.asking) (hadds : Adds calls 0 0) :
      Started c (some config) err c' calls
  | started {config : Config} {boot : Boot.State} {auth : AuthState} {r w : Callback}
      {valid : Bool} {calls : List Call} (hc : c.boot.taskHandle = false)
      (hb : boot.taskHandle = true)
      (hk : (OtaLink.otaLinkStartWithConfig config.toOtaLinkConfig).isSome = true)
      (ha : authConfigure config.authKey config.requireAuthentication = some auth)
      (hr : config.opened.1.read c.tables = some r) (hw : config.opened.1.write c.tables = some w)
      (hv : valid = true → config.autoMarkAppValid = true)
      (hadds : Adds calls config.driver (started valid)) :
      Started c (some config) espOk { c with
        boot := boot
        config := config
        transport := some config.opened.1
        transportContext := config.opened.2
        markValidTaskHandle := valid
        writer := some w
        writerContext := config.opened.2
        firmware := ⟨.init, auth, c.firmware.device.ota⟩ } calls

@[simp] theorem taskHandle_deviceInfoInit (esp : Boot.Answers) (b : Boot.State) :
    (Boot.deviceInfoInit esp b).taskHandle = b.taskHandle := by
  unfold Boot.deviceInfoInit
  split_ifs
  · rfl
  · rfl
  all_goals cases esp.nvsSet <;> rfl

/-- What a start leaves of the count and the handle of the task. -/
theorem boot_start {tables : Tables} {config : Config} {esp : Answers} {b : Boot.State}
    (hb : b.taskHandle = false)
    (hk : (OtaLink.otaLinkStartWithConfig config.toOtaLinkConfig).isSome = true) :
    (Boot.otaLinkStartWithConfig (some (config.boot tables)) esp.toAnswers b).2 =
      if opens tables config esp then
        (Boot.createTask esp.toAnswers (Boot.deviceInfoInit esp.toAnswers b)).2
      else Boot.deviceInfoInit esp.toAnswers b := by
  have hnone : (OtaLink.otaLinkStartWithConfig config.toOtaLinkConfig).isNone = false := by
    simpa using hk
  cases htr : config.transport with
  | none =>
    have hboot : (config.boot tables).transport = none := by simp [Config.boot, htr]
    simp only [Boot.otaLinkStartWithConfig, hb, hnone, opens, htr, hboot, Bool.false_eq_true,
      if_false, show (config.boot tables).toOtaLinkConfig = config.toOtaLinkConfig from rfl]
    cases esp.uartDriverInstall <;> cases esp.uartParamConfig <;> cases esp.uartSetPin <;> rfl
  | some address =>
    have hboot : (config.boot tables).transport =
        some ⟨(tables address).read.isSome, (tables address).write.isSome⟩ := by
      simp [Config.boot, htr]
    simp only [Boot.otaLinkStartWithConfig, hb, hnone, opens, htr, hboot, Bool.false_eq_true,
      if_false, show (config.boot tables).toOtaLinkConfig = config.toOtaLinkConfig from rfl]
    cases (tables address).read <;> cases (tables address).write <;> rfl

/-- **A start** does all that it does without a fault, and counts the boot as `Boot` says. -/
theorem start_cases {c : Component}
    (hm : c.boot.taskHandle = false → c.markValidTaskHandle = false) (config : Option Config)
    (esp : Answers) : ∃ err c' calls,
      (otaLinkStartWithConfig config esp).run c = some (err, c', calls) ∧
      Started c config err c' calls ∧
      c'.boot = (Boot.otaLinkStartWithConfig (config.map (Config.boot c.tables)) esp.toAnswers
        c.boot).2 := by
  cases config with
  | none => exact ⟨_, c, [], rfl, .refused (by decide) (.inl rfl), rfl⟩
  | some config =>
    cases hc : c.boot.taskHandle with
    | true =>
      refine ⟨espErrInvalidState, c, [], ?_, .refused (by decide) (.inr hc), ?_⟩
      · simp [otaLinkStartWithConfig, hc]
      · simp [Boot.otaLinkStartWithConfig, hc]
    | false =>
      have hm := hm hc
      simp only [otaLinkStartWithConfig, Checked.run_get_bind, hc, Bool.false_eq_true, if_false,
        run_modify_bind]
      by_cases hkey : (config.requireAuthentication &&
          (config.authKey.elim true fun key =>
            key.length == 0 || decide (key.length > authKeyMaxSize))) = true
      · -- The key is refused.
        have hnone : OtaLink.otaLinkStartWithConfig config.toOtaLinkConfig = none := if_pos hkey
        rw [if_pos hkey]
        refine ⟨_, _, [], rfl, .failed (by decide) hc hc rfl rfl rfl rfl .nil, ?_⟩
        simp [Boot.otaLinkStartWithConfig, hc, Config.boot, hnone]
      · have hk : (OtaLink.otaLinkStartWithConfig config.toOtaLinkConfig).isSome = true := by
          rw [OtaLink.otaLinkStartWithConfig, if_neg hkey]
          rfl
        obtain ⟨auth, ha, -⟩ := authConfigure_spec config.authKey config.requireAuthentication
        rw [if_neg hkey, Option.map_some, boot_start hc hk]
        simp only [ha, Checked.run_access_bind, Option.bind_some, run_modify_bind]
        generalize hs : Boot.deviceInfoInit esp.toAnswers c.boot = s
        let c₂ : Component := { c with
          boot := s
          config := config
          transport := config.transport.map .custom
          transportContext := config.transportContext
          firmware.device.auth := auth }
        have hst : s.taskHandle = false := by rw [← hs, taskHandle_deviceInfoInit, hc]
        rcases @openTransport_cases config esp c₂ rfl rfl with
          ⟨ho, r, w, calls, hr, hw, hrun, hadds⟩ | ⟨ho, err, calls, hne, hrun, hadds⟩
        · -- The transport is open.
          rw [if_pos ho, Checked.run_bind_of_eq hrun, if_neg (by simp)]
          simp only [Checked.run_get_bind, Checked.run_access_bind, Option.bind_some, hw,
            protocolSetWriter, run_modify_bind]
          rcases @createTasks_cases config esp { c₂ with
              transport := some config.opened.1
              transportContext := config.opened.2
              writer := some w
              writerContext := config.opened.2 } hm with
            ⟨ht, calls', hrun', hadds'⟩ | ⟨ht, valid, calls', hv, hrun', hadds'⟩
          · refine ⟨espErrNoMem, _, calls ++ calls', congrArg (Option.map _) hrun',
              .failed (by decide) hc rfl rfl rfl rfl rfl (by simpa using hadds.append hadds'), ?_⟩
            simp only [Boot.createTask, ht, Bool.false_eq_true, if_false]
            rw [← hst]
          · refine ⟨espOk, _, calls ++ calls', congrArg (Option.map _) hrun',
              .started hc rfl hk ha hr hw hv (by simpa using hadds.append hadds'), ?_⟩
            simp only [Boot.createTask, ht, if_true]
            rfl
        · -- No transport.
          refine ⟨err, c₂, calls, ?_, .failed hne hc hst rfl rfl rfl rfl hadds, ?_⟩
          · rw [Checked.run_bind_of_eq hrun, if_pos hne]
            simp
          · rw [if_neg (ne_true_of_eq_false ho)]


/-! ## What a turn does -/

/-- Reading and writing go to one transport. -/
structure Wired (c : Component) (r w : Callback) : Prop where
  transport : ∃ t, c.transport = some t ∧ t.read c.tables = some r ∧ t.write c.tables = some w
  writer : c.writer = some w
  context : c.writerContext = c.transportContext

theorem Wired.of_eq {c c' : Component} {r w : Callback} (h : Wired c r w)
    (ht : c'.transport = c.transport) (htables : c'.tables = c.tables)
    (hx : c'.transportContext = c.transportContext) (hw : c'.writer = c.writer)
    (hwx : c'.writerContext = c.writerContext) : Wired c' r w :=
  ⟨ht ▸ htables ▸ h.transport, hw.trans h.writer, hwx.trans (h.context.trans hx.symm)⟩

/-- A transport that is not in use may change. -/
theorem Wired.store {c : Component} {r w : Callback} (h : Wired c r w) {address : Address}
    (hne : c.transport ≠ some (.custom address)) (transport : CustomTransport) :
    Wired { c with tables := Function.update c.tables address transport } r w := by
  obtain ⟨t, ht, hr, hw⟩ := h.transport
  refine ⟨⟨t, ht, ?_⟩, h.writer, h.context⟩
  cases t with
  | uart => exact ⟨hr, hw⟩
  | custom address' =>
    have hother : address' ≠ address := fun heq => hne (heq ▸ ht)
    simp only [Transport.read, Transport.write, Function.update_of_ne hother]
    exact ⟨hr, hw⟩

/-- An event of the dispatcher as a call of the component. -/
def shown (write : Callback) (context : Context) : Event → Call
  | .write octets => .write write context octets
  | event => .dispatched event

section Turn
variable {c : Component} {r w : Callback}

theorem run_dispatch (hw : c.writer = some w) (events : List Event) :
    (dispatch events).run c = some ((), c, events.map (shown w c.writerContext)) := by
  induction events with
  | nil => rfl
  | cons event events ih =>
    cases event with
    | write octets =>
      have hwrite : (protocolWrite octets).run c =
          some ((), c, [.write w c.writerContext octets]) := by
        simp [protocolWrite, hw]
      rw [dispatch, Checked.run_bind_of_eq hwrite, ih]
      rfl
    | macFailed => simp [dispatch, ih, shown]
    | call event => simp [dispatch, ih, shown]

/-- An octet is a step of the firmware, or ends in a restart. -/
theorem receiveByte_spec (hw : c.writer = some w) {byte : UInt8} {esp : EspResults} {f : Firmware}
    {events : List Event} (hf : c.firmware.step c.config.toOtaLinkConfig (.octet byte esp) =
      some (f, events)) :
    ∃ c' restarts, (receiveByte byte esp).run c =
        some ((), c', events.map (shown w c.writerContext) ++ restarts) ∧
      (events.any Event.reboots = false ∧ restarts = [] ∧ c' = { c with firmware := f } ∨
        events.any Event.reboots = true ∧ restarts = [.restart] ∧
        c' = .booted c.tables c.boot.nvs.stored) := by
  cases hfeed : protocolParserFeed c.firmware.parser byte with
  | none => simp [Firmware.step, hfeed] at hf
  | some fed =>
    obtain ⟨parser, packet⟩ := fed
    simp only [Firmware.step, hfeed, Option.bind_eq_bind, Option.bind_some, Option.pure_def] at hf
    simp only [receiveByte, Checked.run_get_bind, hfeed, Checked.run_access_bind,
      Option.bind_some, run_modify_bind]
    cases packet with
    | none =>
      obtain ⟨rfl, rfl⟩ := Prod.mk.inj (Option.some.inj hf)
      exact ⟨_, [], rfl, .inl ⟨rfl, rfl, rfl⟩⟩
    | some packet =>
      cases hrun : (commandsHandlePacket esp packet).run c.firmware.device with
      | none => simp [Device.step, hrun] at hf
      | some handled =>
        obtain ⟨⟨⟩, device, events'⟩ := handled
        simp only [Checked.run_access_bind, hrun, Option.bind_some, run_modify_bind]
        rw [Checked.run_bind_of_eq (run_dispatch (by exact hw) events')]
        cases hb : events'.any Event.reboots with
        | false =>
          simp only [Device.step, hrun, hb, Option.bind_eq_bind, Option.bind_some, Option.pure_def,
            Bool.false_eq_true, if_false] at hf
          obtain ⟨rfl, rfl⟩ := Prod.mk.inj (Option.some.inj hf)
          exact ⟨_, [], rfl, .inl ⟨hb, rfl, rfl⟩⟩
        | true =>
          simp only [Device.step, hrun, hb, Option.bind_eq_bind, Option.bind_some, Option.pure_def,
            if_true] at hf
          cases hstart : Mem.otaLinkStart c.config.toOtaLinkConfig with
          | none => simp [hstart] at hf
          | some m =>
            simp only [hstart, Option.bind_some] at hf
            obtain ⟨-, rfl⟩ := Prod.mk.inj (Option.some.inj hf)
            exact ⟨_, [.restart], rfl, .inr ⟨hb, rfl, rfl⟩⟩

/-- **A turn** reads from the transport, and an octet is a step of the firmware. -/
theorem run_otaLinkTask (h : Wired c r w) (byte : Option UInt8) (esp : EspResults) :
    (otaLinkTask byte esp).run c =
      ((byte.elim (pure ()) fun byte => receiveByte byte esp : Routine Unit).run c).map fun y =>
        (y.1, y.2.1, .read r c.transportContext :: y.2.2) := by
  obtain ⟨t, ht, hread, -⟩ := h.transport
  simp only [otaLinkTask, Checked.run_get_bind]
  rw [ht]
  simp only [Checked.run_access_bind, Option.bind_some, hread, Checked.run_emit_bind]
  cases byte <;> rfl

end Turn

end OtaLink.Mem.Start
