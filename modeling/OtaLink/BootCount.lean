import OtaLink.Device
import OtaLink.Octets

/-!
# The boot counter

`device_info_init` counts the boot in NVS. It runs in the middle of
`ota_link_start_with_config`, before the steps that can still fail, so a start that is tried
again counts once more; and a count that cannot be read is taken for 0.

The store has two levels, what a reader sees and what is in flash. They differ between
`nvs_set_u32` and `nvs_commit`, and NVS may write to flash at other times too.

## Main definitions

* `Boot.deviceInfoInit`, `Boot.otaLinkStartWithConfig` — the functions.
* `Boot.State.Counts`, `Boot.Allowed` — the calls that count, and when they may.
* `Boot.Moment` — what is reached when every call is allowed.
* `Boot.boot_count` — then a boot counts once, and the count goes back nowhere.
-/

namespace OtaLink.Boot

/-! ## The platform -/

/-- What `nvs_flash_init` returns. -/
inductive FlashInit
  | ok
  /-- `ESP_ERR_NVS_NO_FREE_PAGES` or `ESP_ERR_NVS_NEW_VERSION_FOUND`. -/
  | maintenance
  | failed
  deriving DecidableEq, Repr

/-- What `nvs_get_u32` returns. -/
inductive Get
  | ok (value : UInt32)
  /-- `ESP_ERR_NVS_NOT_FOUND`. -/
  | notFound
  | failed
  deriving DecidableEq, Repr

/-- What `nvs_set_u32` returns. -/
inductive SetResult
  | ok
  /-- `ESP_ERR_NVS_REMOVE_FAILED`: the value has been written all the same. -/
  | removeFailed
  | failed
  deriving DecidableEq, Repr

/-- What the platform answers during one start. Of the calls that only succeed or fail it
says whether they return `ESP_OK`. -/
structure Answers where
  flashInit : FlashInit
  nvsOpen : Bool
  /-- Off where the read fails for another reason than that there is no count. -/
  nvsGet : Bool
  nvsSet : SetResult
  nvsCommit : Bool
  uartDriverInstall : Bool
  uartParamConfig : Bool
  uartSetPin : Bool
  /-- `xTaskCreate` of the command task. -/
  taskCreate : Bool
  deriving DecidableEq, Repr

/-- Every call succeeds. -/
def Answers.succeeding : Answers where
  flashInit := .ok
  nvsOpen := true
  nvsGet := true
  nvsSet := .ok
  nvsCommit := true
  uartDriverInstall := true
  uartParamConfig := true
  uartSetPin := true
  taskCreate := true

/-- The count in NVS. -/
structure Nvs where
  /-- What is in flash. -/
  stored : Option UInt32
  /-- What a reader sees. -/
  visible : Option UInt32
  deriving DecidableEq, Repr

def Nvs.getU32 (nvs : Nvs) (ok : Bool) : Get :=
  if ok then nvs.visible.elim .notFound .ok else .failed

/-- What is visible goes to flash. -/
def Nvs.commit (nvs : Nvs) : Nvs := { nvs with stored := nvs.visible }

/-- The statics, and the store. -/
structure State where
  nvs : Nvs
  /-- `s_task_handle` is not `NULL`. -/
  taskHandle : Bool
  /-- `s_boot_count`. -/
  bootCount : UInt32
  deriving DecidableEq, Repr

/-- The state after a restart with this count in flash. -/
def State.booted (flash : Option UInt32) : State := ⟨⟨flash, flash⟩, false, 0⟩

/-! ## The functions -/

def deviceInfoInit (esp : Answers) (s : State) : State :=
  if esp.flashInit ≠ .ok then s
  else if !esp.nvsOpen then s
  else
    let bootCount := match s.nvs.getU32 esp.nvsGet with
      | .ok value => value
      -- The variable keeps its 0, also where the read has failed.
      | .notFound | .failed => 0
    let s := { s with bootCount := bootCount + 1 }
    let set := { s.nvs with visible := some (bootCount + 1) }
    match esp.nvsSet with
    | .ok => { s with nvs := if esp.nvsCommit then set.commit else set }
    | .removeFailed => { s with nvs := set }
    | .failed => s

/-- `ota_link_transport_t`: which of its functions are there. -/
structure Transport where
  read : Bool
  write : Bool
  deriving DecidableEq, Repr

/-- The fields of `ota_link_config_t` that decide how far a start comes. -/
structure LinkConfig extends OtaLinkConfig UInt8 where
  /-- `none` for the UART. -/
  transport : Option Transport

inductive EspErr
  | ok | invalidArg | invalidState | noMem
  /-- An error of the UART driver. -/
  | uart
  deriving DecidableEq, Repr

/-- The end of the start, once there is a transport. -/
def createTask (esp : Answers) (s : State) : EspErr × State :=
  if esp.taskCreate then (.ok, { s with taskHandle := true }) else (.noMem, s)

/-- `none` for a `NULL` configuration. -/
def otaLinkStartWithConfig (config : Option LinkConfig) (esp : Answers) (s : State) :
    EspErr × State :=
  match config with
  | none => (.invalidArg, s)
  | some config =>
    if s.taskHandle then (.invalidState, s)
    else if (OtaLink.otaLinkStartWithConfig config.toOtaLinkConfig).isNone then (.invalidArg, s)
    else
      let s := deviceInfoInit esp s
      match config.transport with
      | none =>
        if !esp.uartDriverInstall then (.uart, s)
        else if !esp.uartParamConfig then (.uart, s)
        else if !esp.uartSetPin then (.uart, s)
        else createTask esp s
      | some transport =>
        if !transport.read || !transport.write then (.invalidArg, s) else createTask esp s

/-! ## Histories -/

inductive Event
  | start (config : Option LinkConfig) (esp : Answers)
  /-- NVS writes to flash on its own. -/
  | flush
  | restart

def State.after (s : State) : Event → State
  | .start config esp => (otaLinkStartWithConfig config esp s).2
  | .flush => { s with nvs := s.nvs.commit }
  | .restart => .booted s.nvs.stored

def State.run (s : State) (events : List Event) : State := events.foldl State.after s

/-- The persisted count; 0 where there is none. -/
def State.persisted (s : State) : UInt32 := s.nvs.stored.getD 0

/-- The count a start reads. -/
def State.visible (s : State) : UInt32 := s.nvs.visible.getD 0

/-- The call is a start that gets a count into NVS. -/
def State.counts (s : State) : Event → Bool
  | .start (some config) esp => !s.taskHandle &&
      (OtaLink.otaLinkStartWithConfig config.toOtaLinkConfig).isSome &&
      esp.flashInit == .ok && esp.nvsOpen && esp.nvsSet != .failed
  | _ => false

/-- The read of a start succeeds, or there is nothing to lose. -/
def State.Reads (s : State) : Event → Prop
  | .start _ esp => esp.nvsGet = true ∨ s.visible ≤ 1
  | _ => True

/-- A call that counts is the first of its boot, and reads the count it goes on from. -/
def Allowed (counted : Bool) (s : State) (e : Event) : Prop :=
  s.counts e = true → counted = false ∧ s.Reads e

/-- A history whose calls are all allowed: the count in flash when the boot began, whether
the boot has been counted, and the state. -/
inductive Moment : UInt32 → Bool → State → Prop
  | begin (flash : Option UInt32) : Moment (flash.getD 0) false (.booted flash)
  | call {b : UInt32} {counted : Bool} {s : State} (h : Moment b counted s) (e : Event)
      (hne : e ≠ .restart) (ha : Allowed counted s e) : Moment b (counted || s.counts e) (s.after e)
  | restart {b : UInt32} {counted : Bool} {s : State} (h : Moment b counted s) :
      Moment s.persisted false (s.after .restart)

/-! ## What a call does -/

section After
variable {s : State} {config : Option LinkConfig} {esp : Answers}

@[simp] theorem nvs_createTask : (createTask esp s).2.nvs = s.nvs := by
  rw [createTask]
  split <;> rfl

/-- A start that passes the argument checks leaves NVS as `device_info_init` does. -/
theorem nvs_start {config : LinkConfig} (hs : s.taskHandle = false)
    (hk : (OtaLink.otaLinkStartWithConfig config.toOtaLinkConfig).isSome = true) :
    (otaLinkStartWithConfig (some config) esp s).2.nvs = (deviceInfoInit esp s).nvs := by
  rw [Option.isSome_iff_ne_none] at hk
  simp only [otaLinkStartWithConfig, hs, Bool.false_eq_true, if_false, Option.isNone_iff_eq_none,
    if_neg hk]
  split <;> split_ifs <;> simp

/-- A call that does not count leaves NVS alone. -/
theorem nvs_start_of_not_counts (h : s.counts (.start config esp) = false) :
    (s.after (.start config esp)).nvs = s.nvs := by
  rcases config with _ | config
  · rfl
  change (otaLinkStartWithConfig (some config) esp s).2.nvs = s.nvs
  cases hs : s.taskHandle
  swap
  · simp [otaLinkStartWithConfig, hs]
  cases hk : (OtaLink.otaLinkStartWithConfig config.toOtaLinkConfig).isSome
  · have hnone : (OtaLink.otaLinkStartWithConfig config.toOtaLinkConfig).isNone = true := by
      simpa using hk
    simp [otaLinkStartWithConfig, hs, hnone]
  rw [nvs_start hs hk, deviceInfoInit]
  by_cases hflash : esp.flashInit = .ok
  swap
  · rw [if_pos hflash]
  cases hopen : esp.nvsOpen
  · simp [hflash]
  · have hset : esp.nvsSet = .failed := by
      simpa [State.counts, hs, hk, hflash, hopen] using h
    simp [hflash, hset]

/-- The count that a start writes. -/
def State.next (s : State) (esp : Answers) : UInt32 := (if esp.nvsGet then s.visible else 0) + 1

/-- A call that counts makes the next count visible, and leaves flash behind or takes it along. -/
theorem nvs_start_of_counts (h : s.counts (.start config esp) = true) :
    (s.after (.start config esp)).visible = s.next esp ∧
      ((s.after (.start config esp)).persisted = s.persisted ∨
        (s.after (.start config esp)).persisted = s.next esp) := by
  rcases config with _ | config
  · cases h
  simp only [State.counts, Bool.and_eq_true, Bool.not_eq_true', beq_iff_eq, bne_iff_ne] at h
  obtain ⟨⟨⟨⟨hs, hk⟩, hflash⟩, hopen⟩, hset⟩ := h
  have hread : (match s.nvs.getU32 esp.nvsGet with
      | .ok value => value
      | .notFound | .failed => 0) + 1 = s.next esp := by
    rw [State.next, Nvs.getU32, State.visible]
    cases esp.nvsGet <;> cases s.nvs.visible <;> rfl
  have hnvs := @nvs_start s esp config hs hk
  rw [deviceInfoInit, if_neg (by simpa using hflash), if_neg (by simp [hopen])] at hnvs
  simp only [hread] at hnvs
  rw [State.visible, State.persisted, State.persisted, State.after, hnvs]
  cases hset' : esp.nvsSet with
  | failed => exact absurd hset' hset
  | removeFailed => exact ⟨rfl, .inl rfl⟩
  | ok =>
    cases esp.nvsCommit
    · exact ⟨rfl, .inl rfl⟩
    · exact ⟨rfl, .inr rfl⟩

/-- Once the task runs no call touches the count that is reported. -/
theorem reported_after {e : Event} (hs : s.taskHandle = true) (hne : e ≠ .restart) :
    (s.after e).taskHandle = true ∧ (s.after e).bootCount = s.bootCount := by
  cases e with
  | restart => exact absurd rfl hne
  | flush => exact ⟨hs, rfl⟩
  | start config esp =>
    rcases config with _ | config
    · exact ⟨hs, rfl⟩
    · simp [State.after, otaLinkStartWithConfig, hs]

end After

/-! ## Whole histories -/

/-- What a reader sees is the count of the last boot or of this one, and flash holds either
the last boot's or what a reader sees. -/
structure Holds (b : UInt32) (counted : Bool) (s : State) : Prop where
  visible : s.visible = b ∨ counted = true ∧ s.visible = b + 1
  persisted : s.persisted = b ∨ s.persisted = s.visible

/-- A call that is allowed goes on by one at most. -/
theorem Holds.next {b : UInt32} {s : State} (h : Holds b false s) {config : Option LinkConfig}
    {esp : Answers} (hread : s.Reads (.start config esp)) :
    s.next esp = b ∨ s.next esp = b + 1 := by
  have hvisible : s.visible = b := h.visible.resolve_right fun h => Bool.false_ne_true h.1
  rw [State.next]
  cases hget : esp.nvsGet with
  | true => exact .inr (by rw [if_pos rfl, hvisible])
  | false =>
    have hsmall : s.visible ≤ 1 := hread.resolve_left (by simp [hget])
    rw [hvisible, UInt32.le_iff_toNat_le] at hsmall
    have hb : b = 0 ∨ b = 1 := by
      rw [← UInt32.toNat_inj, ← UInt32.toNat_inj]
      simp only [UInt32.reduceToNat] at hsmall ⊢
      omega
    rcases hb with rfl | rfl
    · exact .inr rfl
    · exact .inl rfl

/-- What an allowed call does in such a state. -/
theorem Holds.call {b : UInt32} {counted : Bool} {s : State} (h : Holds b counted s) {e : Event}
    (hne : e ≠ .restart) (ha : Allowed counted s e) :
    Holds b (counted || s.counts e) (s.after e) ∧
      ((s.after e).persisted = s.persisted ∨ (s.after e).persisted = s.persisted + 1) := by
  have hahead : s.visible = s.persisted ∨ s.visible = s.persisted + 1 := by
    rcases h.persisted with hp | hp
    · rw [hp]
      exact h.visible.imp id And.right
    · exact .inl hp.symm
  cases e with
  | restart => exact absurd rfl hne
  | flush =>
    have hnot : s.counts .flush = false := rfl
    rw [hnot, Bool.or_false]
    exact ⟨⟨h.visible, .inr rfl⟩, hahead⟩
  | start config esp =>
    cases hcounts : s.counts (.start config esp) with
    | false =>
      have hnvs := nvs_start_of_not_counts hcounts
      rw [Bool.or_false]
      refine ⟨⟨?_, ?_⟩, .inl ?_⟩ <;> simp only [State.visible, State.persisted, hnvs]
      · exact h.visible
      · exact h.persisted
    | true =>
      obtain ⟨rfl, hread⟩ := ha hcounts
      obtain ⟨hvisible, hpersisted⟩ := nvs_start_of_counts hcounts
      have hb : s.persisted = b := by
        rcases h.persisted with hp | hp
        · exact hp
        · exact hp.trans (h.visible.resolve_right fun h => Bool.false_ne_true h.1)
      have hnext := h.next hread
      refine ⟨⟨?_, ?_⟩, ?_⟩
      · rw [hvisible]
        exact hnext.imp id fun h => ⟨rfl, h⟩
      · rw [hvisible]
        exact hpersisted.imp (fun h => h.trans hb) id
      · rcases hpersisted with hp | hp
        · exact .inl hp
        · rw [hp, hb]
          exact hnext

theorem Moment.holds {b : UInt32} {counted : Bool} {s : State} (h : Moment b counted s) :
    Holds b counted s := by
  induction h with
  | begin flash => exact ⟨.inl rfl, .inl rfl⟩
  | call _ e hne ha ih => exact (ih.call hne ha).1
  | restart => exact ⟨.inl rfl, .inl rfl⟩

/-- **The boot counter.** In a history in which every boot has at most one start that gets a
count into NVS, and no such start fails to read a count above 1, a boot adds at most one to
the persisted count and no call lowers it but by wrapping around. A count that is reported
changes only by a restart, whatever is called. -/
theorem boot_count {b : UInt32} {counted : Bool} {s : State} (h : Moment b counted s) :
    (s.persisted = b ∨ s.persisted = b + 1) ∧
    (∀ e, Allowed counted s e →
      (s.after e).persisted = s.persisted ∨ (s.after e).persisted = s.persisted + 1) ∧
    (s.taskHandle = true → ∀ e ≠ .restart,
      (s.after e).taskHandle = true ∧ (s.after e).bootCount = s.bootCount) := by
  refine ⟨?_, fun e ha => ?_, fun hs e hne => reported_after hs hne⟩
  · rcases h.holds.persisted with hp | hp
    · exact .inl hp
    · rw [hp]
      exact h.holds.visible.imp id And.right
  · by_cases hne : e = .restart
    · rw [hne]
      exact .inl rfl
    · exact (h.holds.call hne ha).2

/-- The default configuration. -/
def defaultConfig : LinkConfig where
  authKey := none
  requireAuthentication := false
  transport := none

/-- Two boots with a start each. -/
theorem boot_count_twice :
    (((State.booted (some 7)).run [.start (some defaultConfig) .succeeding, .restart,
      .start (some defaultConfig) .succeeding]).persisted = 8 ∨
    ((State.booted (some 7)).run [.start (some defaultConfig) .succeeding, .restart,
      .start (some defaultConfig) .succeeding]).persisted = 8 + 1) := by
  have h₁ := (Moment.begin (some 7)).call (.start (some defaultConfig) .succeeding) (by simp)
    fun _ => ⟨rfl, .inl rfl⟩
  have h₂ := h₁.restart.call (.start (some defaultConfig) .succeeding) (by simp)
    fun _ => ⟨rfl, .inl rfl⟩
  exact (boot_count h₂).1

/-- A start whose transport cannot read is refused after it has counted, and counts again
when it is tried with another one; a start that cannot read the count goes back to 1. -/
theorem boot_count_retried :
    ¬ (∀ flash events, (∀ e ∈ events, e ≠ Event.restart) →
      ((State.booted flash).run events).persisted = flash.getD 0 ∨
        ((State.booted flash).run events).persisted = flash.getD 0 + 1) ∧
    ¬ ∀ flash e, ((State.booted flash).after e).persisted = flash.getD 0 ∨
      ((State.booted flash).after e).persisted = flash.getD 0 + 1 := by
  refine ⟨fun h => ?_, fun h => ?_⟩
  · have htwice := h none [.start (some { defaultConfig with transport := some ⟨false, true⟩ })
      .succeeding, .start (some defaultConfig) .succeeding] (by simp)
    exact absurd htwice (by decide)
  · have hlowered := h (some 5)
      (.start (some defaultConfig) { Answers.succeeding with nvsGet := false })
    exact absurd hlowered (by decide)

end OtaLink.Boot
