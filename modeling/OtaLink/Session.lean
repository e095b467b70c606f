import OtaLink.Device
import OtaLink.Octets

/-!
# OTA sessions and the boot switch

An abstract session is a stretch of the trace: it begins where the platform opens a
partition, ends at the next abort, end, restart or further opening, and owns the data
the platform accepted in between. The record `ota_state_t` refines it: while the record
is active, some session is still open and has exactly the record's partition, handle,
size and hash, and as many octets as the record has counted.

## Main definitions

* `OtaStep`, `step_ota` — all that one packet can do to the OTA session.
* `Session` — the open session of a trace, and the record that refines it.
* `Session.run` — the refinement over whole runs.
* `boot_switch_safe` — when the boot partition is switched.
-/

namespace OtaLink
open Lib

variable {β : Type}

/-- The data an event adds to the open session. -/
def Event.accepted : Event β → List β
  | .otaWrite _ data true => data
  | _ => []

/-- The data accepted by `esp_ota_write` among `events`, in order. -/
def written (events : List (Event β)) : List β := events.flatMap Event.accepted

/-- An event that neither opens nor closes a session; the platform accepts data only
through `handle`. -/
def Event.keeps (handle : Handle) : Event β → Bool
  | .otaWrite h _ ok => h == handle || !ok
  | .otaBegin _ _ result => result.isNone
  | .otaAbort .. | .otaEnd .. | .setBootPartition .. | .restart | .reset => false
  | .markInvalidRollbackAndReboot reboots => !reboots
  | _ => true

/-- An event that touches no partition. -/
def Event.isQuiet : Event β → Bool
  | .otaWrite _ _ ok => !ok
  | .otaBegin _ _ result => result.isNone
  | .otaAbort .. | .otaEnd .. | .setBootPartition .. | .restart | .reset => false
  | .markInvalidRollbackAndReboot reboots => !reboots
  | _ => true

@[simp] theorem written_nil : written ([] : List (Event β)) = [] := rfl
@[simp] theorem written_cons (e : Event β) (events : List (Event β)) :
    written (e :: events) = e.accepted ++ written events := rfl
@[simp] theorem written_append (xs ys : List (Event β)) :
    written (xs ++ ys) = written xs ++ written ys := List.flatMap_append

theorem Event.accepted_of_isQuiet {e : Event β} (h : e.isQuiet = true) : e.accepted = [] := by
  cases e <;> simp_all [Event.isQuiet, Event.accepted]

theorem written_of_isQuiet {events : List (Event β)} (h : ∀ e ∈ events, e.isQuiet = true) :
    written events = [] :=
  List.flatMap_eq_nil_iff.mpr fun e he => Event.accepted_of_isQuiet (h e he)

theorem Event.keeps_of_isQuiet {e : Event β} (h : e.isQuiet = true) (n : Handle) :
    e.keeps n = true := by
  cases e <;> simp_all [Event.isQuiet, Event.keeps]

variable [Alphabet β]

/-- The possible effects of one packet on the OTA session. -/
inductive OtaStep (d : Device β) (esp : EspIdf β) (packet : Packet β) :
    OtaState β → List (Event β) → Prop
  | quiet {events : List (Event β)} (h : ∀ e ∈ events, e.isQuiet = true) :
      OtaStep d esp packet d.ota events
  | opened {payload : List β} {partition : Partition} {handle : Handle}
      (hc : packet.command = Command.otaBegin.code) (hg : d.auth.gate packet = .run payload)
      (hactive : d.ota.active = false) (hl : payload.length = otaBeginPayloadSize)
      (hsize : readU32Le payload ≤ partition.size)
      (hpartition : esp.nextUpdatePartition = some partition) :
      OtaStep d esp packet (.opened (readU32Le payload) (payload.drop 4) handle partition)
        [.receive packet, .getNextUpdatePartition (some partition),
          .otaBegin partition (readU32Le payload) (some handle),
          .operate .otaBegin packet.sequence payload .ok, .send (d.reply packet .ok)]
  | wrote {payload : List β}
      (hc : packet.command = Command.otaData.code) (hg : d.auth.gate packet = .run payload)
      (hactive : d.ota.active = true) (hl : otaDataHeaderSize < payload.length)
      (hmax : (payload.drop otaDataHeaderSize).length ≤ otaMaxChunkDataSize)
      (hoff : readU32Le (payload.drop 4) = d.ota.bytesReceived)
      (hsize : (d.ota.bytesReceived + (payload.drop otaDataHeaderSize).length) % 2 ^ 32 ≤
        d.ota.firmwareSize) :
      OtaStep d esp packet (d.ota.wrote (payload.drop otaDataHeaderSize))
        [.receive packet, .otaWrite d.ota.handle (payload.drop otaDataHeaderSize) true,
          .operate .otaData packet.sequence payload .ok, .send (d.reply packet .ok)]
  /-- The session is closed without a boot switch, or the device restarts without one. -/
  | closed {events : List (Event β)}
      (h : ∀ e ∈ events, ∀ p ok, e ≠ .setBootPartition p ok) :
      OtaStep d esp packet .cleared events
  | finished {payload : List β} {error : ProtocolError} (ok : Bool)
      (hc : packet.command = Command.otaEnd.code) (hg : d.auth.gate packet = .run payload)
      (hactive : d.ota.active = true) (hsize : d.ota.bytesReceived = d.ota.firmwareSize)
      (herror : error = if ok then .ok else .otaInvalidImage) :
      OtaStep d esp packet .cleared
        [.receive packet, .otaEnd d.ota.handle true,
          .partitionGetSha256 d.ota.partition (some d.ota.expectedSha256),
          .setBootPartition d.ota.partition ok,
          .operate .otaEnd packet.sequence payload error, .send (d.reply packet error)]

section Step
variable {d : Device β} {packet : Packet β} {payload : List β} (esp : EspIdf β)
  (hv : packet.version = protocolVersion) (hg : d.auth.gate packet = .run payload)
include hv hg

theorem step_ota_begin (hc : packet.command = Command.otaBegin.code) :
    OtaStep d esp packet (d.step esp packet).1.ota (d.step esp packet).2 := by
  rw [step_of_run esp hv hc rfl hg rfl]
  rcases otaManagerBegin_cases esp payload d.ota with
    ⟨hne, hs, hl⟩ | ⟨partition, handle, hactive, hlen, -, hsize, hpartition, -, hok, hs, hl⟩
  · simp only [execute, runOta, Outcome.operated, Bool.false_and, Bool.false_eq_true, if_false,
      hs, List.any_nil, ota_report]
    refine .quiet ?_
    simp only [List.mem_cons, List.mem_append, List.not_mem_nil, or_false]
    rintro e (rfl | (he | rfl) | rfl)
    · rfl
    · rcases hl e he with ⟨r, rfl⟩ | ⟨p, n, rfl⟩ <;> rfl
    · rfl
    · rfl
  · simp only [execute, runOta, Outcome.operated, Bool.false_and, Bool.false_eq_true, if_false,
      hs, hl, hok, List.any_nil, ota_report]
    exact .opened hc hg hactive hlen hsize hpartition

theorem step_ota_data (hc : packet.command = Command.otaData.code) :
    OtaStep d esp packet (d.step esp packet).1.ota (d.step esp packet).2 := by
  rw [step_of_run esp hv hc rfl hg rfl]
  simp only [execute, runOta, Outcome.operated, Bool.false_and, Bool.false_eq_true, if_false,
    List.any_nil, ota_report]
  rcases otaManagerWriteData_cases esp payload d.ota with
    ⟨-, hs, hl⟩ | ⟨-, -, -, hok, hs, hl⟩ | ⟨hactive, hlen, hmax, hoff, hsize, hok, hs, hl⟩
  · rw [hs]
    refine .quiet ?_
    simp only [List.mem_cons, List.mem_append, List.not_mem_nil, or_false]
    rintro e (rfl | (he | rfl) | rfl)
    · rfl
    · obtain ⟨n, data, rfl⟩ := hl e he
      rfl
    · rfl
    · rfl
  · rw [hs, hl]
    exact .quiet (by simp [Event.isQuiet])
  · rw [hs, hl, hok]
    exact .wrote hc hg hactive hlen hmax hoff hsize

theorem step_ota_abort (hc : packet.command = Command.otaAbort.code) :
    OtaStep d esp packet (d.step esp packet).1.ota (d.step esp packet).2 := by
  rw [step_of_run esp hv hc rfl hg rfl]
  by_cases hb : payload.length = 0
  swap
  · simp only [execute, runOta, bne_iff_ne, ne_eq, hb, not_false_eq_true, Bool.true_and, if_true,
      Outcome.refused]
    exact .quiet (by simp [Event.isQuiet])
  simp only [execute, runOta, Outcome.operated, hb, bne_self_eq_false, Bool.and_false,
    Bool.false_eq_true, if_false, List.any_nil, ota_report]
  rcases otaManagerAbort_cases esp d.ota with ⟨-, hval, hs, hl⟩ | ⟨-, hval, hs, hl⟩
  · rw [hs, hl]
    exact .quiet (by simp [Event.isQuiet])
  · rw [hs, hl]
    exact .closed (by simp)

theorem step_ota_end (hc : packet.command = Command.otaEnd.code) :
    OtaStep d esp packet (d.step esp packet).1.ota (d.step esp packet).2 := by
  rw [step_of_run esp hv hc rfl hg rfl]
  by_cases hb : payload.length = 0
  swap
  · simp only [execute, runOta, bne_iff_ne, ne_eq, hb, not_false_eq_true, Bool.true_and, if_true,
      Outcome.refused]
    exact .quiet (by simp [Event.isQuiet])
  simp only [execute, runOta, Outcome.operated, hb, bne_self_eq_false, Bool.and_false,
    Bool.false_eq_true, if_false, List.any_nil, ota_report]
  rcases otaManagerEnd_cases esp d.ota with
    ⟨-, -, hs, hl⟩ | ⟨hactive, hsize, hs, ⟨-, hl⟩ | ⟨-, r, -, hl⟩ | ⟨hval, hl⟩⟩
  · rw [hs, hl]
    exact .quiet (by simp [Event.isQuiet])
  · rw [hs, hl]
    exact .closed (by simp)
  · rw [hs, hl]
    exact .closed (by simp)
  · rw [hs, hl, hval]
    exact .finished esp.setBootPartition hc hg hactive hsize rfl

theorem step_ota_restart {c : Command} (hc : packet.command = c.code)
    (hr : c = .reboot ∨ c = .rollback) :
    OtaStep d esp packet (d.step esp packet).1.ota (d.step esp packet).2 := by
  have hp : c.isProtected = true := by rcases hr with rfl | rfl <;> rfl
  rw [step_of_run esp hv hc hp hg rfl]
  have hbefore : ∀ e ∈ (execute esp d.ota c packet.sequence payload).before,
      ∃ r, e = .checkRollbackIsPossible r := by
    rcases hr with rfl | rfl <;> simp only [execute] <;> split_ifs <;> simp [Outcome.refused]
  have hota : (execute esp d.ota c packet.sequence payload).ota = d.ota := by
    rcases hr with rfl | rfl <;> simp only [execute] <;> split_ifs <;> rfl
  rcases after_execute esp d.ota payload c packet.sequence with
    h | ⟨-, -, -, h⟩ | ⟨-, -, -, -, h⟩
  · simp only [h, List.any_nil, Bool.false_eq_true, if_false, ota_report, hota]
    refine .quiet ?_
    simp only [List.mem_cons, List.mem_append, List.not_mem_nil, or_false]
    rintro e (rfl | he | rfl)
    · rfl
    · obtain ⟨r, rfl⟩ := hbefore e he
      rfl
    · rfl
  · simp only [h, List.any_cons, List.any_nil, Event.reboots, Bool.false_or, Bool.true_or, if_true]
    exact .closed (by simp)
  · cases hm : esp.markInvalidReboots
    · simp only [h, hm, List.any_cons, List.any_nil, Event.reboots, Bool.or_self,
        Bool.false_eq_true, if_false, ota_report]
      exact .quiet (by simp [Event.isQuiet])
    · simp only [h, hm, List.any_cons, List.any_nil, Event.reboots, Bool.false_or, Bool.or_false,
        if_true]
      exact .closed (by simp)

end Step

/-- **All that one packet can do to the OTA session.** -/
theorem step_ota (d : Device β) (esp : EspIdf β) (packet : Packet β) :
    OtaStep d esp packet (d.step esp packet).1.ota (d.step esp packet).2 := by
  have h := step_cases d esp packet
  generalize hr : d.step esp packet = r at h
  cases h with
  | status | info | challenge | proof | resend | refuse => exact .quiet (by simp [Event.isQuiet])
  | run c hv hc hp hg =>
    rw [← hr]
    cases c with
    | otaBegin => exact step_ota_begin esp hv hg hc
    | otaData => exact step_ota_data esp hv hg hc
    | otaAbort => exact step_ota_abort esp hv hg hc
    | otaEnd => exact step_ota_end esp hv hg hc
    | reboot => exact step_ota_restart esp hv hg hc (.inl rfl)
    | rollback => exact step_ota_restart esp hv hg hc (.inr rfl)
    | _ => exact absurd hp (by decide)

/-! ## Sessions -/

/-- An open OTA session of the platform: what opened it, and what happened since. -/
structure Session (β : Type) [Alphabet β] where
  partition : Partition
  handle : Handle
  sequence : UInt16
  /-- The payload of the `OTA_BEGIN` that opened the session. -/
  payload : List β
  /-- The events since. -/
  during : List (Event β)
  length_payload : payload.length = otaBeginPayloadSize
  size_le : readU32Le payload ≤ partition.size
  keeps : ∀ e ∈ during, e.keeps handle = true
  written_le : (written during).length ≤ readU32Le payload

namespace Session

/-- The announced firmware size. -/
def size (S : Session β) : ℕ := readU32Le S.payload
/-- The announced image hash. -/
def sha256 (S : Session β) : List β := S.payload.drop 4
/-- The data the platform has accepted in the session. -/
def data (S : Session β) : List β := written S.during

/-- The session in the trace, from the call that opened its partition. -/
def events (S : Session β) : List (Event β) :=
  .otaBegin S.partition S.size (some S.handle) ::
    .operate .otaBegin S.sequence S.payload .ok :: S.during

/-- The session with further events. -/
def extend (S : Session β) (events : List (Event β)) (hk : ∀ e ∈ events, e.keeps S.handle = true)
    (hw : (S.data ++ written events).length ≤ S.size) : Session β :=
  { S with
    during := S.during ++ events
    keeps := by
      intro e he
      rcases List.mem_append.mp he with he | he
      · exact S.keeps e he
      · exact hk e he
    written_le := by simpa [data, size] using hw }

/-- The trace ends inside the session and the record refines it. -/
structure Holds (S : Session β) (trace : List (Event β)) (s : OtaState β) : Prop where
  suffix : S.events <:+ trace
  partition : s.partition = some S.partition
  handle : s.handle = S.handle
  firmwareSize : s.firmwareSize = S.size
  expectedSha256 : s.expectedSha256 = S.sha256
  bytesReceived : s.bytesReceived = S.data.length

@[simp] theorem data_extend (S : Session β) (events : List (Event β)) (hk hw) :
    (S.extend events hk hw).data = S.data ++ written events := by
  simp [data, extend]

@[simp] theorem events_extend (S : Session β) (events : List (Event β)) (hk hw) :
    (S.extend events hk hw).events = S.events ++ events := rfl

theorem data_length_le (S : Session β) : S.data.length ≤ S.size := S.written_le

end Session

/-- Quiet events prolong a session without changing it. -/
theorem Session.Holds.quiet {S : Session β} {trace events : List (Event β)} {s : OtaState β}
    (H : S.Holds trace s) (h : ∀ e ∈ events, e.isQuiet = true) :
    ∃ hk hw, (S.extend events hk hw).Holds (trace ++ events) s := by
  have hw := written_of_isQuiet h
  refine ⟨fun e he => Event.keeps_of_isQuiet (h e he) S.handle, by
    simpa [hw] using S.data_length_le, ?_⟩
  obtain ⟨before, hbefore⟩ := H.suffix
  exact ⟨⟨before, by simp [← hbefore]⟩, H.partition, H.handle, H.firmwareSize,
    H.expectedSha256, by simp [hw, H.bytesReceived]⟩

/-- An accepted chunk prolongs a session by its data. -/
theorem Session.Holds.wrote {S : Session β} {trace : List (Event β)} {s : OtaState β}
    (H : S.Holds trace s) (events : List (Event β)) (data : List β)
    (hk : ∀ e ∈ events, e.keeps S.handle = true)
    (hw : written events = data) (hle : S.data.length + data.length ≤ S.size)
    (hlt : S.size < 2 ^ 32) :
    ∃ hk hw, (S.extend events hk hw).Holds (trace ++ events) (s.wrote data) := by
  refine ⟨hk, by simpa [hw] using hle, ?_⟩
  obtain ⟨before, hbefore⟩ := H.suffix
  refine ⟨⟨before, by simp [← hbefore]⟩, H.partition, H.handle, H.firmwareSize,
    H.expectedSha256, ?_⟩
  simp only [OtaState.wrote, Session.data_extend, hw, List.length_append, H.bytesReceived]
  exact Nat.mod_eq_of_lt (by omega)

/-- The platform has no partition whose offsets could wrap. -/
def EspIdf.partitionsFit (esp : EspIdf β) : Prop :=
  ∀ p, esp.nextUpdatePartition = some p → p.size ≤ 2 ^ 32 - 1 - otaMaxChunkDataSize

instance (esp : EspIdf β) : Decidable esp.partitionsFit :=
  inferInstanceAs
    (Decidable (∀ p ∈ esp.nextUpdatePartition, p.size ≤ 2 ^ 32 - 1 - otaMaxChunkDataSize))

/-- While the record is active, an open session refines it, in a partition that fits. -/
def SessionInv (trace : List (Event β)) (s : OtaState β) : Prop :=
  s.active = true → ∃ S : Session β, S.Holds trace s ∧
    S.partition.size ≤ 2 ^ 32 - 1 - otaMaxChunkDataSize

section Next
variable {d : Device β} {esp : EspIdf β} {packet : Packet β} {s' : OtaState β}
  {trace events : List (Event β)}

/-- **One packet in an open session** closes it, or leaves its data alone, or appends
the data of an accepted `OTA_DATA`. -/
theorem Session.Holds.step {S : Session β} (H : S.Holds trace d.ota)
    (hactive : d.ota.active = true) (hfit : S.partition.size ≤ 2 ^ 32 - 1 - otaMaxChunkDataSize)
    (h : OtaStep d esp packet s' events) :
    s'.active = false ∨ ∃ S' : Session β, S'.Holds (trace ++ events) s' ∧
      S'.payload = S.payload ∧ S'.partition = S.partition ∧
      (S'.data = S.data ∨ ∃ payload, packet.command = Command.otaData.code ∧
        d.auth.gate packet = .run payload ∧ readU32Le (payload.drop 4) = S.data.length ∧
        S'.data = S.data ++ payload.drop otaDataHeaderSize) := by
  cases h with
  | quiet hq =>
    obtain ⟨hk, hw, H'⟩ := H.quiet hq
    exact .inr ⟨_, H', rfl, rfl, .inl (by simp [written_of_isQuiet hq])⟩
  | opened _ _ hinactive => simp [hactive] at hinactive
  | @wrote payload hc hg _ _ hmax hoff hsize =>
    have hS := S.size_le
    have hle := S.data_length_le
    have hcount := H.bytesReceived
    have hfs := H.firmwareSize
    change S.size ≤ _ at hS
    simp only [otaMaxChunkDataSize] at hfit hmax
    rw [hcount, hfs, Nat.mod_eq_of_lt (by omega)] at hsize
    obtain ⟨hk, hw, H'⟩ := H.wrote
      [.receive packet, .otaWrite d.ota.handle (payload.drop otaDataHeaderSize) true,
        .operate .otaData packet.sequence payload .ok, .send (d.reply packet .ok)]
      (payload.drop otaDataHeaderSize)
      (by simp [Event.keeps, H.handle]) (by simp [Event.accepted]) hsize (by omega)
    refine .inr ⟨_, H', rfl, rfl, .inr ⟨payload, hc, hg, by rw [hoff, hcount], ?_⟩⟩
    simp [Event.accepted]
  | closed => exact .inl rfl
  | finished => exact .inl rfl

/-- **One packet outside a session** opens none, or the one an accepted `OTA_BEGIN`
announces. -/
theorem session_of_opened (trace : List (Event β)) (hactive : d.ota.active = false)
    (h : OtaStep d esp packet s' events) :
    s'.active = false ∨ ∃ S : Session β, S.Holds (trace ++ events) s' ∧ S.data = [] ∧
      packet.command = Command.otaBegin.code ∧ d.auth.gate packet = .run S.payload ∧
      esp.nextUpdatePartition = some S.partition := by
  cases h with
  | quiet => exact .inl hactive
  | @opened payload partition handle hc hg _ hl hsize hpartition =>
    let S : Session β := {
      partition, handle, payload
      sequence := packet.sequence
      during := [.send (d.reply packet .ok)]
      length_payload := hl
      size_le := hsize
      keeps := by simp [Event.keeps]
      written_le := by simp [Event.accepted] }
    refine .inr ⟨S, ⟨⟨trace ++ [.receive packet, .getNextUpdatePartition (some partition)], ?_⟩,
      rfl, rfl, rfl, rfl, ?_⟩, ?_, hc, hg, hpartition⟩
    · simp [S, Session.events, Session.size]
    · simp [S, OtaState.opened, OtaState.cleared, Session.data, Event.accepted]
    · simp [S, Session.data, Event.accepted]
  | wrote _ _ h => simp [hactive] at h
  | closed => exact .inl rfl
  | finished => exact .inl rfl

theorem SessionInv.step (H : SessionInv trace d.ota) (hfit : esp.partitionsFit)
    (h : OtaStep d esp packet s' events) : SessionInv (trace ++ events) s' := by
  intro hs'
  cases hactive : d.ota.active
  · rcases session_of_opened trace hactive h with hn | ⟨S, HS, -, -, -, hp⟩
    · simp [hs'] at hn
    · exact ⟨S, HS, hfit _ hp⟩
  · obtain ⟨S, HS, hS⟩ := H hactive
    rcases HS.step hactive hS h with hn | ⟨S', HS', -, hp, -⟩
    · simp [hs'] at hn
    · exact ⟨S', HS', hp ▸ hS⟩

end Next

/-! ## The boot switch -/

/-- At the end of `before` the dispatcher is handling an `OTA_END`, and the platform is
about to switch to the partition of a session that the same trace opened, filled up to
its announced size, ended, and read back with its announced hash. -/
def BootSwitchSafe (before : List (Event β)) (partition : Option Partition) : Prop :=
  ∃ (S : Session β) (packet : Packet β), partition = some S.partition ∧
    packet.command = Command.otaEnd.code ∧ S.data.length = S.size ∧
    S.events ++ [.receive packet, .otaEnd S.handle true,
      .partitionGetSha256 (some S.partition) (some S.sha256)] <:+ before

/-- Every boot switch of the trace was safe when it was made. -/
def SwitchInv (trace : List (Event β)) : Prop :=
  ∀ before partition ok after, trace = before ++ .setBootPartition partition ok :: after →
    BootSwitchSafe before partition

theorem SwitchInv.append {trace events : List (Event β)} (h : SwitchInv trace)
    (hnew : ∀ mid partition ok after, events = mid ++ .setBootPartition partition ok :: after →
      BootSwitchSafe (trace ++ mid) partition) : SwitchInv (trace ++ events) := by
  intro before partition ok after heq
  rcases List.append_eq_append_iff.mp heq with ⟨mid, rfl, hevents⟩ | ⟨rest, htrace, hrest⟩
  · exact hnew mid partition ok after hevents
  · cases rest with
    | nil =>
      simp only [List.append_nil] at htrace
      subst htrace
      simpa using hnew [] partition ok after (by simpa using hrest.symm)
    | cons e rest =>
      simp only [List.cons_append, List.cons.injEq] at hrest
      exact h before partition ok rest (by rw [htrace, ← hrest.1])

theorem SwitchInv.step {d : Device β} {esp : EspIdf β} {packet : Packet β} {s' : OtaState β}
    {trace events : List (Event β)} (hs : SwitchInv trace) (H : SessionInv trace d.ota)
    (h : OtaStep d esp packet s' events) : SwitchInv (trace ++ events) := by
  have hnone : (∀ e ∈ events, ∀ p ok, e ≠ .setBootPartition p ok) →
      SwitchInv (trace ++ events) := fun hne => hs.append fun mid partition ok after heq =>
    absurd rfl (hne (.setBootPartition partition ok) (by simp [heq]) partition ok)
  cases h with
  | quiet hq =>
    refine hnone fun e he p ok heq => ?_
    have := hq e he
    simp [heq, Event.isQuiet] at this
  | opened => exact hnone (by simp)
  | wrote => exact hnone (by simp)
  | closed hne => exact hnone hne
  | finished ok hc _ hactive hsize =>
    obtain ⟨S, HS, -⟩ := H hactive
    refine hs.append fun mid partition ok' after heq => ?_
    obtain ⟨rfl, rfl⟩ : mid = [.receive packet, .otaEnd d.ota.handle true,
        .partitionGetSha256 d.ota.partition (some d.ota.expectedSha256)] ∧
        partition = d.ota.partition := by
      rcases mid with _ | ⟨e₁, _ | ⟨e₂, _ | ⟨e₃, _ | ⟨e₄, _ | ⟨e₅, _ | ⟨e₆, mid⟩⟩⟩⟩⟩⟩ <;>
        simp at heq
      obtain ⟨rfl, rfl, rfl, ⟨rfl, -⟩, -⟩ := heq
      exact ⟨rfl, rfl⟩
    refine ⟨S, packet, HS.partition, hc, ?_, ?_⟩
    · rw [← HS.bytesReceived, hsize, HS.firmwareSize]
    · obtain ⟨earlier, hearlier⟩ := HS.suffix
      exact ⟨earlier, by rw [← hearlier, HS.handle, HS.partition, HS.expectedSha256]; simp⟩

/-- **Boot-switch safety.** In every run from a start state, whatever packets arrive and
whatever the platform answers, each switch of the boot partition is safe. -/
theorem boot_switch_safe {config : OtaLinkConfig β} {d : Device β}
    (hd : otaLinkStartWithConfig config = some d) (xs : List (Stimulus β))
    (hfit : ∀ packet esp, .packet packet esp ∈ xs → esp.partitionsFit)
    {before after : List (Event β)}
    {partition : Option Partition} {ok : Bool}
    (h : (d.run xs).2 = before ++ .setBootPartition partition ok :: after) :
    BootSwitchSafe before partition := by
  suffices SessionInv (d.run xs).2 (d.run xs).1.ota ∧ SwitchInv (d.run xs).2 from
    this.2 before partition ok after h
  refine Device.run_induction (I := fun d trace => SessionInv trace d.ota ∧ SwitchInv trace)
    xs ⟨?_, ?_⟩ ?_
  · intro hactive
    rw [← restarted_otaLinkStartWithConfig hd] at hactive
    simp at hactive
  · intro before partition ok after heq
    simp at heq
  · rintro d trace (⟨packet, esp⟩ | _) hx ⟨H, hs⟩
    · have hstep := step_ota d esp packet
      exact ⟨H.step (hfit packet esp hx) hstep, hs.step H hstep⟩
    · refine ⟨fun hactive => by simp [Device.after] at hactive, hs.append ?_⟩
      intro mid partition ok after heq
      simp only [Device.after] at heq
      rcases mid with _ | ⟨e, mid⟩ <;> simp at heq

/-- An update of one octet to a device without authentication. -/
def tinyUpdate : List (Stimulus Octet) :=
  let esp := EspIdf.succeeding ⟨65536, 4096⟩ (octets (List.replicate 32 9))
  [.packet ⟨1, Command.otaBegin.code, 1, le32 1 ++ octets (List.replicate 32 9)⟩ esp,
    .packet ⟨1, Command.otaData.code, 2, le32 0 ++ le32 0 ++ octets [7]⟩ esp,
    .packet ⟨1, Command.otaEnd.code, 3, []⟩ esp]

/-- The state of a device without authentication after its start. -/
def openDevice : Device Octet := ⟨.cleared, .cleared⟩

theorem boot_switch_safe_tinyUpdate :
    BootSwitchSafe ((openDevice.run tinyUpdate).2.take 12) (some ⟨65536, 4096⟩) :=
  boot_switch_safe (show otaLinkStartWithConfig ⟨none, false⟩ = some openDevice from rfl) tinyUpdate
    (by
      intro packet esp h
      have hesp : esp = EspIdf.succeeding ⟨65536, 4096⟩ (octets (List.replicate 32 9)) := by
        simp only [tinyUpdate, List.mem_cons, Stimulus.packet.injEq, List.not_mem_nil] at h
        tauto
      intro p hp
      rw [hesp] at hp
      cases hp
      decide)
    (show (openDevice.run tinyUpdate).2 = _ ++ .setBootPartition _ true ::
      [.operate .otaEnd 3 [] .ok, .send (ackFrame 3)] by decide)

end OtaLink
