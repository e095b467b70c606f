import OtaLink.Platform

/-!
# The OTA session (`ota_manager.c`)

One static record holds the session: whether one is active, the announced size,
the bytes accepted so far, the most recent chunk for duplicate detection, the
announced hash, and the platform's handle and partition. Offsets are 32-bit, so
sums wrap at `2 ^ 32`; a NUL-filled record is `OtaState.cleared`.

## Main definitions

* `OtaState` — `ota_state_t`.
* `otaManagerBegin`, `otaManagerAbort`, `otaManagerWriteData`, `otaManagerEnd` — the
  operations.
* `otaManagerBegin_cases` and its companions — all that each of them can do.
-/

namespace OtaLink
open Lib

def otaSha256Size : ℕ := 32
def otaBeginPayloadSize : ℕ := 4 + otaSha256Size
def otaDataHeaderSize : ℕ := 8
def otaMaxChunkDataSize : ℕ := 1016

variable {β : Type} [Alphabet β]

/-- The session record. `lastChunkData` is the part of the buffer that the last
accepted chunk filled. -/
structure OtaState (β : Type) where
  active : Bool
  firmwareSize : ℕ
  bytesReceived : ℕ
  lastChunkOffset : ℕ
  lastChunkLength : ℕ
  lastChunkData : List β
  expectedSha256 : List β
  handle : Handle
  partition : Option Partition
  deriving DecidableEq

/-- The record after `memset(&s_ota, 0, sizeof(s_ota))`. -/
def OtaState.cleared : OtaState β where
  active := false
  firmwareSize := 0
  bytesReceived := 0
  lastChunkOffset := 0
  lastChunkLength := 0
  lastChunkData := []
  expectedSha256 := List.replicate otaSha256Size (ofByte 0)
  handle := 0
  partition := none

@[simp] theorem OtaState.active_cleared : (OtaState.cleared : OtaState β).active = false := rfl

/-- The record a successful `OTA_BEGIN` leaves. -/
def OtaState.opened (firmwareSize : ℕ) (expectedSha256 : List β) (handle : Handle)
    (partition : Partition) : OtaState β :=
  { OtaState.cleared with
    active := true
    firmwareSize
    handle
    partition := some partition
    expectedSha256 }

/-- The record after `data` has been written at the current offset. -/
def OtaState.wrote (s : OtaState β) (data : List β) : OtaState β :=
  { s with
    lastChunkOffset := s.bytesReceived
    lastChunkLength := data.length
    lastChunkData := data
    bytesReceived := (s.bytesReceived + data.length) % 2 ^ 32 }

abbrev OtaRoutine (β : Type) := Routine (OtaState β) (Event β)

def otaManagerBegin (esp : EspIdf β) (payload : List β) : OtaRoutine β ProtocolError := do
  let s ← Routine.get
  if s.active then return .otaAlreadyStarted
  if payload.length ≠ otaBeginPayloadSize then return .invalidLength
  let firmwareSize := readU32Le payload
  if firmwareSize = 0 then return .otaSizeError
  Routine.emit (.getNextUpdatePartition esp.nextUpdatePartition)
  match esp.nextUpdatePartition with
  | none => return .otaInvalidImage
  | some partition =>
    if firmwareSize > partition.size then return .otaSizeError
    Routine.emit (.otaBegin partition firmwareSize esp.otaBegin)
    match esp.otaBegin with
    | none => return .otaFlashError
    | some handle =>
      Routine.modify fun _ => .opened firmwareSize (payload.drop 4) handle partition
      return .ok

def otaManagerAbort (esp : EspIdf β) : OtaRoutine β ProtocolError := do
  let s ← Routine.get
  if !s.active then return .otaNotStarted
  Routine.emit (.otaAbort s.handle esp.otaAbort)
  Routine.modify fun _ => .cleared
  if !esp.otaAbort then return .otaFlashError
  return .ok

/-- `data` repeats the most recently accepted chunk at its own offset. -/
def OtaState.isLastChunk (s : OtaState β) (offset : ℕ) (data : List β) : Bool :=
  offset == s.lastChunkOffset && data.length == s.lastChunkLength &&
    (offset + data.length) % 2 ^ 32 == s.bytesReceived && data == s.lastChunkData

def otaManagerWriteData (esp : EspIdf β) (payload : List β) : OtaRoutine β ProtocolError := do
  let s ← Routine.get
  if !s.active then return .otaNotStarted
  if payload.length ≤ otaDataHeaderSize then return .invalidLength
  -- The first word is the chunk number, which only reaches a log line.
  let offset := readU32Le (payload.drop 4)
  let data := payload.drop otaDataHeaderSize
  if data.length > otaMaxChunkDataSize then return .invalidLength
  if offset ≠ s.bytesReceived then
    if s.isLastChunk offset data then return .ok
    return .otaInvalidOffset
  if (offset + data.length) % 2 ^ 32 > s.firmwareSize then return .otaSizeError
  Routine.emit (.otaWrite s.handle data esp.otaWrite)
  if !esp.otaWrite then return .otaFlashError
  Routine.modify (·.wrote data)
  return .ok

def otaManagerEnd (esp : EspIdf β) : OtaRoutine β ProtocolError := do
  let s ← Routine.get
  if !s.active then return .otaNotStarted
  if s.bytesReceived ≠ s.firmwareSize then return .otaSizeError
  Routine.emit (.otaEnd s.handle esp.otaEnd)
  if !esp.otaEnd then
    Routine.modify fun _ => .cleared
    return .otaInvalidImage
  Routine.emit (.partitionGetSha256 s.partition esp.partitionSha256)
  match esp.partitionSha256 with
  | none =>
    Routine.modify fun _ => .cleared
    return .otaHashMismatch
  | some actual =>
    if actual ≠ s.expectedSha256 then
      Routine.modify fun _ => .cleared
      return .otaHashMismatch
    Routine.emit (.setBootPartition s.partition esp.setBootPartition)
    Routine.modify fun _ => .cleared
    if !esp.setBootPartition then return .otaInvalidImage
    return .ok

def otaManagerIsActive (s : OtaState β) : Bool := s.active

/-! ## What each operation can do -/

section Cases
variable (esp : EspIdf β) (payload : List β) (s : OtaState β)

/-- A refused `OTA_BEGIN` keeps the record; an accepted one opens the partition
it was given and announces its own size and hash. -/
theorem otaManagerBegin_cases :
    ((otaManagerBegin esp payload).val s ≠ .ok ∧ (otaManagerBegin esp payload).state s = s ∧
      ∀ e ∈ (otaManagerBegin esp payload).log s,
        (∃ r, e = .getNextUpdatePartition r) ∨ ∃ p n, e = .otaBegin p n none) ∨
    ∃ partition handle, s.active = false ∧ payload.length = otaBeginPayloadSize ∧
      0 < readU32Le payload ∧ readU32Le payload ≤ partition.size ∧
      esp.nextUpdatePartition = some partition ∧ esp.otaBegin = some handle ∧
      (otaManagerBegin esp payload).val s = .ok ∧
      (otaManagerBegin esp payload).state s =
        .opened (readU32Le payload) (payload.drop 4) handle partition ∧
      (otaManagerBegin esp payload).log s =
        [.getNextUpdatePartition (some partition),
          .otaBegin partition (readU32Le payload) (some handle)] := by
  by_cases ha : s.active
  · simp [otaManagerBegin, ha]
  by_cases hl : payload.length = otaBeginPayloadSize
  swap
  · simp [otaManagerBegin, ha, hl]
  by_cases h0 : readU32Le payload = 0
  · simp [otaManagerBegin, ha, hl, h0]
  cases hp : esp.nextUpdatePartition with
  | none => simp [otaManagerBegin, ha, hl, h0, hp]
  | some partition =>
    by_cases hsize : readU32Le payload > partition.size
    · simp [otaManagerBegin, ha, hl, h0, hp, hsize]
    cases hh : esp.otaBegin with
    | none => simp [otaManagerBegin, ha, hl, h0, hp, hsize, hh]
    | some handle =>
      refine .inr ⟨partition, handle, by simpa using ha, hl, by omega, by omega, rfl, rfl, ?_⟩
      simp [otaManagerBegin, ha, hl, h0, hp, hsize, hh]

/-- `OTA_ABORT` closes an active session whether or not the platform agrees. -/
theorem otaManagerAbort_cases :
    (s.active = false ∧ (otaManagerAbort esp).val s = .otaNotStarted ∧
      (otaManagerAbort esp).state s = s ∧ (otaManagerAbort esp).log s = []) ∨
    (s.active = true ∧
      (otaManagerAbort esp).val s = (if esp.otaAbort then .ok else .otaFlashError) ∧
      (otaManagerAbort esp).state s = .cleared ∧
      (otaManagerAbort esp).log s = [.otaAbort s.handle esp.otaAbort]) := by
  by_cases ha : s.active <;> by_cases hok : esp.otaAbort <;> simp [otaManagerAbort, ha, hok]

/-- `OTA_DATA` is refused without a trace in the record, or repeats the last
chunk and does nothing, or appends its data at the current offset. -/
theorem otaManagerWriteData_cases :
    ((otaManagerWriteData esp payload).val s ≠ .ok ∧
      (otaManagerWriteData esp payload).state s = s ∧
      ∀ e ∈ (otaManagerWriteData esp payload).log s, ∃ h d, e = .otaWrite h d false) ∨
    (s.active = true ∧ readU32Le (payload.drop 4) ≠ s.bytesReceived ∧
      s.isLastChunk (readU32Le (payload.drop 4)) (payload.drop otaDataHeaderSize) = true ∧
      (otaManagerWriteData esp payload).val s = .ok ∧
      (otaManagerWriteData esp payload).state s = s ∧
      (otaManagerWriteData esp payload).log s = []) ∨
    (s.active = true ∧ otaDataHeaderSize < payload.length ∧
      (payload.drop otaDataHeaderSize).length ≤ otaMaxChunkDataSize ∧
      readU32Le (payload.drop 4) = s.bytesReceived ∧
      (s.bytesReceived + (payload.drop otaDataHeaderSize).length) % 2 ^ 32 ≤ s.firmwareSize ∧
      (otaManagerWriteData esp payload).val s = .ok ∧
      (otaManagerWriteData esp payload).state s = s.wrote (payload.drop otaDataHeaderSize) ∧
      (otaManagerWriteData esp payload).log s =
        [.otaWrite s.handle (payload.drop otaDataHeaderSize) true]) := by
  by_cases ha : s.active
  swap
  · simp [otaManagerWriteData, ha]
  by_cases hl : payload.length ≤ otaDataHeaderSize
  · simp [otaManagerWriteData, ha, hl]
  by_cases hm : (payload.drop otaDataHeaderSize).length > otaMaxChunkDataSize
  · left
    simp only [List.length_drop] at hm
    simp [otaManagerWriteData, ha, hl, hm]
  by_cases hoff : readU32Le (payload.drop 4) = s.bytesReceived
  · by_cases hsum :
      (s.bytesReceived + (payload.drop otaDataHeaderSize).length) % 2 ^ 32 > s.firmwareSize
    · left
      simp only [List.length_drop, Nat.reducePow] at hm hsum
      simp [otaManagerWriteData, ha, hl, hm, hoff, hsum]
    cases hok : esp.otaWrite
    · left
      simp only [List.length_drop, Nat.reducePow] at hm hsum
      simp [otaManagerWriteData, ha, hl, hm, hoff, hsum, hok]
    · refine .inr (.inr ⟨ha, by omega, by omega, hoff, by omega, ?_⟩)
      simp only [List.length_drop, Nat.reducePow] at hm hsum
      simp [otaManagerWriteData, ha, hl, hm, hoff, hsum, hok]
  · cases hd : s.isLastChunk (readU32Le (payload.drop 4)) (payload.drop otaDataHeaderSize)
    · left
      simp only [List.length_drop] at hm
      simp [otaManagerWriteData, ha, hl, hm, hoff, hd]
    · refine .inr (.inl ⟨ha, hoff, rfl, ?_⟩)
      simp only [List.length_drop] at hm
      simp [otaManagerWriteData, ha, hl, hm, hoff, hd]

/-- `OTA_DATA` uses no handle but that of an active record. -/
theorem log_otaManagerWriteData : ∀ e ∈ (otaManagerWriteData esp payload).log s,
    s.active = true ∧ ∃ data ok, e = .otaWrite s.handle data ok := by
  cases ha : s.active
  · simp [otaManagerWriteData, ha]
  by_cases hl : payload.length ≤ otaDataHeaderSize
  · simp [otaManagerWriteData, ha, hl]
  by_cases hm : otaMaxChunkDataSize < payload.length - otaDataHeaderSize
  · simp [otaManagerWriteData, ha, hl, hm]
  by_cases hoff : readU32Le (payload.drop 4) = s.bytesReceived
  · by_cases hsum :
      s.firmwareSize < (s.bytesReceived + (payload.length - otaDataHeaderSize)) % 2 ^ 32 <;>
      simp only [Nat.reducePow] at hsum
    · simp [otaManagerWriteData, ha, hl, hm, hoff, hsum]
    · cases hok : esp.otaWrite <;> simp [otaManagerWriteData, ha, hl, hm, hoff, hsum, hok]
  · cases hd : s.isLastChunk (readU32Le (payload.drop 4)) (payload.drop otaDataHeaderSize) <;>
      simp [otaManagerWriteData, ha, hl, hm, hoff, hd]

/-- `OTA_END` keeps the record while bytes are missing; after that it closes the
session, and reaches the boot partition only through all three checks. -/
theorem otaManagerEnd_cases :
    ((s.active = false ∨ s.bytesReceived ≠ s.firmwareSize) ∧ (otaManagerEnd esp).val s ≠ .ok ∧
      (otaManagerEnd esp).state s = s ∧ (otaManagerEnd esp).log s = []) ∨
    (s.active = true ∧ s.bytesReceived = s.firmwareSize ∧
      (otaManagerEnd esp).state s = .cleared ∧
      (((otaManagerEnd esp).val s ≠ .ok ∧
          (otaManagerEnd esp).log s = [.otaEnd s.handle false]) ∨
        ((otaManagerEnd esp).val s ≠ .ok ∧ ∃ r, r ≠ some s.expectedSha256 ∧
          (otaManagerEnd esp).log s =
            [.otaEnd s.handle true, .partitionGetSha256 s.partition r]) ∨
        ((otaManagerEnd esp).val s = (if esp.setBootPartition then .ok else .otaInvalidImage) ∧
          (otaManagerEnd esp).log s =
            [.otaEnd s.handle true, .partitionGetSha256 s.partition (some s.expectedSha256),
              .setBootPartition s.partition esp.setBootPartition]))) := by
  by_cases ha : s.active
  swap
  · simp [otaManagerEnd, ha]
  by_cases hb : s.bytesReceived = s.firmwareSize
  swap
  · simp [otaManagerEnd, ha, hb]
  refine .inr ⟨ha, hb, ?_⟩
  cases he : esp.otaEnd
  · simp [otaManagerEnd, ha, hb, he]
  cases hr : esp.partitionSha256 with
  | none => simp [otaManagerEnd, ha, hb, he, hr]
  | some actual =>
    by_cases hx : actual = s.expectedSha256
    · cases hs : esp.setBootPartition <;> simp [otaManagerEnd, ha, hb, he, hr, hx, hs]
    · simp [otaManagerEnd, ha, hb, he, hr, hx]

/-! ### No operation demands authentication -/

theorem otaManagerBegin_ne_authRequired : (otaManagerBegin esp payload).val s ≠ .authRequired := by
  by_cases ha : s.active
  · simp [otaManagerBegin, ha]
  by_cases hl : payload.length = otaBeginPayloadSize
  swap
  · simp [otaManagerBegin, ha, hl]
  by_cases h0 : readU32Le payload = 0
  · simp [otaManagerBegin, ha, hl, h0]
  cases hp : esp.nextUpdatePartition with
  | none => simp [otaManagerBegin, ha, hl, h0, hp]
  | some partition =>
    by_cases hsize : readU32Le payload > partition.size
    · simp [otaManagerBegin, ha, hl, h0, hp, hsize]
    cases hh : esp.otaBegin <;> simp [otaManagerBegin, ha, hl, h0, hp, hsize, hh]

theorem otaManagerWriteData_ne_authRequired :
    (otaManagerWriteData esp payload).val s ≠ .authRequired := by
  cases ha : s.active
  · simp [otaManagerWriteData, ha]
  by_cases hl : payload.length ≤ otaDataHeaderSize
  · simp [otaManagerWriteData, ha, hl]
  by_cases hm : otaMaxChunkDataSize < payload.length - otaDataHeaderSize
  · simp [otaManagerWriteData, ha, hl, hm]
  by_cases hoff : readU32Le (payload.drop 4) = s.bytesReceived
  · by_cases hsum :
      s.firmwareSize < (s.bytesReceived + (payload.length - otaDataHeaderSize)) % 2 ^ 32 <;>
      simp only [Nat.reducePow] at hsum
    · simp [otaManagerWriteData, ha, hl, hm, hoff, hsum]
    · cases hok : esp.otaWrite <;> simp [otaManagerWriteData, ha, hl, hm, hoff, hsum, hok]
  · cases hd : s.isLastChunk (readU32Le (payload.drop 4)) (payload.drop otaDataHeaderSize) <;>
      simp [otaManagerWriteData, ha, hl, hm, hoff, hd]

theorem otaManagerAbort_ne_authRequired : (otaManagerAbort esp).val s ≠ .authRequired := by
  rcases otaManagerAbort_cases esp s with ⟨-, h, -⟩ | ⟨-, h, -⟩ <;> rw [h]
  · simp
  · split <;> simp

theorem otaManagerEnd_ne_authRequired : (otaManagerEnd esp).val s ≠ .authRequired := by
  cases ha : s.active
  · simp [otaManagerEnd, ha]
  by_cases hb : s.bytesReceived = s.firmwareSize
  swap
  · simp [otaManagerEnd, ha, hb]
  cases he : esp.otaEnd
  · simp [otaManagerEnd, ha, hb, he]
  cases hr : esp.partitionSha256 with
  | none => simp [otaManagerEnd, ha, hb, he, hr]
  | some actual =>
    by_cases hx : actual = s.expectedSha256
    · cases hs : esp.setBootPartition <;> simp [otaManagerEnd, ha, hb, he, hr, hx, hs]
    · simp [otaManagerEnd, ha, hb, he, hr, hx]

end Cases

end OtaLink
