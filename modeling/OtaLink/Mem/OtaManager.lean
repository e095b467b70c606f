import OtaLink.Mem.Protocol
import OtaLink.OtaManager

/-!
# The OTA session over arrays

The state of `ota_manager.c` with the array of the last chunk and the announced hash, and
its operations with each read of the payload and each copy and comparison of the arrays.

## Main definitions

* `Mem.OtaState` — `ota_state_t`.
* `Mem.otaManagerBegin`, `Mem.otaManagerAbort`, `Mem.otaManagerWriteData`,
  `Mem.otaManagerEnd` — the operations.
* `Mem.OtaState.Holds` — what the arrays hold.
-/

namespace OtaLink.Mem
open Lib

/-- `ota_state_t`. -/
structure OtaState where
  active : Bool
  firmwareSize : ℕ
  bytesReceived : ℕ
  lastChunkOffset : ℕ
  lastChunkLength : ℕ
  lastChunkData : Buffer UInt8 otaMaxChunkDataSize
  expectedSha256 : Buffer UInt8 otaSha256Size
  handle : Handle
  partition : Option Partition

/-- The state after `memset(&s_ota, 0, sizeof(s_ota))`. -/
def OtaState.cleared : OtaState where
  active := false
  firmwareSize := 0
  bytesReceived := 0
  lastChunkOffset := 0
  lastChunkLength := 0
  lastChunkData := .filled _ 0
  expectedSha256 := .filled _ 0
  handle := 0
  partition := none

abbrev OtaRoutine := Checked OtaState Event

/-- `read_u32_le` at an offset of the payload. -/
def readU32Le {n : ℕ} (payload : Buffer UInt8 n) (offset : ℕ) : Option ℕ := do
  return (readLe32 (← payload.read? offset 4)).toNat

/-! ## The operations -/

section Operations
variable {n : ℕ} (esp : EspIdf UInt8) (payload : Buffer UInt8 n) (length : ℕ)

def otaManagerBegin : OtaRoutine ProtocolError := do
  let s ← Checked.get
  if s.active then return .otaAlreadyStarted
  if length ≠ otaBeginPayloadSize then return .invalidLength
  let firmwareSize ← Checked.access (readU32Le payload 0)
  if firmwareSize = 0 then return .otaSizeError
  Checked.emit (.call (.getNextUpdatePartition esp.nextUpdatePartition))
  match esp.nextUpdatePartition with
  | none => return .otaInvalidImage
  | some partition =>
    if firmwareSize > partition.size then return .otaSizeError
    Checked.emit (.call (.otaBegin partition firmwareSize esp.otaBegin))
    match esp.otaBegin with
    | none => return .otaFlashError
    | some handle =>
      Checked.update fun _ => do
        let expectedSha256 ←
          OtaState.cleared.expectedSha256.copy? 0 (← payload.read? 4 otaSha256Size)
        return { OtaState.cleared with
          active := true
          firmwareSize
          handle
          partition := some partition
          expectedSha256 }
      return .ok

def otaManagerAbort : OtaRoutine ProtocolError := do
  let s ← Checked.get
  if !s.active then return .otaNotStarted
  Checked.emit (.call (.otaAbort s.handle esp.otaAbort))
  Checked.update fun _ => some .cleared
  if !esp.otaAbort then return .otaFlashError
  return .ok

/-- The comparison with the last chunk; the arrays are compared where the rest agrees. -/
def isLastChunk (s : OtaState) (offset dataLength : ℕ) : Option Bool :=
  if offset = s.lastChunkOffset ∧ dataLength = s.lastChunkLength ∧
      (offset + dataLength) % 2 ^ 32 = s.bytesReceived then do
    let data ← payload.read? otaDataHeaderSize dataLength
    let last ← s.lastChunkData.read? 0 dataLength
    return data == last
  else some false

def otaManagerWriteData : OtaRoutine ProtocolError := do
  let s ← Checked.get
  if !s.active then return .otaNotStarted
  if length ≤ otaDataHeaderSize then return .invalidLength
  -- The chunk number is read for a log line.
  let _chunkNumber ← Checked.access (readU32Le payload 0)
  let offset ← Checked.access (readU32Le payload 4)
  let dataLength := length - otaDataHeaderSize
  if dataLength > otaMaxChunkDataSize then return .invalidLength
  if offset ≠ s.bytesReceived then
    if ← Checked.access (isLastChunk payload s offset dataLength) then return .ok
    return .otaInvalidOffset
  if (offset + dataLength) % 2 ^ 32 > s.firmwareSize then return .otaSizeError
  let data ← Checked.access (payload.read? otaDataHeaderSize dataLength)
  Checked.emit (.call (.otaWrite s.handle data esp.otaWrite))
  if !esp.otaWrite then return .otaFlashError
  Checked.update fun s => do
    let lastChunkData ← s.lastChunkData.copy? 0 data
    return { s with
      lastChunkOffset := offset
      lastChunkLength := dataLength
      lastChunkData
      bytesReceived := (s.bytesReceived + dataLength) % 2 ^ 32 }
  return .ok

def otaManagerEnd : OtaRoutine ProtocolError := do
  let s ← Checked.get
  if !s.active then return .otaNotStarted
  if s.bytesReceived ≠ s.firmwareSize then return .otaSizeError
  Checked.emit (.call (.otaEnd s.handle esp.otaEnd))
  if !esp.otaEnd then
    Checked.update fun _ => some .cleared
    return .otaInvalidImage
  Checked.emit (.call (.partitionGetSha256 s.partition esp.partitionSha256))
  match esp.partitionSha256 with
  | none =>
    Checked.update fun _ => some .cleared
    return .otaHashMismatch
  | some digest =>
    -- The call has filled `s_actual_sha256`.
    let actual ← Checked.access ((Buffer.blank UInt8 otaSha256Size).copy? 0 digest)
    let left ← Checked.access (actual.read? 0 otaSha256Size)
    let right ← Checked.access (s.expectedSha256.read? 0 otaSha256Size)
    if left ≠ right then
      Checked.update fun _ => some .cleared
      return .otaHashMismatch
    Checked.emit (.call (.setBootPartition s.partition esp.setBootPartition))
    Checked.update fun _ => some .cleared
    if !esp.setBootPartition then return .otaInvalidImage
    return .ok

end Operations

/-! ## What the arrays hold -/

/-- The arrays hold the session. -/
structure OtaState.Holds (m : OtaState) (s : OtaLink.OtaState UInt8) : Prop where
  active : m.active = s.active
  firmwareSize : m.firmwareSize = s.firmwareSize
  bytesReceived : m.bytesReceived = s.bytesReceived
  lastChunkOffset : m.lastChunkOffset = s.lastChunkOffset
  lastChunkLength : m.lastChunkLength = s.lastChunkLength
  length_lastChunkData : s.lastChunkData.length = s.lastChunkLength
  lastChunkData : m.lastChunkData.Begins s.lastChunkData
  expectedSha256 : m.expectedSha256.Begins s.expectedSha256
  length_expectedSha256 : s.expectedSha256.length = otaSha256Size
  handle : m.handle = s.handle
  partition : m.partition = s.partition

theorem otaHolds_cleared : OtaState.cleared.Holds .cleared where
  active := rfl
  firmwareSize := rfl
  bytesReceived := rfl
  lastChunkOffset := rfl
  lastChunkLength := rfl
  length_lastChunkData := rfl
  lastChunkData := Buffer.begins_nil _
  expectedSha256 := Buffer.begins_filled _ _
  length_expectedSha256 := rfl
  handle := rfl
  partition := rfl

section Spec
variable {n : ℕ} {payload : Buffer UInt8 n} {ps : List UInt8}

/-- The word at an offset is the word of the list. -/
theorem readU32Le_spec (h : payload.Begins ps) {offset : ℕ} (hfit : offset + 4 ≤ ps.length) :
    readU32Le payload offset = some (OtaLink.readU32Le (ps.drop offset)) := by
  have hword : (readLe32 (ps.drop offset)).toNat = OtaLink.readU32Le (ps.drop offset) := by
    rw [toNat_readLe32]
    rcases ps.drop offset with _ | ⟨b₀, _ | ⟨b₁, _ | ⟨b₂, _ | ⟨b₃, rest⟩⟩⟩⟩ <;> rfl
  rw [readU32Le, h.read hfit]
  simp [readLe32_take, hword]

theorem otaManagerAbort_realizes (esp : EspIdf UInt8) :
    Checked.Realizes view OtaState.Holds Eq (otaManagerAbort esp)
      (OtaLink.otaManagerAbort esp) := by
  intro m s h
  by_cases ha : s.active = true
  swap
  · refine ⟨.otaNotStarted, m, ?_, ?_⟩
    · simp [otaManagerAbort, OtaLink.otaManagerAbort, h.active, ha]
    · simpa [OtaLink.otaManagerAbort, ha] using h
  refine ⟨if esp.otaAbort then .ok else .otaFlashError, .cleared, ?_, ?_⟩
  · cases he : esp.otaAbort <;>
      simp [otaManagerAbort, OtaLink.otaManagerAbort, h.active, h.handle, ha, he, view]
  · cases he : esp.otaAbort <;> simp [OtaLink.otaManagerAbort, ha, he, otaHolds_cleared]

theorem otaManagerEnd_realizes (esp : EspIdf UInt8)
    (hsha : ∀ digest, esp.partitionSha256 = some digest → digest.length = otaSha256Size) :
    Checked.Realizes view OtaState.Holds Eq (otaManagerEnd esp) (OtaLink.otaManagerEnd esp) := by
  intro m s h
  by_cases ha : s.active = true
  swap
  · refine ⟨.otaNotStarted, m, ?_, ?_⟩
    · simp [otaManagerEnd, OtaLink.otaManagerEnd, h.active, ha]
    · simpa [OtaLink.otaManagerEnd, ha] using h
  by_cases hsize : s.bytesReceived = s.firmwareSize
  swap
  · refine ⟨.otaSizeError, m, ?_, ?_⟩
    · simp [otaManagerEnd, OtaLink.otaManagerEnd, h.active, h.bytesReceived, h.firmwareSize, ha,
        hsize]
    · simpa [OtaLink.otaManagerEnd, ha, hsize] using h
  cases he : esp.otaEnd with
  | false =>
    refine ⟨.otaInvalidImage, .cleared, ?_, ?_⟩
    · simp [otaManagerEnd, OtaLink.otaManagerEnd, h.active, h.bytesReceived, h.firmwareSize,
        h.handle, ha, hsize, he, view]
    · simp [OtaLink.otaManagerEnd, ha, hsize, he, otaHolds_cleared]
  | true =>
    cases hdigest : esp.partitionSha256 with
    | none =>
      refine ⟨.otaHashMismatch, .cleared, ?_, ?_⟩
      · simp [otaManagerEnd, OtaLink.otaManagerEnd, h.active, h.bytesReceived, h.firmwareSize,
          h.handle, h.partition, ha, hsize, he, hdigest, view]
      · simp [OtaLink.otaManagerEnd, ha, hsize, he, hdigest, otaHolds_cleared]
    | some digest =>
      have hlen := hsha digest hdigest
      obtain ⟨actual, hcopy, hbegins⟩ :=
        (Buffer.begins_nil (.blank UInt8 otaSha256Size)).copy digest (by simp [hlen])
      have hleft : actual.read? 0 otaSha256Size = some digest := by
        have hread := hbegins.read_all
        rwa [List.nil_append, hlen] at hread
      have hright : m.expectedSha256.read? 0 otaSha256Size = some s.expectedSha256 := by
        have hread := h.expectedSha256.read_all
        rwa [h.length_expectedSha256] at hread
      rw [List.length_nil] at hcopy
      by_cases hsame : digest = s.expectedSha256
      swap
      · refine ⟨.otaHashMismatch, .cleared, ?_, ?_⟩
        · simp [otaManagerEnd, OtaLink.otaManagerEnd, h.active, h.bytesReceived, h.firmwareSize,
            h.handle, h.partition, ha, hsize, he, hdigest, hcopy, hleft, hright, hsame, view]
        · simp [OtaLink.otaManagerEnd, ha, hsize, he, hdigest, hsame, otaHolds_cleared]
      subst hsame
      refine ⟨if esp.setBootPartition then .ok else .otaInvalidImage, .cleared, ?_, ?_⟩
      · cases hboot : esp.setBootPartition <;>
          simp [otaManagerEnd, OtaLink.otaManagerEnd, h.active, h.bytesReceived, h.firmwareSize,
            h.handle, h.partition, ha, hsize, he, hdigest, hcopy, hleft, hright, hboot, view]
      · cases hboot : esp.setBootPartition <;>
          simp [OtaLink.otaManagerEnd, ha, hsize, he, hdigest, hboot, otaHolds_cleared]

theorem otaManagerBegin_realizes (esp : EspIdf UInt8) (hpayload : payload.Begins ps) :
    Checked.Realizes view OtaState.Holds Eq (otaManagerBegin esp payload ps.length)
      (OtaLink.otaManagerBegin esp ps) := by
  intro m s h
  by_cases ha : s.active = true
  · refine ⟨.otaAlreadyStarted, m, ?_, ?_⟩
    · simp [otaManagerBegin, OtaLink.otaManagerBegin, h.active, ha]
    · simpa [OtaLink.otaManagerBegin, ha] using h
  by_cases hl : ps.length = otaBeginPayloadSize
  swap
  · refine ⟨.invalidLength, m, ?_, ?_⟩
    · simp [otaManagerBegin, OtaLink.otaManagerBegin, h.active, ha, hl]
    · simpa [OtaLink.otaManagerBegin, ha, hl] using h
  have hword : readU32Le payload 0 = some (OtaLink.readU32Le ps) :=
    readU32Le_spec hpayload (by rw [hl]; decide)
  generalize hw : OtaLink.readU32Le ps = size at hword
  by_cases h0 : size = 0
  · refine ⟨.otaSizeError, m, ?_, ?_⟩
    · simp [otaManagerBegin, OtaLink.otaManagerBegin, h.active, ha, hl, hword, hw, h0]
    · simpa [OtaLink.otaManagerBegin, ha, hl, hw, h0] using h
  cases hp : esp.nextUpdatePartition with
  | none =>
    refine ⟨.otaInvalidImage, m, ?_, ?_⟩
    · simp [otaManagerBegin, OtaLink.otaManagerBegin, h.active, ha, hl, hword, hw, h0, hp, view]
    · simpa [OtaLink.otaManagerBegin, ha, hl, hw, h0, hp] using h
  | some partition =>
    by_cases hsize : size > partition.size
    · refine ⟨.otaSizeError, m, ?_, ?_⟩
      · simp [otaManagerBegin, OtaLink.otaManagerBegin, h.active, ha, hl, hword, hw, h0, hp, hsize,
          view]
      · simpa [OtaLink.otaManagerBegin, ha, hl, hw, h0, hp, hsize] using h
    cases hh : esp.otaBegin with
    | none =>
      refine ⟨.otaFlashError, m, ?_, ?_⟩
      · simp [otaManagerBegin, OtaLink.otaManagerBegin, h.active, ha, hl, hword, hw, h0, hp, hsize,
          hh, view]
      · simpa [OtaLink.otaManagerBegin, ha, hl, hw, h0, hp, hsize, hh] using h
    | some handle =>
      have hlen : (ps.drop 4).length = otaSha256Size := by
        rw [List.length_drop, hl]
        rfl
      obtain ⟨sha, hcopy, hbegins⟩ := (Buffer.begins_nil OtaState.cleared.expectedSha256).copy
        (ps.drop 4) (by simp [hlen])
      have hread : payload.read? 4 otaSha256Size = some (ps.drop 4) := by
        rw [hpayload.read (by rw [hl]; decide), List.take_of_length_le hlen.le]
      rw [List.length_nil] at hcopy
      refine ⟨.ok, { OtaState.cleared with
        active := true
        firmwareSize := size
        handle
        partition := some partition
        expectedSha256 := sha }, ?_, ?_⟩
      · simp [otaManagerBegin, OtaLink.otaManagerBegin, h.active, ha, hl, hword, hw, h0, hp, hsize,
          hh, hread, hcopy, view]
      · simp only [OtaLink.otaManagerBegin]
        simp [ha, hl, hw, h0, hp, hsize, hh]
        exact { otaHolds_cleared with
          active := rfl
          firmwareSize := rfl
          handle := rfl
          partition := rfl
          expectedSha256 := hbegins
          length_expectedSha256 := hlen }

/-- The chunk is compared inside the payload and inside the last chunk. -/
theorem isLastChunk_spec {m : OtaState} {s : OtaLink.OtaState UInt8} (h : m.Holds s)
    (hpayload : payload.Begins ps) (hl : otaDataHeaderSize ≤ ps.length) (offset : ℕ) :
    isLastChunk payload m offset (ps.length - otaDataHeaderSize) =
      some (s.isLastChunk offset (ps.drop otaDataHeaderSize)) := by
  have hlen : (ps.drop otaDataHeaderSize).length = ps.length - otaDataHeaderSize :=
    List.length_drop
  generalize hn : ps.length - otaDataHeaderSize = n at hlen
  have hdata : payload.read? otaDataHeaderSize n = some (ps.drop otaDataHeaderSize) := by
    rw [hpayload.read (by omega), List.take_of_length_le hlen.le]
  have hoff := h.lastChunkOffset
  have hlast := h.lastChunkLength
  have hrecv := h.bytesReceived
  by_cases hmeta : offset = m.lastChunkOffset ∧ n = m.lastChunkLength ∧
      (offset + n) % 2 ^ 32 = m.bytesReceived
  · have hread := h.lastChunkData.read_all
    rw [h.length_lastChunkData, ← hlast, ← hmeta.2.1] at hread
    rw [isLastChunk, if_pos hmeta, hdata]
    rw [hoff, hlast, hrecv] at hmeta
    simp only [Option.bind_eq_bind, Option.bind_some, hread, Option.pure_def,
      OtaLink.OtaState.isLastChunk, hlen, beq_iff_eq.mpr hmeta.1, beq_iff_eq.mpr hmeta.2.1,
      beq_iff_eq.mpr hmeta.2.2, Bool.true_and]
  · rw [isLastChunk, if_neg hmeta]
    rw [hoff, hlast, hrecv] at hmeta
    rw [OtaLink.OtaState.isLastChunk, hlen]
    simp only [Option.some.injEq]
    symm
    simp only [Bool.and_eq_false_iff, beq_eq_false_iff_ne]
    tauto

theorem otaManagerWriteData_realizes (esp : EspIdf UInt8) (hpayload : payload.Begins ps) :
    Checked.Realizes view OtaState.Holds Eq (otaManagerWriteData esp payload ps.length)
      (OtaLink.otaManagerWriteData esp ps) := by
  intro m s h
  by_cases ha : s.active = true
  swap
  · refine ⟨.otaNotStarted, m, ?_, ?_⟩
    · simp [otaManagerWriteData, OtaLink.otaManagerWriteData, h.active, ha]
    · simpa [OtaLink.otaManagerWriteData, ha] using h
  by_cases hl : ps.length ≤ otaDataHeaderSize
  · refine ⟨.invalidLength, m, ?_, ?_⟩
    · simp [otaManagerWriteData, OtaLink.otaManagerWriteData, h.active, ha, hl]
    · simpa [OtaLink.otaManagerWriteData, ha, hl] using h
  have hheader : otaDataHeaderSize = 8 := rfl
  have hnumber := @readU32Le_spec n payload ps hpayload 0 (by omega)
  have hword := @readU32Le_spec n payload ps hpayload 4 (by omega)
  generalize OtaLink.readU32Le (ps.drop 0) = number at hnumber
  generalize hw : OtaLink.readU32Le (ps.drop 4) = offset at hword
  have hlen : (ps.drop otaDataHeaderSize).length = ps.length - otaDataHeaderSize :=
    List.length_drop
  have hchunk := isLastChunk_spec h hpayload (Nat.le_of_not_le hl) offset
  have hdata : payload.read? otaDataHeaderSize (ps.length - otaDataHeaderSize) =
      some (ps.drop otaDataHeaderSize) := by
    rw [hpayload.read (by omega), List.take_of_length_le hlen.le]
  generalize hd : ps.drop otaDataHeaderSize = data at hlen hchunk hdata
  by_cases hlong : ps.length - otaDataHeaderSize > otaMaxChunkDataSize
  · refine ⟨.invalidLength, m, ?_, ?_⟩
    · simp [otaManagerWriteData, OtaLink.otaManagerWriteData, h.active, ha, hl, hnumber, hword,
        hlong]
    · simpa [OtaLink.otaManagerWriteData, ha, hl, hlong] using h
  by_cases hoffset : offset = s.bytesReceived
  swap
  · refine ⟨if s.isLastChunk offset data then .ok else .otaInvalidOffset, m, ?_, ?_⟩
    · cases hlast : s.isLastChunk offset data <;> rw [hlast] at hchunk <;>
        simp [otaManagerWriteData, OtaLink.otaManagerWriteData, h.active, h.bytesReceived, ha, hl,
          hnumber, hword, hw, hd, hlong, hoffset, hchunk, hlast]
    · cases hlast : s.isLastChunk offset data <;>
        simpa [OtaLink.otaManagerWriteData, ha, hl, hw, hd, hlong, hlen, hoffset, hlast] using h
  subst hoffset
  by_cases hsize : (s.bytesReceived + (ps.length - otaDataHeaderSize)) % 2 ^ 32 > s.firmwareSize
  · refine ⟨.otaSizeError, m, ?_, ?_⟩
    · simp [-Nat.reducePow, otaManagerWriteData, OtaLink.otaManagerWriteData, h.active,
        h.bytesReceived, h.firmwareSize, ha, hl, hnumber, hword, hw, hd, hlong, hlen, hsize]
    · simpa [-Nat.reducePow, OtaLink.otaManagerWriteData, ha, hl, hw, hd, hlong, hlen, hsize]
        using h
  cases he : esp.otaWrite with
  | false =>
    refine ⟨.otaFlashError, m, ?_, ?_⟩
    · simp [-Nat.reducePow, otaManagerWriteData, OtaLink.otaManagerWriteData, h.active, h.handle,
        h.bytesReceived, h.firmwareSize, ha, hl, hnumber, hword, hw, hd, hlong, hlen, hsize, hdata,
        he, view]
    · simpa [-Nat.reducePow, OtaLink.otaManagerWriteData, ha, hl, hw, hd, hlong, hlen, hsize, he]
        using h
  | true =>
    obtain ⟨last, hcopy, hbegins⟩ := (Buffer.begins_nil m.lastChunkData).copy data (by
      rw [List.length_nil, hlen]
      omega)
    rw [List.length_nil] at hcopy
    refine ⟨.ok, { m with
      lastChunkOffset := s.bytesReceived
      lastChunkLength := ps.length - otaDataHeaderSize
      lastChunkData := last
      bytesReceived := (s.bytesReceived + (ps.length - otaDataHeaderSize)) % 2 ^ 32 }, ?_, ?_⟩
    · simp [-Nat.reducePow, otaManagerWriteData, OtaLink.otaManagerWriteData, h.active, h.handle,
        h.bytesReceived, h.firmwareSize, ha, hl, hnumber, hword, hw, hd, hlong, hlen, hsize, hdata,
        he, hcopy, view]
    · have hlist : (OtaLink.otaManagerWriteData esp ps).state s = s.wrote data ∧
          (OtaLink.otaManagerWriteData esp ps).val s = .ok := by
        simp [-Nat.reducePow, OtaLink.otaManagerWriteData, ha, hl, hw, hd, hlong, hlen, hsize, he]
      rw [hlist.1, hlist.2]
      exact ⟨{ h with
        lastChunkOffset := rfl
        lastChunkLength := hlen.symm
        length_lastChunkData := rfl
        lastChunkData := hbegins
        bytesReceived := by rw [← hlen]; rfl }, rfl⟩

end Spec
end OtaLink.Mem
