import OtaLink.Framing
import OtaLink.Lib.Buffer

/-!
# The device description (`device_info.c`)

`device_info_build_payload` writes the answer to GET_INFO into a buffer of the caller: four
version octets, three counters, a flag, seven strings with a length octet each, and a list
of the OTA application slots whose length octet is filled in last.

## Main definitions

* `CString`, `EspPartition`, `DeviceDescription` — what the platform tells.
* `putU32Le`, `putStr8`, `putSlots`, `deviceInfoBuildPayload` — the encoder, with every
  access to the buffer checked.
* `DeviceDescription.encode`, `DeviceDescription.Encodes` — the encoding it is to write and
  when there is one.
* `deviceInfoBuildPayload_spec` — it writes that encoding, or returns 0.
-/

namespace OtaLink
open Lib

/-! ## What the platform tells -/

/-- The octets of a text in UTF-8. -/
def utf8 (text : String) : List UInt8 := text.toUTF8.data.toList

/-- A text that a C string can hold. -/
structure CString where
  text : String
  noNul : (0 : UInt8) ∉ utf8 text := by decide

/-- The octets of the string in memory, with the NUL that ends it. -/
def CString.memory (s : CString) : List UInt8 := utf8 s.text ++ [0]

/-- `strlen`. -/
def CString.strlen (s : CString) : ℕ := (s.memory.takeWhile (· != 0)).length

/-- `esp_ota_img_states_t`. -/
inductive ImgState
  | new | pendingVerify | valid | invalid | aborted | undefined
  /-- Any other value. -/
  | other
  deriving DecidableEq, Repr

/-- `esp_chip_model_t`. -/
inductive ChipModel
  | esp32 | esp32S2 | esp32S3 | esp32C2 | esp32C3 | esp32C5 | esp32C6 | esp32C61
  | esp32H2 | esp32H21 | esp32H4 | esp32P4 | esp32S31 | posixLinux
  /-- Any other value. -/
  | other
  deriving DecidableEq, Repr

def espPartitionTypeApp : UInt8 := 0x00
def otaSubtypeMin : UInt8 := 0x10
def otaSubtypeMax : UInt8 := 0x1F

/-- An entry of the partition table. -/
structure EspPartition where
  type : UInt8
  subtype : UInt8
  label : CString
  /-- `esp_ota_get_state_partition`, `none` where it returns an error. -/
  state : Option ImgState

/-- `esp_app_desc_t`. -/
structure AppDesc where
  version : CString
  projectName : CString
  date : CString
  idfVer : CString

/-- What the platform answers while the description is built. -/
structure DeviceDescription where
  runningPartition : Option EspPartition
  bootPartition : Option EspPartition
  appDescription : Option AppDesc
  chipModel : ChipModel
  /-- `esp_timer_get_time`, in microseconds. -/
  timerTime : ℕ
  freeHeap : UInt32
  bootCount : UInt32
  rollbackIsPossible : Bool
  /-- The partition table, in order. -/
  partitions : List EspPartition

def otaStateName : ImgState → CString
  | .new => { text := "NEW" }
  | .pendingVerify => { text := "PENDING_VERIFY" }
  | .valid => { text := "VALID" }
  | .invalid => { text := "INVALID" }
  | .aborted => { text := "ABORTED" }
  | .undefined => { text := "UNDEFINED" }
  | .other => { text := "UNKNOWN" }

def chipModelName : ChipModel → CString
  | .esp32 => { text := "ESP32" }
  | .esp32S2 => { text := "ESP32-S2" }
  | .esp32S3 => { text := "ESP32-S3" }
  | .esp32C2 => { text := "ESP32-C2" }
  | .esp32C3 => { text := "ESP32-C3" }
  | .esp32C5 => { text := "ESP32-C5" }
  | .esp32C6 => { text := "ESP32-C6" }
  | .esp32C61 => { text := "ESP32-C61" }
  | .esp32H2 => { text := "ESP32-H2" }
  | .esp32H21 => { text := "ESP32-H21" }
  | .esp32H4 => { text := "ESP32-H4" }
  | .esp32P4 => { text := "ESP32-P4" }
  | .esp32S31 => { text := "ESP32-S31" }
  | .posixLinux => { text := "POSIX-Linux" }
  | .other => { text := "unknown" }

/-! ## The version -/

def isDigit (c : UInt8) : Bool := 0x30 ≤ c && c ≤ 0x39

/-- The loop over the digits of a version component. -/
def parseDigits (parsed : ℕ) : List UInt8 → Option (UInt8 × List UInt8)
  | [] => some (UInt8.ofNat parsed, [])
  | c :: rest =>
    if isDigit c then
      let parsed := parsed * 10 + (c.toNat - 0x30)
      if 255 < parsed then none else parseDigits parsed rest
    else some (UInt8.ofNat parsed, c :: rest)

/-- The component at the cursor and the cursor behind it. -/
def parseVersionComponent : List UInt8 → Option (UInt8 × List UInt8)
  | [] => none
  | c :: rest => if isDigit c then parseDigits 0 (c :: rest) else none

/-- The cursor behind a dot. -/
def skipDot : List UInt8 → Option (List UInt8)
  | 0x2E :: rest => some rest
  | _ => none

/-- Major, minor and patch number; all 0 where the version has another form. -/
def parseAppVersion (version : Option CString) : UInt8 × UInt8 × UInt8 :=
  match version with
  | none => (0, 0, 0)
  | some version =>
    let cursor := match utf8 version.text with
      | c :: rest => if c = 0x76 ∨ c = 0x56 then rest else c :: rest
      | [] => []
    (do
      let (major, cursor) ← parseVersionComponent cursor
      let (minor, cursor) ← parseVersionComponent (← skipDot cursor)
      let (patch, _) ← parseVersionComponent (← skipDot cursor)
      return (major, minor, patch)).getD (0, 0, 0)

/-! ## The encoder -/

/-- Why the encoder stops early. -/
inductive BuildStop
  /-- An access outside the buffer. -/
  | fault
  /-- `return 0`. -/
  | zero
  deriving DecidableEq, Repr

abbrev Build (α : Type) := Except BuildStop α

/-- A checked access. -/
def access {α : Type} : Option α → Build α
  | none => .error .fault
  | some a => .ok a

section Encoder
variable {capacity : ℕ}

/-- `buffer[offset++] = value`. -/
def putU8 (buffer : Buffer UInt8 capacity) (offset : ℕ) (value : UInt8) :
    Build (Buffer UInt8 capacity × ℕ) := do
  let buffer ← access (buffer.store? offset value)
  return (buffer, offset + 1)

def putU32Le (buffer : Buffer UInt8 capacity) (offset : ℕ) (value : UInt32) :
    Build (Buffer UInt8 capacity × ℕ) := do
  let (buffer, offset) ← putU8 buffer offset (value &&& 0xFF).toUInt8
  let (buffer, offset) ← putU8 buffer offset ((value >>> 8) &&& 0xFF).toUInt8
  let (buffer, offset) ← putU8 buffer offset ((value >>> 16) &&& 0xFF).toUInt8
  putU8 buffer offset ((value >>> 24) &&& 0xFF).toUInt8

/-- Every caller returns 0 where `put_str8` returns false. -/
def putStr8 (buffer : Buffer UInt8 capacity) (offset : ℕ) (value : CString) :
    Build (Buffer UInt8 capacity × ℕ) := do
  let length := value.strlen
  if length > 255 ∨ offset + 1 + length > capacity then throw .zero
  let (buffer, offset) ← putU8 buffer offset (UInt8.ofNat length)
  let buffer ← access (buffer.copy? offset (value.memory.take length))
  return (buffer, offset + length)

def partitionIsOtaSlot (partition : EspPartition) : Bool :=
  partition.type == espPartitionTypeApp && decide (otaSubtypeMin ≤ partition.subtype) &&
    decide (partition.subtype ≤ otaSubtypeMax)

/-- The state `esp_ota_get_state_partition` leaves in a variable set to undefined. -/
def EspPartition.imgState (partition : EspPartition) : ImgState := partition.state.getD .undefined

/-- The loop over the application partitions. -/
def putSlots (buffer : Buffer UInt8 capacity) (offset : ℕ) (slotCount : UInt8) :
    List EspPartition → Build (Buffer UInt8 capacity × ℕ × UInt8)
  | [] => .ok (buffer, offset, slotCount)
  | slot :: rest =>
    if !partitionIsOtaSlot slot then putSlots buffer offset slotCount rest
    else if slotCount = 255 then throw .zero
    else do
      let (buffer, offset) ← putStr8 buffer offset slot.label
      let (buffer, offset) ← putStr8 buffer offset (otaStateName slot.imgState)
      putSlots buffer offset (slotCount + 1) rest

/-- The iterator of `esp_partition_find(ESP_PARTITION_TYPE_APP, ..)`. -/
def espPartitionFindApp (partitions : List EspPartition) : List EspPartition :=
  partitions.filter fun p => p.type == espPartitionTypeApp

/-- The strings of the description, in the order they are written. -/
def DeviceDescription.strings (d : DeviceDescription) : List CString :=
  let otaState := match d.runningPartition with
    | none => .undefined
    | some running => running.imgState
  [chipModelName d.chipModel,
    d.runningPartition.elim { text := "unknown" } EspPartition.label,
    d.bootPartition.elim { text := "unknown" } EspPartition.label,
    otaStateName otaState,
    d.appDescription.elim { text := "unknown" } AppDesc.idfVer,
    d.appDescription.elim { text := "esp32_ota_link" } AppDesc.projectName,
    d.appDescription.elim { text := "unknown" } AppDesc.date]

/-- The calls of `put_str8`, one after another. -/
def putStrings (buffer : Buffer UInt8 capacity) (offset : ℕ) :
    List CString → Build (Buffer UInt8 capacity × ℕ)
  | [] => .ok (buffer, offset)
  | s :: rest => do
    let (buffer, offset) ← putStr8 buffer offset s
    putStrings buffer offset rest

/-- The slot list: its length octet is passed over first and filled in last. -/
def putSlotList (buffer : Buffer UInt8 capacity) (offset : ℕ) (partitions : List EspPartition) :
    Build (Buffer UInt8 capacity × ℕ) := do
  if offset + 1 > capacity then throw .zero
  let slotCountOffset := offset
  let (buffer, offset, slotCount) ←
    putSlots buffer (offset + 1) 0 (espPartitionFindApp partitions)
  let buffer ← access (buffer.store? slotCountOffset slotCount)
  return (buffer, offset)

/-- The buffer and the length it returns. -/
def deviceInfoBuildPayload (d : DeviceDescription) (buffer : Buffer UInt8 capacity) :
    Build (Buffer UInt8 capacity × ℕ) := do
  let (fwMajor, fwMinor, fwPatch) := parseAppVersion (d.appDescription.map AppDesc.version)
  if capacity < 17 then throw .zero
  let (buffer, offset) ← putU8 buffer 0 protocolVersion
  let (buffer, offset) ← putU8 buffer offset fwMajor
  let (buffer, offset) ← putU8 buffer offset fwMinor
  let (buffer, offset) ← putU8 buffer offset fwPatch
  let (buffer, offset) ← putU32Le buffer offset (UInt32.ofNat (d.timerTime / 1000000))
  let (buffer, offset) ← putU32Le buffer offset d.freeHeap
  let (buffer, offset) ← putU32Le buffer offset d.bootCount
  let (buffer, offset) ← putU8 buffer offset (if d.rollbackIsPossible then 1 else 0)
  let (buffer, offset) ← putStrings buffer offset d.strings
  putSlotList buffer offset d.partitions

end Encoder

/-! ## The encoding -/

/-- A length octet and a text. -/
def str8 (s : CString) : List UInt8 := UInt8.ofNat (utf8 s.text).length :: utf8 s.text

/-- The OTA application slots, in table order. -/
def otaSlots (partitions : List EspPartition) : List EspPartition :=
  partitions.filter partitionIsOtaSlot

/-- The strings of the slots, two for each. -/
def slotStrings (partitions : List EspPartition) : List CString :=
  (otaSlots partitions).flatMap fun p => [p.label, otaStateName p.imgState]

/-- All strings that are written. -/
def DeviceDescription.reported (d : DeviceDescription) : List CString :=
  d.strings ++ slotStrings d.partitions

/-- The length octet can hold the length of the text. -/
def CString.Short (s : CString) : Prop := (utf8 s.text).length ≤ 255

/-- The fixed part of the encoding. -/
def DeviceDescription.header (d : DeviceDescription) : List UInt8 :=
  let version := parseAppVersion (d.appDescription.map AppDesc.version)
  [protocolVersion, version.1, version.2.1, version.2.2] ++
    packU32 (UInt32.ofNat (d.timerTime / 1000000)).toNat ++ packU32 d.freeHeap.toNat ++
    packU32 d.bootCount.toNat ++ [if d.rollbackIsPossible then 1 else 0]

/-- A count octet and the strings of the slots. -/
def slotList (partitions : List EspPartition) : List UInt8 :=
  UInt8.ofNat (otaSlots partitions).length :: (slotStrings partitions).flatMap str8

/-- The encoding of the description. -/
def DeviceDescription.encode (d : DeviceDescription) : List UInt8 :=
  d.header ++ (d.strings.flatMap str8 ++ slotList d.partitions)

/-! ## What each function writes -/

section Spec
variable {capacity : ℕ} {b : Buffer UInt8 capacity} {cs : List (Option UInt8)}

theorem CString.strlen_eq (s : CString) : s.strlen = (utf8 s.text).length := by
  rw [strlen, memory, List.takeWhile_append_of_pos fun x hx => ?_]
  · simp
  · simp only [bne_iff_ne, ne_eq]
    exact fun h => s.noNul (h ▸ hx)

theorem CString.take_memory (s : CString) : s.memory.take s.strlen = utf8 s.text := by
  rw [s.strlen_eq, memory, List.take_left]

theorem putU8_spec (h : b.Front cs) (hfit : cs.length < capacity) (value : UInt8) :
    ∃ b', putU8 b cs.length value = .ok (b', (cs ++ [some value]).length) ∧
      b'.Front (cs ++ [some value]) := by
  obtain ⟨b', hb', hfront⟩ := h.copy [value] hfit
  refine ⟨b', ?_, hfront⟩
  rw [putU8, Buffer.store?, hb', List.length_append]
  rfl

theorem putU32Le_spec (h : b.Front cs) (hfit : cs.length + 4 ≤ capacity) (value : UInt32) :
    ∃ b', putU32Le b cs.length value =
        .ok (b', (cs ++ (packU32 value.toNat).map some).length) ∧
      b'.Front (cs ++ (packU32 value.toNat).map some) := by
  obtain ⟨b₁, h₁, hf₁⟩ := putU8_spec h (by omega) (value &&& 0xFF).toUInt8
  obtain ⟨b₂, h₂, hf₂⟩ := putU8_spec hf₁ (by simp; omega) ((value >>> 8) &&& 0xFF).toUInt8
  obtain ⟨b₃, h₃, hf₃⟩ := putU8_spec hf₂ (by simp; omega) ((value >>> 16) &&& 0xFF).toUInt8
  obtain ⟨b₄, h₄, hf₄⟩ := putU8_spec hf₃ (by simp; omega) ((value >>> 24) &&& 0xFF).toUInt8
  have hbytes : cs ++ (packU32 value.toNat).map some =
      cs ++ [some (value &&& 0xFF).toUInt8] ++ [some ((value >>> 8) &&& 0xFF).toUInt8] ++
        [some ((value >>> 16) &&& 0xFF).toUInt8] ++ [some ((value >>> 24) &&& 0xFF).toUInt8] := by
    rw [← writeLe32_eq]
    simp [writeLe32]
  refine ⟨b₄, ?_, hbytes ▸ hf₄⟩
  rw [hbytes, ← h₄]
  simp only [putU32Le, h₁, h₂, h₃, bind, Except.bind]

theorem length_str8 (s : CString) : (str8 s).length = (utf8 s.text).length + 1 := rfl

/-- Behind the front `cs`, either `bytes` are `good` and fit and have been written, or the
encoder stops. -/
def Writes {capacity : ℕ} (cs : List (Option UInt8)) (good : Prop) (bytes : List UInt8)
    (r : Build (Buffer UInt8 capacity × ℕ)) : Prop :=
  (good ∧ cs.length + bytes.length ≤ capacity ∧
    ∃ b', r = .ok (b', (cs ++ bytes.map some).length) ∧ b'.Front (cs ++ bytes.map some)) ∨
  (¬ (good ∧ cs.length + bytes.length ≤ capacity) ∧ r = .error .zero)

/-- One thing after another. -/
theorem Writes.bind {good good' : Prop} {xs ys : List UInt8}
    {r : Build (Buffer UInt8 capacity × ℕ)}
    {f : Buffer UInt8 capacity → ℕ → Build (Buffer UInt8 capacity × ℕ)}
    (h : Writes cs good xs r)
    (hf : ∀ b', b'.Front (cs ++ xs.map some) →
      Writes (cs ++ xs.map some) good' ys (f b' (cs ++ xs.map some).length)) :
    Writes cs (good ∧ good') (xs ++ ys) (r >>= fun x => f x.1 x.2) := by
  have hlen : (cs ++ xs.map some).length = cs.length + xs.length := by simp
  have hcells : cs ++ (xs ++ ys).map some = cs ++ xs.map some ++ ys.map some := by simp
  rw [Writes, List.length_append, hcells]
  rcases h with ⟨hgood, hfit, b₁, rfl, hf₁⟩ | ⟨hbad, rfl⟩
  · rcases hf b₁ hf₁ with ⟨hgood', hfit', hok⟩ | ⟨hbad', herr⟩
    · exact .inl ⟨⟨hgood, hgood'⟩, by omega, hok⟩
    · exact .inr ⟨fun hall => hbad' ⟨hall.1.2, by omega⟩, herr⟩
  · exact .inr ⟨fun hall => hbad ⟨hall.1.1, by omega⟩, rfl⟩

/-- A string is written, or does not fit. -/
theorem putStr8_spec (h : b.Front cs) (s : CString) :
    Writes cs s.Short (str8 s) (putStr8 b cs.length s) := by
  have hlen := length_str8 s
  rw [Writes, CString.Short]
  by_cases hfit : s.strlen > 255 ∨ cs.length + 1 + s.strlen > capacity
  · right
    constructor
    · rw [s.strlen_eq] at hfit
      omega
    · simp only [putStr8, if_pos hfit]
      rfl
  · left
    have hfit' := hfit
    rw [s.strlen_eq] at hfit'
    obtain ⟨b₁, h₁, hf₁⟩ := putU8_spec h (by omega) (UInt8.ofNat s.strlen)
    obtain ⟨b₂, h₂, hf₂⟩ := hf₁.copy (utf8 s.text) (by simp; omega)
    have hbytes : cs ++ (str8 s).map some =
        cs ++ [some (UInt8.ofNat s.strlen)] ++ (utf8 s.text).map some := by
      rw [str8, s.strlen_eq]
      simp
    have hoffset : (cs ++ [some (UInt8.ofNat s.strlen)] ++ (utf8 s.text).map some).length =
        (cs ++ [some (UInt8.ofNat s.strlen)]).length + s.strlen := by
      rw [List.length_append, List.length_map, s.strlen_eq]
    refine ⟨by omega, by omega, b₂, ?_, hbytes ▸ hf₂⟩
    rw [hbytes, hoffset]
    simp only [putStr8, if_neg hfit, h₁, s.take_memory, h₂, access, bind, Except.bind, pure,
      Except.pure]

/-- The strings are written one after another, or one of them does not fit. -/
theorem putStrings_spec (strings : List CString) : ∀ {b : Buffer UInt8 capacity}
    {cs : List (Option UInt8)}, b.Front cs →
    Writes cs (∀ s ∈ strings, s.Short) (strings.flatMap str8) (putStrings b cs.length strings) := by
  induction strings with
  | nil =>
    intro b cs h
    exact .inl ⟨by simp, by simpa using h.length_le, b, by simp [putStrings], by simpa using h⟩
  | cons s strings ih =>
    intro b cs h
    rw [List.forall_mem_cons]
    exact Writes.bind (f := fun b o => putStrings b o strings) (putStr8_spec h s) fun b' h' => ih h'

/-- What `putSlots` leaves, without the count. -/
def placed (r : Build (Buffer UInt8 capacity × ℕ × UInt8)) : Build (Buffer UInt8 capacity × ℕ) :=
  r.map fun x => (x.1, x.2.1)

theorem putSlots_slot {slot : EspPartition} {rest : List EspPartition} {offset : ℕ} {count : UInt8}
    (hslot : partitionIsOtaSlot slot = true) (hcount : count ≠ 255) :
    putSlots b offset count (slot :: rest) = putStr8 b offset slot.label >>= fun x =>
      putStr8 x.1 x.2 (otaStateName slot.imgState) >>= fun y =>
        putSlots y.1 y.2 (count + 1) rest := by
  rw [putSlots, hslot, Bool.not_true, if_neg Bool.false_ne_true, if_neg hcount]

/-- The slots among the partitions are written one after another, or a string does not fit
or there is a slot too many. -/
theorem putSlots_spec (partitions : List EspPartition) : ∀ {b : Buffer UInt8 capacity}
    {cs : List (Option UInt8)} (count : UInt8), b.Front cs →
    Writes cs ((∀ s ∈ slotStrings partitions, s.Short) ∧
        count.toNat + (otaSlots partitions).length ≤ 255)
      ((slotStrings partitions).flatMap str8)
      (placed (putSlots b cs.length count partitions)) := by
  induction partitions with
  | nil =>
    intro b cs count h
    have hcount := count.toNat_lt
    refine .inl ⟨⟨by simp [slotStrings, otaSlots], by simp [otaSlots]; omega⟩,
      by simpa [slotStrings, otaSlots] using h.length_le, b, ?_, ?_⟩
    · simp [putSlots, placed, slotStrings, otaSlots, Except.map]
    · simpa [slotStrings, otaSlots] using h
  | cons slot rest ih =>
    intro b cs count h
    by_cases hslot : partitionIsOtaSlot slot = true
    swap
    · have hskip : putSlots b cs.length count (slot :: rest) = putSlots b cs.length count rest := by
        rw [putSlots, if_pos (by simpa using hslot)]
      have hslots : otaSlots (slot :: rest) = otaSlots rest := List.filter_cons_of_neg hslot
      rw [hskip, slotStrings, hslots]
      exact ih count h
    have hslots : otaSlots (slot :: rest) = slot :: otaSlots rest := List.filter_cons_of_pos hslot
    have hstrings : slotStrings (slot :: rest) =
        slot.label :: otaStateName slot.imgState :: slotStrings rest := by
      rw [slotStrings, hslots]
      rfl
    by_cases hcount : count = 255
    · refine .inr ⟨fun hall => ?_, ?_⟩
      · have hmany := hall.1.2
        rw [hslots, hcount, List.length_cons] at hmany
        exact absurd hmany (by simp)
      · rw [putSlots, hslot, if_neg (by simp), if_pos hcount]
        rfl
    · have hlt : count.toNat ≠ 255 := fun h => hcount (UInt8.toNat_inj.mp h)
      have hnext : (count + 1).toNat = count.toNat + 1 := by
        have := count.toNat_lt
        rw [UInt8.toNat_add]
        simp
        omega
      have hwritten : placed (putSlots b cs.length count (slot :: rest)) =
          putStr8 b cs.length slot.label >>= fun x =>
            putStr8 x.1 x.2 (otaStateName slot.imgState) >>= fun y =>
              placed (putSlots y.1 y.2 (count + 1) rest) := by
        rw [putSlots_slot hslot hcount]
        rcases putStr8 b cs.length slot.label with _ | x
        · rfl
        · change placed (putStr8 x.1 x.2 (otaStateName slot.imgState) >>= fun y =>
            putSlots y.1 y.2 (count + 1) rest) = _
          cases h' : putStr8 x.1 x.2 (otaStateName slot.imgState) <;>
            simp [h', placed, bind, Except.bind, Except.map]
      have hall := Writes.bind
        (f := fun b o => putStr8 b o (otaStateName slot.imgState) >>= fun y =>
          placed (putSlots y.1 y.2 (count + 1) rest))
        (putStr8_spec h slot.label) fun b' h' => Writes.bind
          (f := fun b o => placed (putSlots b o (count + 1) rest))
          (putStr8_spec h' (otaStateName slot.imgState)) fun b'' h'' => ih (count + 1) h''
      have hgood : ((∀ s ∈ slotStrings (slot :: rest), s.Short) ∧
          count.toNat + (otaSlots (slot :: rest)).length ≤ 255) =
          (slot.label.Short ∧ (otaStateName slot.imgState).Short ∧
            (∀ s ∈ slotStrings rest, s.Short) ∧
              (count + 1).toNat + (otaSlots rest).length ≤ 255) := by
        rw [hstrings, hslots, hnext, List.forall_mem_cons, List.forall_mem_cons, List.length_cons,
          and_assoc, and_assoc, Nat.add_right_comm, Nat.add_assoc count.toNat]
      rw [hwritten, hgood, hstrings]
      exact hall

/-- The count is the number of slots. -/
theorem putSlots_count (partitions : List EspPartition) : ∀ {b : Buffer UInt8 capacity}
    {offset : ℕ} {count : UInt8} {x}, putSlots b offset count partitions = .ok x →
    x.2.2 = count + UInt8.ofNat (otaSlots partitions).length := by
  induction partitions with
  | nil =>
    intro b offset count x h
    cases h
    simp [otaSlots]
  | cons slot rest ih =>
    intro b offset count x h
    by_cases hslot : partitionIsOtaSlot slot = true
    swap
    · rw [putSlots, if_pos (by simpa using hslot)] at h
      rw [ih h, otaSlots, otaSlots, List.filter_cons_of_neg hslot]
    by_cases hcount : count = 255
    · rw [putSlots, hslot, if_neg (by simp), if_pos hcount] at h
      cases h
    rw [putSlots_slot hslot hcount] at h
    rcases hx : putStr8 b offset slot.label with _ | y <;> rw [hx] at h
    · cases h
    change (putStr8 y.1 y.2 (otaStateName slot.imgState) >>= fun y =>
      putSlots y.1 y.2 (count + 1) rest) = _ at h
    rcases hy : putStr8 y.1 y.2 (otaStateName slot.imgState) with _ | z <;> rw [hy] at h
    · cases h
    · rw [ih h, otaSlots, otaSlots, List.filter_cons_of_pos hslot, List.length_cons,
        UInt8.ofNat_add, UInt8.add_assoc, UInt8.add_comm 1]
      rfl

theorem otaSlots_espPartitionFindApp (partitions : List EspPartition) :
    otaSlots (espPartitionFindApp partitions) = otaSlots partitions := by
  rw [otaSlots, espPartitionFindApp, List.filter_filter, otaSlots]
  congr 1
  funext p
  cases h : p.type == espPartitionTypeApp <;> simp [partitionIsOtaSlot, h]

theorem slotStrings_espPartitionFindApp (partitions : List EspPartition) :
    slotStrings (espPartitionFindApp partitions) = slotStrings partitions := by
  rw [slotStrings, otaSlots_espPartitionFindApp, slotStrings]

/-- The slot list is written, or does not fit or has a slot too many. -/
theorem putSlotList_spec (h : b.Front cs) (partitions : List EspPartition) :
    Writes cs ((∀ s ∈ slotStrings partitions, s.Short) ∧ (otaSlots partitions).length ≤ 255)
      (slotList partitions) (putSlotList b cs.length partitions) := by
  have hlist : (slotList partitions).length =
      ((slotStrings partitions).flatMap str8).length + 1 := rfl
  by_cases hroom : cs.length + 1 > capacity
  · refine .inr ⟨fun hall => by omega, ?_⟩
    simp only [putSlotList, if_pos hroom]
    rfl
  obtain ⟨c, hc⟩ := h.next (by omega)
  have hlen : (cs ++ [c]).length = cs.length + 1 := List.length_append ..
  have hputs := putSlots_spec (espPartitionFindApp partitions) 0 hc
  have hput : putSlotList b cs.length partitions =
      putSlots b (cs ++ [c]).length 0 (espPartitionFindApp partitions) >>= fun y =>
        access (y.1.store? cs.length y.2.2) >>= fun b => pure (b, y.2.1) := by
    rw [hlen]
    simp only [putSlotList, if_neg hroom]
  rw [Writes, otaSlots_espPartitionFindApp, slotStrings_espPartitionFindApp, hlen] at hputs
  rw [hput]
  rcases hr : putSlots b (cs ++ [c]).length 0 (espPartitionFindApp partitions)
    with e | ⟨b₁, o, k⟩ <;>
    rw [hlen] at hr <;> rw [hr] at hputs
  · rcases hputs with ⟨-, -, b', hb', -⟩ | ⟨hbad, herr⟩
    · cases hb'
    · refine .inr ⟨fun hall => hbad ⟨⟨hall.1.1, by simpa using hall.1.2⟩, by omega⟩, ?_⟩
      cases herr
      rfl
  · rcases hputs with ⟨⟨hshort, hmany⟩, hfit, b', hb', hf'⟩ | ⟨hbad, herr⟩
    · have hcount : k = UInt8.ofNat (otaSlots partitions).length := by
        simpa [otaSlots_espPartitionFindApp] using putSlots_count _ hr
      cases hb'
      -- The count goes where the list began.
      rw [List.append_assoc, List.singleton_append] at hf'
      obtain ⟨b₂, hb₂, hf₂⟩ := hf'.patch k
      have hcells : cs ++ (slotList partitions).map some =
          cs ++ some k :: ((slotStrings partitions).flatMap str8).map some := by
        rw [slotList, hcount, List.map_cons]
      refine .inl ⟨⟨hshort, by simpa using hmany⟩, by omega, b₂, ?_, hcells ▸ hf₂⟩
      rw [hcells]
      change (access (b₁.store? cs.length k) >>= fun b => pure (b, _)) = _
      rw [hb₂]
      simp [access, bind, Except.bind, pure, Except.pure]
    · cases herr

theorem length_header (d : DeviceDescription) : d.header.length = 17 := rfl

/-- What the encoding needs. -/
def DeviceDescription.Encodes (d : DeviceDescription) (capacity : ℕ) : Prop :=
  d.encode.length ≤ capacity ∧ (∀ s ∈ d.reported, s.Short) ∧ (otaSlots d.partitions).length ≤ 255

/-- **The encoder writes the encoding where there is one, returns 0 where there is none,
and never writes past the buffer.** -/
theorem deviceInfoBuildPayload_spec (d : DeviceDescription) (b : Buffer UInt8 capacity) :
    (d.Encodes capacity ∧ ∃ b', deviceInfoBuildPayload d b = .ok (b', d.encode.length) ∧
      b'.Begins d.encode) ∨
    (¬ d.Encodes capacity ∧ deviceInfoBuildPayload d b = .error .zero) := by
  have hencode : d.encode.length =
      17 + (d.strings.flatMap str8 ++ slotList d.partitions).length := by
    rw [DeviceDescription.encode, List.length_append, length_header]
  by_cases hcapacity : capacity < 17
  · refine .inr ⟨fun h => ?_, ?_⟩
    · have := h.1
      omega
    · simp only [deviceInfoBuildPayload, if_pos hcapacity]
      rfl
  generalize hversion : parseAppVersion (d.appDescription.map AppDesc.version) = version
  obtain ⟨b₁, h₁, hf₁⟩ := putU8_spec (Buffer.front_nil b) (by simp; omega) protocolVersion
  obtain ⟨b₂, h₂, hf₂⟩ := putU8_spec hf₁ (by simp; omega) version.1
  obtain ⟨b₃, h₃, hf₃⟩ := putU8_spec hf₂ (by simp; omega) version.2.1
  obtain ⟨b₄, h₄, hf₄⟩ := putU8_spec hf₃ (by simp; omega) version.2.2
  obtain ⟨b₅, h₅, hf₅⟩ := putU32Le_spec hf₄ (by simp; omega)
    (UInt32.ofNat (d.timerTime / 1000000))
  obtain ⟨b₆, h₆, hf₆⟩ := putU32Le_spec hf₅ (by simp [packU32]; omega) d.freeHeap
  obtain ⟨b₇, h₇, hf₇⟩ := putU32Le_spec hf₆ (by simp [packU32]; omega) d.bootCount
  obtain ⟨b₈, h₈, hf₈⟩ := putU8_spec hf₇ (by simp [packU32]; omega)
    (if d.rollbackIsPossible then 1 else 0)
  have hcells : [] ++ [some protocolVersion] ++ [some version.1] ++ [some version.2.1] ++
      [some version.2.2] ++ (packU32 (UInt32.ofNat (d.timerTime / 1000000)).toNat).map some ++
      (packU32 d.freeHeap.toNat).map some ++ (packU32 d.bootCount.toNat).map some ++
      [some (if d.rollbackIsPossible then 1 else 0)] = d.header.map some := by
    simp [DeviceDescription.header, hversion]
  rw [hcells] at hf₈ h₈
  have hstart : deviceInfoBuildPayload d b =
      putStrings b₈ (d.header.map some).length d.strings >>= fun x =>
        putSlotList x.1 x.2 d.partitions := by
    rw [List.length_nil] at h₁
    simp only [deviceInfoBuildPayload, if_neg hcapacity, hversion, h₁, h₂, h₃, h₄, h₅, h₆, h₇, h₈,
      bind, Except.bind]
  have hcs : (d.header.map some : List (Option UInt8)).length = 17 := by
    rw [List.length_map, length_header]
  have hgood : d.Encodes capacity ↔ ((∀ s ∈ d.strings, s.Short) ∧
      (∀ s ∈ slotStrings d.partitions, s.Short) ∧ (otaSlots d.partitions).length ≤ 255) ∧
      (d.header.map some : List (Option UInt8)).length +
        (d.strings.flatMap str8 ++ slotList d.partitions).length ≤ capacity := by
    rw [DeviceDescription.Encodes, DeviceDescription.reported, List.forall_mem_append, hcs, hencode]
    tauto
  rw [hgood, hstart]
  rcases Writes.bind (f := fun b o => putSlotList b o d.partitions) (putStrings_spec d.strings hf₈)
    fun b' h' => putSlotList_spec h' d.partitions with ⟨hall, hfit, b₉, h₉, hf₉⟩ | ⟨hbad, herr⟩
  · refine .inl ⟨⟨hall, hfit⟩, b₉, ?_, ?_⟩
    · rw [h₉, ← List.map_append, List.length_map]
      rfl
    · rwa [← List.map_append] at hf₉
  · exact .inr ⟨hbad, herr⟩

end Spec
end OtaLink
