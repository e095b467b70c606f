import OtaLink.DeviceInfo

/-!
# The answer to GET_INFO on the host (`parse_info_payload`)

The host reads the fixed fields, then the strings one after another, then the slot list. An
answer that ends too early for that is read once more as the older layout without the boot
partition, the OTA state and the slots.

## Main definitions

* `readU8String`, `parseInfoPayload` — the functions of `protocol.py`.
* `DeviceDescription.info` — what the host is to learn.
* `info_round_trip` — what `device_info_build_payload` writes is read back.
-/

namespace OtaLink
open Lib

/-! ## The parser -/

/-- The exceptions `parse_info_payload` can raise. -/
inductive InfoError
  /-- `ProtocolError("info payload too short")`. -/
  | tooShort
  /-- `ProtocolError("missing string length")`. -/
  | missingStringLength
  /-- `ProtocolError("truncated string")`. -/
  | truncatedString
  /-- `UnicodeDecodeError`. -/
  | unicode
  /-- `IndexError`. -/
  | index
  deriving DecidableEq, Repr

/-- The exception is a `ProtocolError`. -/
def InfoError.isProtocolError : InfoError → Bool
  | .tooShort | .missingStringLength | .truncatedString => true
  | _ => false

abbrev Parse (α : Type) := Except InfoError α

theorem Parse.ok_bind {α β : Type} (a : α) (f : α → Parse β) :
    ((.ok a : Parse α) >>= f) = f a := rfl

/-- `bytes.decode("utf-8")`. -/
def decodeUtf8 (bytes : List UInt8) : Parse String :=
  match String.fromUTF8? ⟨bytes.toArray⟩ with
  | none => .error .unicode
  | some text => .ok text

/-- `data[offset]`. -/
def octetAt (data : List UInt8) (offset : ℕ) : Parse ℕ :=
  match data[offset]? with
  | none => .error .index
  | some b => .ok b.toNat

/-- The string at the offset and the offset behind it. -/
def readU8String (data : List UInt8) (offset : ℕ) : Parse (String × ℕ) := do
  if offset ≥ data.length then throw .missingStringLength
  let length ← octetAt data offset
  let offset := offset + 1
  let stop := offset + length
  if stop > data.length then throw .truncatedString
  let text ← decodeUtf8 ((data.drop offset).take (stop - offset))
  return (text, stop)

/-- The dictionary `parse_info_payload` returns. -/
structure Info where
  protocolVersion : ℕ
  firmware : String
  uptimeSeconds : ℕ
  freeHeap : ℕ
  bootCount : ℕ
  rollbackPossible : Bool
  chipModel : String
  runningPartition : String
  bootPartition : String
  otaState : String
  /-- Label and state of each slot. -/
  otaSlots : List (String × String)
  idfVersion : String
  projectName : String
  buildDate : String
  deriving DecidableEq, Repr

/-- The loop over the slots. -/
def readSlots (payload : List UInt8) : ℕ → ℕ → Parse (List (String × String))
  | 0, _ => .ok []
  | n + 1, offset => do
    let (label, offset) ← readU8String payload offset
    let (state, offset) ← readU8String payload offset
    let slots ← readSlots payload n offset
    return (label, state) :: slots

/-- The fields the two layouts have in common. -/
def Info.fixed (payload : List UInt8) : Info where
  protocolVersion := (payload.getD 0 0).toNat
  firmware :=
    toString (payload.getD 1 0).toNat ++ "." ++ toString (payload.getD 2 0).toNat ++ "." ++
    toString (payload.getD 3 0).toNat
  uptimeSeconds := unpackU32 (payload.drop 4)
  freeHeap := unpackU32 (payload.drop 8)
  bootCount := unpackU32 (payload.drop 12)
  rollbackPossible := false
  chipModel := ""
  runningPartition := ""
  bootPartition := ""
  otaState := "UNKNOWN"
  otaSlots := []
  idfVersion := ""
  projectName := ""
  buildDate := ""

/-- The body of the `try`. -/
def parseFull (payload : List UInt8) : Parse Info := do
  let offset := 16
  let rollback ← octetAt payload offset
  let offset := offset + 1
  let (chipModel, offset) ← readU8String payload offset
  let (runningPartition, offset) ← readU8String payload offset
  let (bootPartition, offset) ← readU8String payload offset
  let (otaState, offset) ← readU8String payload offset
  let (idfVersion, offset) ← readU8String payload offset
  let (projectName, offset) ← readU8String payload offset
  let (buildDate, offset) ← readU8String payload offset
  let otaSlots ← if offset < payload.length then do
      let slotCount ← octetAt payload offset
      readSlots payload slotCount (offset + 1)
    else pure []
  return { Info.fixed payload with
    rollbackPossible := rollback != 0
    chipModel, runningPartition, bootPartition, otaState, otaSlots, idfVersion, projectName
    buildDate }

/-- The body of the `except`. -/
def parseLegacy (payload : List UInt8) : Parse Info := do
  let offset := 16
  let (chipModel, offset) ← readU8String payload offset
  let (runningPartition, offset) ← readU8String payload offset
  let (idfVersion, offset) ← readU8String payload offset
  let (projectName, offset) ← readU8String payload offset
  let (buildDate, _) ← readU8String payload offset
  return { Info.fixed payload with
    chipModel, runningPartition, bootPartition := runningPartition, idfVersion, projectName
    buildDate }

def parseInfoPayload (payload : List UInt8) : Parse Info :=
  if payload.length < 16 then .error .tooShort
  else
    match parseFull payload with
    | .ok info => .ok info
    | .error e => if e.isProtocolError then parseLegacy payload else .error e

/-! ## Round trip -/

theorem noNul_unknown : (0 : UInt8) ∉ utf8 "unknown" := by decide
theorem noNul_esp32_ota_link : (0 : UInt8) ∉ utf8 "esp32_ota_link" := by decide

/-- What the host is to learn from the description. -/
def DeviceDescription.info (d : DeviceDescription) : Info :=
  let version := parseAppVersion (d.appDescription.map AppDesc.version)
  let unknown : CString := ⟨"unknown", noNul_unknown⟩
  { protocolVersion := 1
    firmware := toString version.1.toNat ++ "." ++ toString version.2.1.toNat ++ "." ++
      toString version.2.2.toNat
    uptimeSeconds := d.timerTime / 1000000 % 2 ^ 32
    freeHeap := d.freeHeap.toNat
    bootCount := d.bootCount.toNat
    rollbackPossible := d.rollbackIsPossible
    chipModel := (chipModelName d.chipModel).text
    runningPartition := (d.runningPartition.elim unknown EspPartition.label).text
    bootPartition := (d.bootPartition.elim unknown EspPartition.label).text
    otaState := (otaStateName (d.runningPartition.elim .undefined EspPartition.imgState)).text
    otaSlots := (otaSlots d.partitions).map fun p => (p.label.text, (otaStateName p.imgState).text)
    idfVersion := (d.appDescription.elim unknown AppDesc.idfVer).text
    projectName :=
      (d.appDescription.elim ⟨"esp32_ota_link", noNul_esp32_ota_link⟩ AppDesc.projectName).text
    buildDate := (d.appDescription.elim unknown AppDesc.date).text }

theorem decodeUtf8_utf8 (text : String) : decodeUtf8 (utf8 text) = .ok text := by
  have harray : (⟨(utf8 text).toArray⟩ : ByteArray) = text.toByteArray := by simp [utf8]
  have hsome : String.fromUTF8? text.toByteArray = some text := by
    rw [String.fromUTF8?, dif_pos text.isValidUTF8]
    rfl
  rw [decodeUtf8, harray, hsome]

theorem octetAt_append (pre post : List UInt8) (x : UInt8) :
    octetAt (pre ++ x :: post) pre.length = .ok x.toNat := by
  simp [octetAt]

/-- A length octet and a text. -/
def prefixed (text : String) : List UInt8 := UInt8.ofNat (utf8 text).length :: utf8 text

theorem length_prefixed (text : String) : (prefixed text).length = (utf8 text).length + 1 := rfl

/-- **A string is read back where it was written**, whatever surrounds it. -/
theorem readU8String_prefixed {data : List UInt8} (pre post : List UInt8) {text : String}
    (hdata : data = pre ++ (prefixed text ++ post)) (h : (utf8 text).length ≤ 255) :
    readU8String data pre.length = .ok (text, (pre ++ prefixed text).length) := by
  subst hdata
  have hoctet : octetAt (pre ++ (prefixed text ++ post)) pre.length = .ok (utf8 text).length := by
    rw [prefixed, List.cons_append, octetAt_append, UInt8.toNat_ofNat', Nat.mod_eq_of_lt (by omega)]
  have htext : ((pre ++ (prefixed text ++ post)).drop (pre.length + 1)).take (utf8 text).length =
      utf8 text := by
    rw [prefixed, List.cons_append, List.drop_append, List.drop_eq_nil_of_le (by omega)]
    simp
  have hlen : (pre ++ (prefixed text ++ post)).length =
      pre.length + 1 + (utf8 text).length + post.length := by
    simp only [List.length_append, length_prefixed]
    omega
  have hstop : (pre ++ prefixed text).length = pre.length + 1 + (utf8 text).length := by
    rw [List.length_append, length_prefixed]
    omega
  rw [readU8String, if_neg (by omega), hoctet, hstop]
  simp only [bind, Except.bind]
  rw [if_neg (by omega), Nat.add_sub_cancel_left, htext, decodeUtf8_utf8]
  rfl

/-- The octets of a list of texts, each with its length. -/
def packTexts (texts : List String) : List UInt8 := texts.flatMap prefixed

@[simp] theorem packTexts_nil : packTexts [] = [] := rfl
@[simp] theorem packTexts_cons (text : String) (texts : List String) :
    packTexts (text :: texts) = prefixed text ++ packTexts texts := rfl
theorem packTexts_append (xs ys : List String) :
    packTexts (xs ++ ys) = packTexts xs ++ packTexts ys := List.flatMap_append

/-- The texts of the slots, two for each. -/
def slotTexts (slots : List (String × String)) : List String := slots.flatMap fun p => [p.1, p.2]

/-- Slots written one after another are read back one after another. -/
theorem readSlots_eq {data post : List UInt8} (slots : List (String × String)) :
    ∀ (pre : List UInt8), data = pre ++ (packTexts (slotTexts slots) ++ post) →
    (∀ text ∈ slotTexts slots, (utf8 text).length ≤ 255) →
    readSlots data slots.length pre.length = .ok slots := by
  induction slots with
  | nil => exact fun pre _ _ => rfl
  | cons p slots ih =>
    intro pre hdata h
    have hlabel : (utf8 p.1).length ≤ 255 := h _ (by simp [slotTexts])
    have hstate : (utf8 p.2).length ≤ 255 := h _ (by simp [slotTexts])
    have hdata' : data = pre ++ (prefixed p.1 ++ (prefixed p.2 ++
        (packTexts (slotTexts slots) ++ post))) := by
      rw [hdata]
      simp [slotTexts]
    have hfirst := readU8String_prefixed pre _ hdata' hlabel
    have hsecond := readU8String_prefixed (pre ++ prefixed p.1) _
      (hdata'.trans (List.append_assoc ..).symm) hstate
    have hrest := ih (pre ++ prefixed p.1 ++ prefixed p.2)
      (by rw [hdata']; simp) fun text ht => h text (List.mem_append_right _ ht)
    rw [List.length_cons, readSlots]
    simp only [hfirst, hsecond, hrest, bind, Except.bind]
    rfl

/-- Texts written one after another are read back one after another. -/
theorem readU8String_packTexts {data pre post : List UInt8} {texts : List String}
    (hdata : data = pre ++ (packTexts texts ++ post))
    (hshort : ∀ text ∈ texts, (utf8 text).length ≤ 255) (before : List String) (text : String)
    (after : List String) (h : texts = before ++ text :: after) :
    readU8String data (pre ++ packTexts before).length =
      .ok (text, (pre ++ packTexts (before ++ [text])).length) := by
  have hpost : data = pre ++ packTexts before ++ (prefixed text ++ (packTexts after ++ post)) := by
    rw [hdata, h]
    simp [packTexts_append]
  rw [readU8String_prefixed _ _ hpost (hshort text (h ▸ by simp))]
  simp [packTexts_append]

/-- What the octets behind the strings of the current layout are read as. -/
def readSlotList (payload : List UInt8) (offset : ℕ) : Parse (List (String × String)) :=
  if offset < payload.length then do
    let slotCount ← octetAt payload offset
    readSlots payload slotCount (offset + 1)
  else pure []

/-- `parse_info_payload` goes on with the slots there are. -/
theorem readSlotList_map {α : Type} (payload : List UInt8) (offset : ℕ)
    (f : List (String × String) → α) :
    (if offset < payload.length then do
        let slotCount ← octetAt payload offset
        let slots ← readSlots payload slotCount (offset + 1)
        pure (f slots)
      else do
        let slots ← pure []
        pure (f slots)) = (readSlotList payload offset).map f := by
  rw [readSlotList]
  by_cases hmore : offset < payload.length
  · rw [if_pos hmore, if_pos hmore]
    rcases octetAt payload offset with e | count
    · rfl
    · change (readSlots payload count (offset + 1) >>= fun slots => pure (f slots)) =
        (readSlots payload count (offset + 1)).map f
      cases readSlots payload count (offset + 1) <;> rfl
  · rw [if_neg hmore, if_neg hmore]
    rfl

/-- The strings of the current layout are read one after another, then the slots. -/
theorem parseFull_eq {data header post : List UInt8} {flag : UInt8}
    {s₁ s₂ s₃ s₄ s₅ s₆ s₇ : String} (hheader : header.length = 16)
    (hdata : data = header ++ [flag] ++ (packTexts [s₁, s₂, s₃, s₄, s₅, s₆, s₇] ++ post))
    (hshort : ∀ text ∈ [s₁, s₂, s₃, s₄, s₅, s₆, s₇], (utf8 text).length ≤ 255) :
    parseFull data = (readSlotList data
        (header ++ [flag] ++ packTexts [s₁, s₂, s₃, s₄, s₅, s₆, s₇]).length).map fun slots =>
      { Info.fixed data with
        rollbackPossible := flag.toNat != 0
        chipModel := s₁
        runningPartition := s₂
        bootPartition := s₃
        otaState := s₄
        idfVersion := s₅
        projectName := s₆
        buildDate := s₇
        otaSlots := slots } := by
  have hflag : octetAt data 16 = .ok flag.toNat := by
    rw [hdata, ← hheader, List.append_assoc, List.singleton_append, octetAt_append]
  -- Each string begins where the one before it ends.
  have hread := readU8String_packTexts hdata hshort
  have h₁ := hread [] s₁ _ rfl
  have h₂ := hread [s₁] s₂ _ rfl
  have h₃ := hread [s₁, s₂] s₃ _ rfl
  have h₄ := hread [s₁, s₂, s₃] s₄ _ rfl
  have h₅ := hread [s₁, s₂, s₃, s₄] s₅ _ rfl
  have h₆ := hread [s₁, s₂, s₃, s₄, s₅] s₆ _ rfl
  have h₇ := hread [s₁, s₂, s₃, s₄, s₅, s₆] s₇ _ rfl
  simp only [List.cons_append, List.nil_append] at h₁ h₂ h₃ h₄ h₅ h₆ h₇
  have hbegin : (header ++ [flag] ++ packTexts []).length = 16 + 1 := by
    simp [hheader]
  rw [hbegin] at h₁
  simp only [parseFull, hflag, h₁, h₂, h₃, h₄, h₅, h₆, h₇, Parse.ok_bind]
  exact readSlotList_map ..

/-- A slot list is read back. -/
theorem readSlotList_eq {data pre post : List UInt8} {slots : List (String × String)}
    (hdata : data = pre ++ UInt8.ofNat slots.length :: (packTexts (slotTexts slots) ++ post))
    (hshort : ∀ text ∈ slotTexts slots, (utf8 text).length ≤ 255) (hfew : slots.length ≤ 255) :
    readSlotList data pre.length = .ok slots := by
  have hcount : octetAt data pre.length = .ok slots.length := by
    rw [hdata, octetAt_append, UInt8.toNat_ofNat', Nat.mod_eq_of_lt (by omega)]
  have hslots := @readSlots_eq data post slots (pre ++ [UInt8.ofNat slots.length])
    (by rw [hdata, List.append_assoc, List.singleton_append]) hshort
  have hmore : pre.length < data.length := by
    rw [hdata, List.length_append, List.length_cons]
    omega
  rw [List.length_append, List.length_singleton] at hslots
  rw [readSlotList, if_pos hmore, hcount]
  exact hslots

/-- No slot list is read as no slots. -/
theorem readSlotList_end (data : List UInt8) : readSlotList data data.length = .ok [] := by
  rw [readSlotList, if_neg (lt_irrefl _)]
  rfl

/-- The fixed part of a description is read back. -/
theorem Info.fixed_encode (d : DeviceDescription) :
    Info.fixed d.encode = { Info.fixed [] with
      protocolVersion := d.info.protocolVersion
      firmware := d.info.firmware
      uptimeSeconds := d.info.uptimeSeconds
      freeHeap := d.info.freeHeap
      bootCount := d.info.bootCount } := by
  have huptime : (UInt32.ofNat (d.timerTime / 1000000)).toNat =
      d.timerTime / 1000000 % 2 ^ 32 := UInt32.toNat_ofNat'
  have hmod : d.timerTime / 1000000 % 2 ^ 32 < 2 ^ 32 := Nat.mod_lt _ (by decide)
  have h₄ : unpackU32 (d.encode.drop 4) = d.info.uptimeSeconds := by
    rw [← huptime] at hmod
    exact (unpackU32_packU32 hmod _).trans huptime
  have h₈ : unpackU32 (d.encode.drop 8) = d.info.freeHeap :=
    unpackU32_packU32 d.freeHeap.toNat_lt _
  have h₁₂ : unpackU32 (d.encode.drop 12) = d.info.bootCount :=
    unpackU32_packU32 d.bootCount.toNat_lt _
  rw [Info.fixed, h₄, h₈, h₁₂]
  rfl

/-- The label and the state of the slots. -/
def EspPartition.slot (p : EspPartition) : String × String :=
  (p.label.text, (otaStateName p.imgState).text)

theorem flatMap_str8 (strings : List CString) :
    strings.flatMap str8 = packTexts (strings.map CString.text) := by
  rw [packTexts, List.flatMap_map]
  rfl

theorem slotTexts_map (partitions : List EspPartition) :
    slotTexts ((otaSlots partitions).map EspPartition.slot) =
      (slotStrings partitions).map CString.text := by
  rw [slotTexts, slotStrings, List.flatMap_map, List.map_flatMap]
  rfl

/-- **The host reads the encoding of a description as the description.** -/
theorem parseInfoPayload_encode (d : DeviceDescription) (hshort : ∀ s ∈ d.reported, s.Short)
    (hmany : (otaSlots d.partitions).length ≤ 255) :
    parseInfoPayload d.encode = .ok d.info := by
  obtain ⟨hstrings, hslots⟩ := List.forall_mem_append.mp hshort
  have hlong : ¬ d.encode.length < 16 := by
    rw [DeviceDescription.encode, List.length_append, length_header]
    omega
  have hdata : d.encode = d.header.take 16 ++ [if d.rollbackIsPossible then 1 else 0] ++
      (packTexts (d.strings.map CString.text) ++ slotList d.partitions) := by
    rw [← flatMap_str8]
    rfl
  have hlist : slotList d.partitions =
      UInt8.ofNat ((otaSlots d.partitions).map EspPartition.slot).length ::
        (packTexts (slotTexts ((otaSlots d.partitions).map EspPartition.slot)) ++ []) := by
    rw [List.append_nil, List.length_map, slotTexts_map, ← flatMap_str8]
    rfl
  have hread : readSlotList d.encode (d.header.take 16 ++ [if d.rollbackIsPossible then 1 else 0] ++
      packTexts (d.strings.map CString.text)).length =
        .ok ((otaSlots d.partitions).map EspPartition.slot) := by
    refine readSlotList_eq (by rw [← hlist, hdata, List.append_assoc _ (packTexts _)]) ?_ (by simpa)
    rw [slotTexts_map, List.forall_mem_map]
    exact hslots
  have hshort : ∀ text ∈ d.strings.map CString.text, (utf8 text).length ≤ 255 :=
    List.forall_mem_map.mpr hstrings
  have hparse := parseFull_eq rfl hdata hshort
  have hflag : ((if d.rollbackIsPossible then 1 else 0 : UInt8).toNat != 0) =
      d.rollbackIsPossible := by
    cases d.rollbackIsPossible <;> rfl
  change parseFull d.encode = Except.map _ (readSlotList d.encode (d.header.take 16 ++ [_] ++
    packTexts (d.strings.map CString.text)).length) at hparse
  rw [hread] at hparse
  rw [parseInfoPayload, if_neg hlong, hparse, Info.fixed_encode, hflag]
  simp only [DeviceDescription.info]
  cases d.runningPartition <;> rfl

/-- **GET_INFO reaches the host unchanged.** Whatever the description and the buffer, the
encoder stays inside the buffer; it returns 0 exactly where the encoding does not fit, a
string does not fit its length octet or the slots do not fit their count; and what it writes
otherwise the host reads as the description. -/
theorem info_round_trip (d : DeviceDescription) {capacity : ℕ} (buffer : Buffer UInt8 capacity) :
    deviceInfoBuildPayload d buffer ≠ .error .fault ∧
    (deviceInfoBuildPayload d buffer = .error .zero ↔
      capacity < d.encode.length ∨ (∃ s ∈ d.reported, 255 < (utf8 s.text).length) ∨
        255 < (otaSlots d.partitions).length) ∧
    ∀ b n, deviceInfoBuildPayload d buffer = .ok (b, n) →
      n = d.encode.length ∧
      ∃ payload, b.read? 0 n = some payload ∧ parseInfoPayload payload = .ok d.info := by
  have hencodes : ¬ d.Encodes capacity ↔
      capacity < d.encode.length ∨ (∃ s ∈ d.reported, 255 < (utf8 s.text).length) ∨
        255 < (otaSlots d.partitions).length := by
    simp only [DeviceDescription.Encodes, CString.Short, not_and_or, not_forall, not_le,
      exists_prop]
  rw [← hencodes]
  rcases deviceInfoBuildPayload_spec d buffer with ⟨hgood, b, hb, hbegins⟩ | ⟨hbad, herr⟩
  · refine ⟨by simp [hb], by simp [hb, hgood], fun b' n h => ?_⟩
    rw [hb] at h
    cases h
    exact ⟨rfl, _, hbegins.read_all, parseInfoPayload_encode d hgood.2.1 hgood.2.2⟩
  · refine ⟨by simp [herr], by simp [herr, hbad], fun b' n h => ?_⟩
    rw [herr] at h
    cases h

end OtaLink
