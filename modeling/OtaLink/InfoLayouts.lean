import OtaLink.InfoReadings

/-!
# The two layouts of an INFO payload

The layouts carry no tag. A payload in the current layout is read back whole, and so is what
is left of it when the slot list is missing. Cut anywhere else it is read in the legacy
layout, where the rollback flag counts as the length of the chip model; and a payload in the
legacy layout is read so only where its octets do not make up a current one.

## Main definitions

* `FixedInfo`, `CurrentInfo`, `LegacyInfo` — what the payloads of the two layouts say.
* `info_layouts` — what is read of each.
-/

namespace OtaLink

/-- What both layouts begin with. -/
structure FixedInfo where
  protocolVersion : UInt8
  major : UInt8
  minor : UInt8
  patch : UInt8
  uptime : UInt32
  freeHeap : UInt32
  bootCount : UInt32

/-- `"<BBBBIII"`. -/
def FixedInfo.encode (x : FixedInfo) : List UInt8 :=
  [x.protocolVersion, x.major, x.minor, x.patch] ++ packU32 x.uptime.toNat ++
    packU32 x.freeHeap.toNat ++ packU32 x.bootCount.toNat

def FixedInfo.firmware (x : FixedInfo) : String :=
  toString x.major.toNat ++ "." ++ toString x.minor.toNat ++ "." ++ toString x.patch.toNat

@[simp] theorem FixedInfo.length_encode (x : FixedInfo) : x.encode.length = 16 := rfl

/-- What a payload in the current layout says. -/
structure CurrentInfo where
  fixed : FixedInfo
  rollback : UInt8
  chipModel : String
  runningPartition : String
  bootPartition : String
  otaState : String
  idfVersion : String
  projectName : String
  buildDate : String
  otaSlots : List (String × String)
  short : ∀ text ∈ [chipModel, runningPartition, bootPartition, otaState, idfVersion, projectName,
    buildDate] ++ slotTexts otaSlots, (utf8 text).length ≤ 255
  few : otaSlots.length ≤ 255

/-- What a payload in the legacy layout says. -/
structure LegacyInfo where
  fixed : FixedInfo
  chipModel : String
  runningPartition : String
  idfVersion : String
  projectName : String
  buildDate : String
  short : ∀ text ∈ [chipModel, runningPartition, idfVersion, projectName, buildDate],
    (utf8 text).length ≤ 255

namespace CurrentInfo
variable (c : CurrentInfo)

def texts : List String := [c.chipModel, c.runningPartition, c.bootPartition, c.otaState,
  c.idfVersion, c.projectName, c.buildDate]

/-- The payload up to the build date. -/
def front : List UInt8 := c.fixed.encode ++ c.rollback :: packTexts c.texts

def encode : List UInt8 :=
  c.front ++ UInt8.ofNat c.otaSlots.length :: packTexts (slotTexts c.otaSlots)

/-- The dictionary it is to give. -/
def info : Info where
  protocolVersion := c.fixed.protocolVersion.toNat
  firmware := c.fixed.firmware
  uptimeSeconds := c.fixed.uptime.toNat
  freeHeap := c.fixed.freeHeap.toNat
  bootCount := c.fixed.bootCount.toNat
  rollbackPossible := c.rollback.toNat != 0
  chipModel := c.chipModel
  runningPartition := c.runningPartition
  bootPartition := c.bootPartition
  otaState := c.otaState
  otaSlots := c.otaSlots
  idfVersion := c.idfVersion
  projectName := c.projectName
  buildDate := c.buildDate

end CurrentInfo

namespace LegacyInfo
variable (l : LegacyInfo)

def texts : List String :=
  [l.chipModel, l.runningPartition, l.idfVersion, l.projectName, l.buildDate]

def encode : List UInt8 := l.fixed.encode ++ packTexts l.texts

/-- The dictionary it is to give. -/
def info : Info where
  protocolVersion := l.fixed.protocolVersion.toNat
  firmware := l.fixed.firmware
  uptimeSeconds := l.fixed.uptime.toNat
  freeHeap := l.fixed.freeHeap.toNat
  bootCount := l.fixed.bootCount.toNat
  rollbackPossible := false
  chipModel := l.chipModel
  runningPartition := l.runningPartition
  bootPartition := l.runningPartition
  otaState := "UNKNOWN"
  otaSlots := []
  idfVersion := l.idfVersion
  projectName := l.projectName
  buildDate := l.buildDate

end LegacyInfo

/-- What the legacy layout makes of a payload without rollback that is cut behind the OTA
state: each text moves on by one field. -/
def CurrentInfo.shifted (c : CurrentInfo) : LegacyInfo where
  fixed := c.fixed
  chipModel := ""
  runningPartition := c.chipModel
  idfVersion := c.runningPartition
  projectName := c.bootPartition
  buildDate := c.otaState
  short := by
    have h := c.short
    simp only [List.cons_append, List.nil_append, List.mem_cons, forall_eq_or_imp] at h ⊢
    exact ⟨by decide, h.1, h.2.1, h.2.2.1, h.2.2.2.1, by simp⟩

/-! ## Cutting packed texts -/

section Cut
variable {next : List UInt8 → Spans}

/-- One text in front. -/
theorem string_prefixed {text : String} (h : (utf8 text).length ≤ 255) (data : List UInt8) :
    string next (prefixed text ++ data) = (utf8 text :: (next data).1, (next data).2) := by
  have hlen : (UInt8.ofNat (utf8 text).length).toNat = (utf8 text).length := by
    rw [UInt8.toNat_ofNat', Nat.mod_eq_of_lt (by omega)]
  rw [prefixed, List.cons_append, string, hlen, if_neg (by simp), List.take_left, List.drop_left]

theorem strings_packTexts {texts : List String} (hshort : ∀ text ∈ texts, (utf8 text).length ≤ 255)
    (data : List UInt8) : strings texts.length next (packTexts texts ++ data) =
      (texts.map utf8 ++ (next data).1, (next data).2) := by
  induction texts with
  | nil => rfl
  | cons text texts ih =>
    obtain ⟨htext, hshort⟩ := List.forall_mem_cons.mp hshort
    rw [packTexts_cons, List.append_assoc, List.length_cons, strings, string_prefixed htext,
      ih hshort]
    rfl

/-- Packed texts of which something is missing are cut short, between texts. -/
theorem strings_cut {texts : List String} (hshort : ∀ text ∈ texts, (utf8 text).length ≤ 255) :
    ∀ {n : ℕ} {data : List UInt8}, texts.length ≤ n → data <+: packTexts texts →
    (texts.length < n ∨ data.length < (packTexts texts).length) →
    (∀ s ∈ (strings n next data).1, IsUtf8 s) ∧ (strings n next data).2 = false := by
  induction texts with
  | nil =>
    intro n data _ hdata hmissing
    obtain rfl := List.prefix_nil.mp hdata
    obtain ⟨n, rfl⟩ := Nat.exists_eq_succ_of_ne_zero (n := n) (by rintro rfl; simp at hmissing)
    exact ⟨by simp [strings, string], rfl⟩
  | cons text texts ih =>
    intro n data hn hdata hmissing
    obtain ⟨htext, hshort⟩ := List.forall_mem_cons.mp hshort
    obtain ⟨n, rfl⟩ := Nat.exists_eq_succ_of_ne_zero (n := n) (by rintro rfl; simp at hn)
    rw [packTexts_cons] at hdata hmissing
    rw [strings]
    by_cases hlong : (prefixed text).length ≤ data.length
    · obtain ⟨data, rfl⟩ := List.prefix_of_prefix_length_le (List.prefix_append ..) hdata hlong
      have hrest := @ih hshort n data (by simpa using hn)
        ((List.prefix_append_right_inj _).mp hdata) (by simpa using hmissing)
      rw [string_prefixed htext]
      exact ⟨List.forall_mem_cons.mpr ⟨⟨text, rfl⟩, hrest.1⟩, hrest.2⟩
    · rcases data with _ | ⟨length, data⟩
      · exact ⟨by simp [string], rfl⟩
      · have hhead := hdata
        rw [prefixed, List.cons_append, List.cons_prefix_cons] at hhead
        have hlen : length.toNat = (utf8 text).length := by
          rw [hhead.1, UInt8.toNat_ofNat', Nat.mod_eq_of_lt (by omega)]
        rw [length_prefixed, List.length_cons] at hlong
        rw [string, if_pos (by omega)]
        exact ⟨by simp, rfl⟩

end Cut

/-! ## What is read of each layout -/

/-- The fixed fields are read back, whatever follows. -/
theorem FixedInfo.fixed_append (x : FixedInfo) (data : List UInt8) :
    Info.fixed (x.encode ++ data) = { Info.fixed [] with
      protocolVersion := x.protocolVersion.toNat
      firmware := x.firmware
      uptimeSeconds := x.uptime.toNat
      freeHeap := x.freeHeap.toNat
      bootCount := x.bootCount.toNat } := by
  have h₄ : unpackU32 ((x.encode ++ data).drop 4) = x.uptime.toNat :=
    unpackU32_packU32 x.uptime.toNat_lt _
  have h₈ : unpackU32 ((x.encode ++ data).drop 8) = x.freeHeap.toNat :=
    unpackU32_packU32 x.freeHeap.toNat_lt _
  have h₁₂ : unpackU32 ((x.encode ++ data).drop 12) = x.bootCount.toNat :=
    unpackU32_packU32 x.bootCount.toNat_lt _
  rw [Info.fixed, h₄, h₈, h₁₂]
  rfl

/-- A payload that is cut short between texts is read in the legacy layout. -/
theorem parseInfoPayload_of_cut {payload : List UInt8} (h : 16 < payload.length)
    (hcut : (∀ s ∈ (currentSpans payload).1, IsUtf8 s) ∧ (currentSpans payload).2 = false) :
    parseInfoPayload payload = parseLegacy payload := by
  obtain ⟨flag, data, hdata⟩ : ∃ flag data, payload.drop 16 = flag :: data :=
    List.exists_cons_of_length_pos (by rw [List.length_drop]; omega)
  obtain ⟨e, he, hprotocol⟩ := (Reads.current (octetAt_of_drop hdata).1).cut hcut.1 hcut.2
  exact parseInfoPayload_of_protocolError (by omega) he hprotocol

namespace LegacyInfo
variable (l : LegacyInfo)

/-- The legacy reading, whatever follows. -/
theorem parseLegacy_append (data : List UInt8) : parseLegacy (l.encode ++ data) = .ok l.info := by
  have hdata : l.encode ++ data = l.fixed.encode ++ (packTexts l.texts ++ data) :=
    List.append_assoc ..
  have hread := readU8String_packTexts hdata l.short
  have h₁ := hread [] l.chipModel _ rfl
  have h₂ := hread [l.chipModel] l.runningPartition _ rfl
  have h₃ := hread [l.chipModel, l.runningPartition] l.idfVersion _ rfl
  have h₄ := hread [l.chipModel, l.runningPartition, l.idfVersion] l.projectName _ rfl
  have h₅ := hread [l.chipModel, l.runningPartition, l.idfVersion, l.projectName] l.buildDate _ rfl
  simp only [List.cons_append, List.nil_append] at h₁ h₂ h₃ h₄ h₅
  have hbegin : (l.fixed.encode ++ packTexts []).length = 16 := rfl
  rw [hbegin] at h₁
  simp only [parseLegacy, h₁, h₂, h₃, h₄, h₅, Parse.ok_bind]
  rw [hdata, l.fixed.fixed_append]
  rfl

/-- A prefix of the payload is too short. -/
theorem parseLegacy_prefix {p : List UInt8} (h : p <+: l.encode) (hlong : 16 ≤ p.length)
    (hshort : p.length < l.encode.length) :
    ∃ e, parseLegacy p = .error e ∧ e.isProtocolError = true := by
  obtain ⟨data, rfl⟩ := List.prefix_of_prefix_length_le (List.prefix_append ..) h
    (by rwa [l.fixed.length_encode])
  have hdata : (l.fixed.encode ++ data).drop 16 = data := rfl
  rw [encode, List.length_append, List.length_append] at hshort
  have hcut := @strings_cut finished l.texts l.short 5 data le_rfl
    ((List.prefix_append_right_inj _).mp h) (.inr (by omega))
  rw [← hdata] at hcut
  exact Reads.legacy.cut hcut.1 hcut.2

end LegacyInfo

namespace CurrentInfo
variable (c : CurrentInfo)

theorem texts_short : ∀ text ∈ c.texts, (utf8 text).length ≤ 255 :=
  fun text ht => c.short text (List.mem_append_left _ ht)

theorem slotTexts_short : ∀ text ∈ slotTexts c.otaSlots, (utf8 text).length ≤ 255 :=
  fun text ht => c.short text (List.mem_append_right _ ht)

theorem front_eq : c.front = c.fixed.encode ++ [c.rollback] ++ packTexts c.texts := by
  rw [front, List.append_assoc, List.singleton_append]

theorem length_front : c.front.length = 17 + (packTexts c.texts).length := by
  rw [front, List.length_append, List.length_cons, c.fixed.length_encode]
  omega

/-- The fixed fields and the texts, with the slots that are found behind them. -/
theorem parseInfoPayload_front {data : List UInt8} {slots : List (String × String)}
    (h : readSlotList (c.front ++ data) c.front.length = .ok slots) :
    parseInfoPayload (c.front ++ data) = .ok { c.info with otaSlots := slots } := by
  have hdata : c.front ++ data = c.fixed.encode ++ [c.rollback] ++ (packTexts c.texts ++ data) := by
    rw [front_eq, List.append_assoc]
  have hfull := parseFull_eq c.fixed.length_encode hdata c.texts_short
  change _ =
    (readSlotList _ (c.fixed.encode ++ [c.rollback] ++ packTexts c.texts).length).map _ at hfull
  rw [← front_eq, h] at hfull
  refine parseInfoPayload_of_ok (by rw [List.length_append, length_front]; omega) ?_
  rw [hfull, front, List.append_assoc, c.fixed.fixed_append]
  rfl

/-- The whole payload. -/
theorem parseInfoPayload_whole : parseInfoPayload c.encode = .ok c.info :=
  c.parseInfoPayload_front (readSlotList_eq (by rw [List.append_nil]) c.slotTexts_short c.few)

/-- The payload without its slot list. -/
theorem parseInfoPayload_noSlots :
    parseInfoPayload c.front = .ok { c.info with otaSlots := [] } := by
  have h := @parseInfoPayload_front c [] [] (by rw [List.append_nil]; exact readSlotList_end _)
  rwa [List.append_nil] at h

theorem length_slotTexts (slots : List (String × String)) :
    (slotTexts slots).length = 2 * slots.length := by
  induction slots with
  | nil => rfl
  | cons p slots ih =>
    rw [slotTexts, List.flatMap_cons, List.length_append, List.length_cons, ← slotTexts, ih]
    simp only [List.length_cons, List.length_nil]
    omega

/-- Cut anywhere else the payload is read in the legacy layout. -/
theorem parseInfoPayload_prefix {p : List UInt8} (h : p <+: c.encode) (hlong : 16 < p.length)
    (hwhole : p ≠ c.encode) (hfront : p ≠ c.front) : parseInfoPayload p = parseLegacy p := by
  have hencode : c.encode = c.fixed.encode ++ [c.rollback] ++ (packTexts c.texts ++
      UInt8.ofNat c.otaSlots.length :: packTexts (slotTexts c.otaSlots)) := by
    rw [encode, front_eq, List.append_assoc]
  have hlen : (c.fixed.encode ++ [c.rollback]).length = 17 := rfl
  refine parseInfoPayload_of_cut hlong ?_
  rw [hencode] at h
  obtain ⟨data, rfl⟩ := List.prefix_of_prefix_length_le (List.prefix_append ..) h
    (by rw [hlen]; exact hlong)
  replace h := (List.prefix_append_right_inj _).mp h
  rw [currentSpans, ← hlen, List.drop_left]
  by_cases hshort : data.length < (packTexts c.texts).length
  · exact strings_cut c.texts_short le_rfl
      (List.prefix_of_prefix_length_le h (List.prefix_append ..) hshort.le) (.inr hshort)
  obtain ⟨data, rfl⟩ := List.prefix_of_prefix_length_le (List.prefix_append ..) h (by omega)
  replace h := (List.prefix_append_right_inj _).mp h
  rcases data with _ | ⟨count, data⟩
  · rw [List.append_nil, ← front_eq] at hfront
    exact absurd rfl hfront
  obtain ⟨rfl, hdata⟩ := List.cons_prefix_cons.mp h
  have hcount : (UInt8.ofNat c.otaSlots.length).toNat = c.otaSlots.length := by
    have hfew := c.few
    rw [UInt8.toNat_ofNat', Nat.mod_eq_of_lt (by omega)]
  have hmissing : data.length < (packTexts (slotTexts c.otaSlots)).length := by
    refine lt_of_le_of_ne hdata.length_le fun heq => hwhole ?_
    rw [hencode, hdata.eq_of_length heq]
  have hcut := @strings_cut finished _ c.slotTexts_short (2 * c.otaSlots.length) data
    (by rw [length_slotTexts]) hdata (.inr hmissing)
  have hspans := @strings_packTexts slotSpans _ c.texts_short
    (UInt8.ofNat c.otaSlots.length :: data)
  rw [slotSpans, hcount] at hspans
  rw [show (7 : ℕ) = c.texts.length from rfl, hspans]
  refine ⟨List.forall_mem_append.mpr ⟨?_, hcut.1⟩, hcut.2⟩
  intro s hs
  obtain ⟨text, -, rfl⟩ := List.mem_map.mp hs
  exact ⟨text, rfl⟩

/-- Without the rollback flag the payload begins like the shifted one. -/
theorem shifted_encode_prefix (h : c.rollback = 0) : c.shifted.encode <+: c.encode := by
  refine ⟨packTexts [c.idfVersion, c.projectName, c.buildDate] ++
    UInt8.ofNat c.otaSlots.length :: packTexts (slotTexts c.otaSlots), ?_⟩
  have hempty : prefixed "" = [0] := rfl
  simp only [LegacyInfo.encode, LegacyInfo.texts, shifted, encode, front, texts, h, packTexts_cons,
    packTexts_nil, hempty, List.append_assoc, List.cons_append, List.nil_append]

/-- Without the rollback flag a payload that is cut before the end of the OTA state is
refused, and one that is cut behind it is read with each text in the next field. -/
theorem parseLegacy_shifted (hrollback : c.rollback = 0) {p : List UInt8} (h : p <+: c.encode)
    (hlong : 16 ≤ p.length) :
    (p.length < c.shifted.encode.length →
      ∃ e, parseLegacy p = .error e ∧ e.isProtocolError = true) ∧
    (c.shifted.encode.length ≤ p.length → parseLegacy p = .ok c.shifted.info) := by
  have hshifted := c.shifted_encode_prefix hrollback
  refine ⟨fun hlt => ?_, fun hle => ?_⟩
  · exact c.shifted.parseLegacy_prefix (List.prefix_of_prefix_length_le h hshifted hlt.le) hlong hlt
  · obtain ⟨data, rfl⟩ := List.prefix_of_prefix_length_le hshifted h hle
    exact c.shifted.parseLegacy_append data

end CurrentInfo

/-! ## The legacy layout -/

/-- A value that a reading returns has the property. -/
def Returns {α : Type} (P : α → Prop) (r : Parse α) : Prop := ∀ a, r = .ok a → P a

theorem Returns.bind {α β : Type} {P : β → Prop} {x : Parse α} {f : α → Parse β}
    (h : ∀ a, Returns P (f a)) : Returns P (x >>= f) := by
  rcases x with e | a
  · intro b hb
    cases hb
  · exact h a

/-- The octet behind the fixed fields is the rollback flag. -/
theorem returns_rollback {payload : List UInt8} {flag : ℕ} (h : octetAt payload 16 = .ok flag) :
    Returns (fun info => info.rollbackPossible = (flag != 0)) (parseFull payload) := by
  rw [parseFull, h, Parse.ok_bind]
  refine .bind fun _ => .bind fun _ => .bind fun _ => .bind fun _ => .bind fun _ => .bind fun _ =>
    .bind fun x => ?_
  intro info hinfo
  have hlist := (readSlotList_map payload x.2 _).symm.trans hinfo
  rcases hslots : readSlotList payload x.2 with e | slots <;> rw [hslots] at hlist
  · cases hlist
  · cases hlist
    rfl

/-- **A payload in the legacy layout is read so exactly where its octets, read in the current
layout, are cut short between texts.** -/
theorem LegacyInfo.parseInfoPayload_iff (l : LegacyInfo) :
    parseInfoPayload l.encode = .ok l.info ↔
      (∀ s ∈ (currentSpans l.encode).1, IsUtf8 s) ∧ (currentSpans l.encode).2 = false := by
  have hflag : l.encode.drop 16 = UInt8.ofNat (utf8 l.chipModel).length :: (utf8 l.chipModel ++
      packTexts [l.runningPartition, l.idfVersion, l.projectName, l.buildDate]) := rfl
  obtain ⟨hoctet, hlen, hdata⟩ := octetAt_of_drop hflag
  have hlong : 16 < l.encode.length := by omega
  have hlegacy : parseLegacy l.encode = .ok l.info := by
    have h := l.parseLegacy_append []
    rwa [List.append_nil] at h
  refine ⟨fun h => ?_, fun h => (parseInfoPayload_of_cut hlong h).trans hlegacy⟩
  have hfull := Reads.current hoctet
  have hall : ∀ s ∈ (currentSpans l.encode).1, IsUtf8 s := by
    by_contra hnot
    simp only [not_forall, exists_prop] at hnot
    rw [parseInfoPayload_of_other (by omega) (hfull.invalid hnot) rfl] at h
    cases h
  refine ⟨hall, Bool.eq_false_iff.mpr fun hend => ?_⟩
  obtain ⟨info, hinfo⟩ := hfull.complete hall hend
  rw [parseInfoPayload_of_ok (by omega) hinfo] at h
  cases h
  -- The flag the legacy reading reports is off, so the chip model is empty; then four texts
  -- are left where the current layout has seven.
  have hoff := returns_rollback hoctet _ hinfo
  have hzero : (UInt8.ofNat (utf8 l.chipModel).length).toNat = 0 := by
    simpa [info, Info.fixed] using hoff
  have hempty : utf8 l.chipModel = [] := by
    have hshort : (utf8 l.chipModel).length ≤ 255 := l.short _ (by simp)
    rw [UInt8.toNat_ofNat', Nat.mod_eq_of_lt (by omega)] at hzero
    exact List.length_eq_zero_iff.mp hzero
  rw [hempty, List.nil_append] at hdata
  have hcut := @strings_cut slotSpans [l.runningPartition, l.idfVersion, l.projectName, l.buildDate]
    (fun text ht => l.short text (List.mem_cons_of_mem _ ht)) 7 _ (by simp) List.prefix_rfl
    (.inl (by simp))
  rw [← hdata] at hcut
  rw [currentSpans, hcut.2] at hend
  cases hend

/-- **What is read of each layout.** A payload in the current layout is read back, and without
its slot list it is read back without slots. A shorter one is too short below 16 octets, and
above 16 it gives what the legacy layout finds in the same octets: without the rollback flag
that is an error up to the end of the OTA state, and from there on each text in the next
field. A payload in the legacy layout is read so exactly where the current layout finds its
octets cut short between texts. -/
theorem info_layouts :
    (∀ c : CurrentInfo, parseInfoPayload c.encode = .ok c.info ∧
      parseInfoPayload c.front = .ok { c.info with otaSlots := [] } ∧
      ∀ p, p <+: c.encode →
        (p.length < 16 → parseInfoPayload p = .error .tooShort) ∧
        (16 < p.length → p ≠ c.encode → p ≠ c.front →
          parseInfoPayload p = parseLegacy p ∧
          (c.rollback = 0 → p.length < c.shifted.encode.length →
            ∃ e, parseInfoPayload p = .error e ∧ e.isProtocolError = true) ∧
          (c.rollback = 0 → c.shifted.encode.length ≤ p.length →
            parseInfoPayload p = .ok c.shifted.info))) ∧
    ∀ l : LegacyInfo, parseLegacy l.encode = .ok l.info ∧
      (parseInfoPayload l.encode = .ok l.info ↔
        (∀ s ∈ (currentSpans l.encode).1, IsUtf8 s) ∧ (currentSpans l.encode).2 = false) := by
  refine ⟨fun c => ⟨c.parseInfoPayload_whole, c.parseInfoPayload_noSlots, fun p hp =>
    ⟨fun hshort => ?_, fun hlong hwhole hfront => ?_⟩⟩, fun l => ⟨?_, l.parseInfoPayload_iff⟩⟩
  · rw [parseInfoPayload, if_pos hshort]
  · have hlegacy := c.parseInfoPayload_prefix hp hlong hwhole hfront
    rw [hlegacy]
    exact ⟨rfl, fun h => (c.parseLegacy_shifted h hp hlong.le).1,
      fun h => (c.parseLegacy_shifted h hp hlong.le).2⟩
  · have h := l.parseLegacy_append []
    rwa [List.append_nil] at h

/-- A device without rollback and without slots. -/
def plainInfo : CurrentInfo where
  fixed := ⟨1, 1, 2, 3, 60, 200000, 7⟩
  rollback := 0
  chipModel := "ESP32"
  runningPartition := "ota_0"
  bootPartition := "ota_0"
  otaState := "VALID"
  idfVersion := "v5.3"
  projectName := "esp32_ota_link"
  buildDate := "Aug 29 2026"
  otaSlots := []
  short := by decide
  few := by decide

/-- A legacy payload whose chip model reads as three texts. -/
def ambiguousInfo : LegacyInfo where
  fixed := ⟨1, 1, 2, 3, 60, 200000, 7⟩
  chipModel := "\x01a\x01b\x01c"
  runningPartition := "ota_0"
  idfVersion := "v5.3"
  projectName := "esp32_ota_link"
  buildDate := "Aug 29 2026"
  short := by decide

/-- Cut behind the OTA state the first payload gives an empty chip model, and the second is
read in the current layout. -/
theorem info_layouts_ambiguous :
    ¬ ((∀ (c : CurrentInfo) (p : List UInt8), p <+: c.encode →
        (∃ e, parseInfoPayload p = .error e ∧ e.isProtocolError = true) ∨
          parseInfoPayload p = .ok c.info ∨
          parseInfoPayload p = .ok { c.info with otaSlots := [] }) ∨
      ∀ l : LegacyInfo, parseInfoPayload l.encode = .ok l.info) := by
  rintro (h | h)
  · have hp := plainInfo.shifted_encode_prefix rfl
    have hread : parseInfoPayload plainInfo.shifted.encode = .ok plainInfo.shifted.info := by
      rw [plainInfo.parseInfoPayload_prefix hp (by decide) (by decide) (by decide)]
      exact (plainInfo.parseLegacy_shifted rfl hp (by decide)).2 le_rfl
    have hbad := h plainInfo _ hp
    rw [hread] at hbad
    rcases hbad with ⟨e, he, -⟩ | hsame | hsame
    · cases he
    · exact absurd (congrArg Info.chipModel (Except.ok.inj hsame)) (by decide)
    · exact absurd (congrArg Info.chipModel (Except.ok.inj hsame)) (by decide)
  · have hend : (currentSpans ambiguousInfo.encode).2 = false :=
      ((LegacyInfo.parseInfoPayload_iff ambiguousInfo).mp (h ambiguousInfo)).2
    exact absurd hend (by decide)

end OtaLink
