import OtaLink.InfoPayload

/-!
# The two readings of an INFO payload

`parse_info_payload` reads every payload in the current layout, and once more in the legacy
layout where that ends in a `ProtocolError`. What the strings are is settled by their length
octets alone; decoding comes after. So a payload is cut into strings first, and the outcome
of a reading follows from the cut.

## Main definitions

* `string`, `strings`, `currentSpans`, `legacySpans` — the cut.
* `Reads` — the outcome of a reading, with a rule for each way of building one.
* `info_discipline` — the payloads on which only a `ProtocolError` can escape.
-/

namespace OtaLink

/-! ## Cutting a payload into strings -/

/-- The octets of the strings a reading comes to, and whether it comes to an end. -/
abbrev Spans := List (List UInt8) × Bool

/-- Nothing is left to read. -/
def finished (_ : List UInt8) : Spans := ([], true)

/-- One string, then what follows it. -/
def string (next : List UInt8 → Spans) : List UInt8 → Spans
  | [] => ([], false)
  | length :: data =>
    if data.length < length.toNat then ([], false)
    else ((data.take length.toNat) :: (next (data.drop length.toNat)).1,
      (next (data.drop length.toNat)).2)

/-- So many strings, then what follows them. -/
def strings : ℕ → (List UInt8 → Spans) → List UInt8 → Spans
  | 0, next => next
  | n + 1, next => string (strings n next)

/-- The slot list, if there is one. -/
def slotSpans : List UInt8 → Spans
  | [] => ([], true)
  | slotCount :: data => strings (2 * slotCount.toNat) finished data

/-- The cut of the current layout. -/
def currentSpans (payload : List UInt8) : Spans := strings 7 slotSpans (payload.drop 17)

/-- The cut of the legacy layout. -/
def legacySpans (payload : List UInt8) : Spans := strings 5 finished (payload.drop 16)

/-- The strings that are decoded: those of the current layout, and where it does not come
to an end those of the legacy layout. -/
def stringsRead (payload : List UInt8) : List (List UInt8) :=
  (currentSpans payload).1 ++ if (currentSpans payload).2 then [] else (legacySpans payload).1

/-- The octets are a text in UTF-8. -/
def IsUtf8 (octets : List UInt8) : Prop := ∃ text, utf8 text = octets

/-! ## The outcome of a reading -/

/-- A reading that comes to these strings decodes each of them, and ends in a
`ProtocolError` where it is cut short. -/
structure Reads {α : Type} (spans : Spans) (r : Parse α) : Prop where
  invalid : (∃ s ∈ spans.1, ¬ IsUtf8 s) → r = .error .unicode
  complete : (∀ s ∈ spans.1, IsUtf8 s) → spans.2 = true → ∃ a, r = .ok a
  cut : (∀ s ∈ spans.1, IsUtf8 s) → spans.2 = false →
    ∃ e, r = .error e ∧ e.isProtocolError = true

theorem decodeUtf8_eq_ok {octets : List UInt8} {text : String} :
    decodeUtf8 octets = .ok text ↔ utf8 text = octets := by
  constructor
  · intro h
    rw [decodeUtf8, String.fromUTF8?] at h
    split at h
    · cases h
    · rename_i heq
      split at heq
      · cases heq
        cases h
        rfl
      · cases heq
  · rintro rfl
    exact decodeUtf8_utf8 text

theorem decodeUtf8_eq_error {octets : List UInt8} (h : ¬ IsUtf8 octets) :
    decodeUtf8 octets = .error .unicode := by
  rcases hd : decodeUtf8 octets with e | text
  · rw [decodeUtf8] at hd
    split at hd <;> cases hd
    rfl
  · exact absurd ⟨text, decodeUtf8_eq_ok.mp hd⟩ h

/-- `readU8String`, by the octets at the offset. -/
theorem readU8String_nil {payload : List UInt8} {offset : ℕ} (h : payload.drop offset = []) :
    readU8String payload offset = .error .missingStringLength := by
  rw [readU8String, if_pos (List.drop_eq_nil_iff.mp h)]
  rfl

theorem octetAt_of_drop {payload data : List UInt8} {offset : ℕ} {x : UInt8}
    (h : payload.drop offset = x :: data) : octetAt payload offset = .ok x.toNat ∧
      payload.length = offset + 1 + data.length ∧ payload.drop (offset + 1) = data := by
  have hlt : offset < payload.length := by
    by_contra hge
    rw [List.drop_eq_nil_of_le (by omega)] at h
    cases h
  refine ⟨?_, ?_, ?_⟩
  · have hget : (payload.drop offset)[0]? = payload[offset + 0]? := List.getElem?_drop
    rw [h, Nat.add_zero] at hget
    rw [octetAt, ← hget]
    rfl
  · have hlen := congrArg List.length h
    rw [List.length_drop, List.length_cons] at hlen
    omega
  · rw [← List.drop_drop, h]
    rfl

theorem readU8String_cons {payload data : List UInt8} {offset : ℕ} {length : UInt8}
    (h : payload.drop offset = length :: data) :
    readU8String payload offset = if data.length < length.toNat then .error .truncatedString
      else (decodeUtf8 (data.take length.toNat)).map fun text =>
        (text, offset + 1 + length.toNat) := by
  obtain ⟨hoctet, hlen, hdrop⟩ := octetAt_of_drop h
  rw [readU8String, if_neg (by omega), hoctet]
  simp only [bind, Except.bind]
  by_cases hshort : data.length < length.toNat
  · rw [if_pos (by omega), if_pos hshort]
    rfl
  · rw [if_neg (by omega), if_neg hshort, Nat.add_sub_cancel_left, hdrop]
    cases decodeUtf8 (data.take length.toNat) <;> rfl

namespace Reads
variable {α β : Type} {payload : List UInt8} {next : List UInt8 → Spans} {spans : Spans}

theorem pure (a : α) : Reads ([], true) (Except.ok a : Parse α) :=
  ⟨by simp, fun _ _ => ⟨a, rfl⟩, by simp⟩

theorem map {r : Parse α} (f : α → β) (h : Reads spans r) : Reads spans (r.map f) := by
  refine ⟨fun hs => ?_, fun hs hend => ?_, fun hs hend => ?_⟩
  · rw [h.invalid hs]
    rfl
  · obtain ⟨a, ha⟩ := h.complete hs hend
    exact ⟨f a, by rw [ha]; rfl⟩
  · obtain ⟨e, he, hprotocol⟩ := h.cut hs hend
    exact ⟨e, by rw [he]; rfl, hprotocol⟩

/-- **The rule of a string.** -/
theorem string {f : String × ℕ → Parse α} {offset : ℕ}
    (hf : ∀ text stop, Reads (next (payload.drop stop)) (f (text, stop))) :
    Reads (string next (payload.drop offset)) (readU8String payload offset >>= f) := by
  rcases hdata : payload.drop offset with _ | ⟨length, data⟩
  · rw [readU8String_nil hdata]
    exact ⟨by simp [OtaLink.string], by simp [OtaLink.string], fun _ _ => ⟨_, rfl, rfl⟩⟩
  rw [readU8String_cons hdata, OtaLink.string]
  by_cases hshort : data.length < length.toNat
  · rw [if_pos hshort, if_pos hshort]
    exact ⟨by simp, by simp, fun _ _ => ⟨_, rfl, rfl⟩⟩
  rw [if_neg hshort, if_neg hshort]
  have hdrop : payload.drop (offset + 1 + length.toNat) = data.drop length.toNat := by
    rw [Nat.add_assoc, ← List.drop_drop, hdata, Nat.add_comm, List.drop_succ_cons]
  by_cases hutf8 : IsUtf8 (data.take length.toNat)
  · obtain ⟨text, htext⟩ := hutf8
    have hrest := hf text (offset + 1 + length.toNat)
    rw [hdrop] at hrest
    rw [decodeUtf8_eq_ok.mpr htext]
    refine ⟨?_, ?_, ?_⟩
    · rintro ⟨s, hs, hnot⟩
      rcases List.mem_cons.mp hs with rfl | hs
      · exact absurd ⟨text, htext⟩ hnot
      · exact hrest.invalid ⟨s, hs, hnot⟩
    · exact fun hs hend => hrest.complete (List.forall_mem_cons.mp hs).2 hend
    · exact fun hs hend => hrest.cut (List.forall_mem_cons.mp hs).2 hend
  · rw [decodeUtf8_eq_error hutf8]
    refine ⟨fun _ => rfl, ?_, ?_⟩ <;>
      exact fun hs _ => absurd (List.forall_mem_cons.mp hs).1 hutf8

/-- The slots: two strings for each. -/
theorem slots (n : ℕ) : ∀ offset, Reads (strings (2 * n) finished (payload.drop offset))
    (readSlots payload n offset) := by
  induction n with
  | zero => exact fun _ => pure []
  | succ n ih =>
    intro offset
    refine string fun label stop => string fun state stop' => ?_
    exact (ih stop').map fun slots => (label, state) :: slots

theorem slotList (offset : ℕ) : Reads (slotSpans (payload.drop offset))
    (readSlotList payload offset) := by
  rw [readSlotList]
  rcases hdata : payload.drop offset with _ | ⟨slotCount, data⟩
  · have hge := List.drop_eq_nil_iff.mp hdata
    rw [if_neg (by omega)]
    exact pure []
  · obtain ⟨hoctet, hlen, rfl⟩ := octetAt_of_drop hdata
    rw [if_pos (by omega), hoctet]
    exact slots slotCount.toNat (offset + 1)

theorem current {rollback : ℕ} (h : octetAt payload 16 = .ok rollback) :
    Reads (currentSpans payload) (parseFull payload) := by
  rw [parseFull, h, Parse.ok_bind]
  refine string fun _ _ => string fun _ _ => string fun _ _ => string fun _ _ =>
    string fun _ _ => string fun _ _ => string fun _ offset => ?_
  have hlist := @slotList payload offset
  refine cast (congrArg _ (readSlotList_map payload offset _).symm) (hlist.map _)

theorem legacy : Reads (legacySpans payload) (parseLegacy payload) :=
  string fun _ _ => string fun _ _ => string fun _ _ => string fun _ _ => string fun _ _ => pure _

end Reads

/-! ## What can escape -/

/-- No exception but a `ProtocolError` escapes. -/
def Disciplined (r : Parse Info) : Prop :=
  (∃ info, r = .ok info) ∨ ∃ e, r = .error e ∧ e.isProtocolError = true

/-- Where the current layout comes to an end its reading stands. -/
theorem parseInfoPayload_of_ok {payload : List UInt8} (h : ¬ payload.length < 16) {info : Info}
    (hfull : parseFull payload = .ok info) : parseInfoPayload payload = .ok info := by
  rw [parseInfoPayload, if_neg h, hfull]

/-- Where it ends in a `ProtocolError` the legacy layout is read. -/
theorem parseInfoPayload_of_protocolError {payload : List UInt8} (h : ¬ payload.length < 16)
    {e : InfoError} (hfull : parseFull payload = .error e) (he : e.isProtocolError = true) :
    parseInfoPayload payload = parseLegacy payload := by
  rw [parseInfoPayload, if_neg h, hfull]
  simp only [he, if_true]

theorem parseInfoPayload_of_other {payload : List UInt8} (h : ¬ payload.length < 16)
    {e : InfoError} (hfull : parseFull payload = .error e) (he : e.isProtocolError = false) :
    parseInfoPayload payload = .error e := by
  rw [parseInfoPayload, if_neg h, hfull]
  simp [he]

theorem Disciplined.iff {e : InfoError} :
    Disciplined (.error e) ↔ e.isProtocolError = true := by
  simp [Disciplined]

theorem Disciplined.ok (info : Info) : Disciplined (.ok info) := .inl ⟨info, rfl⟩

/-- An outcome is disciplined where every string is a text. -/
theorem Reads.disciplined_iff {spans : Spans} {r : Parse Info} (h : Reads spans r) :
    Disciplined r ↔ ∀ s ∈ spans.1, IsUtf8 s := by
  by_cases hall : ∀ s ∈ spans.1, IsUtf8 s
  · refine iff_of_true ?_ hall
    rcases hend : spans.2 with _ | _
    · exact .inr (h.cut hall hend)
    · exact .inl (h.complete hall hend)
  · refine iff_of_false ?_ hall
    simp only [not_forall, exists_prop] at hall
    rw [h.invalid hall, Disciplined.iff]
    decide

/-- **INFO decoding raises nothing but `ProtocolError`, except** on a payload of exactly 16
octets, where the rollback flag is looked up behind the end, and on one that has a string
which is not UTF-8 where the reader comes to it. -/
theorem info_discipline (payload : List UInt8) :
    Disciplined (parseInfoPayload payload) ↔
      payload.length ≠ 16 ∧ ∀ s ∈ stringsRead payload, IsUtf8 s := by
  rcases Nat.lt_trichotomy payload.length 16 with hlt | heq | hgt
  · have hnone : stringsRead payload = [] := by
      rw [stringsRead, currentSpans, legacySpans, List.drop_eq_nil_of_le (by omega),
        List.drop_eq_nil_of_le (by omega)]
      rfl
    rw [parseInfoPayload, if_pos hlt, hnone, Disciplined.iff]
    exact iff_of_true rfl ⟨by omega, by simp⟩
  · have hindex : octetAt payload 16 = .error .index := by
      rw [octetAt, List.getElem?_eq_none (by omega)]
    have hfull : parseFull payload = .error .index := by
      rw [parseFull, hindex]
      rfl
    rw [parseInfoPayload_of_other (by omega) hfull rfl, Disciplined.iff]
    exact iff_of_false (by decide) fun h => h.1 heq
  · obtain ⟨flag, data, hdata⟩ : ∃ flag data, payload.drop 16 = flag :: data :=
      List.exists_cons_of_length_pos (by rw [List.length_drop]; omega)
    have hfull := Reads.current (octetAt_of_drop hdata).1
    have hlong : ¬ payload.length < 16 := by omega
    rw [and_iff_right (by omega), stringsRead, List.forall_mem_append]
    by_cases hall : ∀ s ∈ (currentSpans payload).1, IsUtf8 s
    swap
    · have hexists := hall
      simp only [not_forall, exists_prop] at hexists
      rw [parseInfoPayload_of_other hlong (hfull.invalid hexists) rfl, Disciplined.iff]
      exact iff_of_false (by decide) fun h => hall h.1
    rw [and_iff_right hall]
    rcases hend : (currentSpans payload).2 with _ | _
    · obtain ⟨e, he, hprotocol⟩ := hfull.cut hall hend
      rw [parseInfoPayload_of_protocolError hlong he hprotocol, Reads.legacy.disciplined_iff]
      rfl
    · obtain ⟨info, hinfo⟩ := hfull.complete hall hend
      rw [parseInfoPayload_of_ok hlong hinfo]
      exact iff_of_true (.ok info) (by simp)

/-- Sixteen zero octets make an `IndexError` escape. -/
theorem info_discipline_sixteen : ¬ ∀ payload, Disciplined (parseInfoPayload payload) := by
  intro h
  have hrun : parseInfoPayload (List.replicate 16 0) = .error .index := rfl
  have hbad := h (List.replicate 16 0)
  rw [hrun, Disciplined.iff] at hbad
  exact absurd hbad (by decide)

end OtaLink
