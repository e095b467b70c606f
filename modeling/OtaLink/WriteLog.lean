import OtaLink.Session
import OtaLink.Replay

/-!
# The write log of a session

The chunks that `esp_ota_write` has accepted are the log of a session. The record
`ota_state_t` describes it: the count is the length of the log and the last chunk is its
last entry. So a call is accepted in two cases only, and the log says which: its chunk
begins where the log ends, or it is the last entry and begins where that entry does.

## Main definitions

* `chunks` — the log.
* `writeAll` — calls of `ota_manager_write_data` one after another.
* `Logged` — the record describes the log.
* `exact_write_log` — which calls are accepted, and what they do.
-/

namespace OtaLink
open Lib

variable {β : Type}

/-- The chunk an event adds to the log. -/
def Event.chunk? : Event β → Option (List β)
  | .otaWrite _ data true => some data
  | _ => none

/-- The chunks accepted by `esp_ota_write` among `events`, in order. -/
def chunks (events : List (Event β)) : List (List β) := events.filterMap Event.chunk?

@[simp] theorem chunks_nil : chunks ([] : List (Event β)) = [] := rfl
@[simp] theorem chunks_cons (e : Event β) (events : List (Event β)) :
    chunks (e :: events) = e.chunk?.toList ++ chunks events := by
  cases h : e.chunk? <;> simp [chunks, h]
@[simp] theorem chunks_append (xs ys : List (Event β)) :
    chunks (xs ++ ys) = chunks xs ++ chunks ys := List.filterMap_append

theorem Event.flatten_chunk? (e : Event β) : e.chunk?.toList.flatten = e.accepted := by
  cases e with
  | otaWrite handle data ok => cases ok <;> simp [Event.chunk?, Event.accepted]
  | _ => rfl

/-- The log holds the data that was written. -/
theorem flatten_chunks (events : List (Event β)) : (chunks events).flatten = written events := by
  induction events with
  | nil => rfl
  | cons e events ih => rw [chunks_cons, List.flatten_append, e.flatten_chunk?, ih, written_cons]

variable [Alphabet β]

/-- A call of `ota_manager_write_data` and the answers of the platform to it. -/
abbrev WriteCall (β : Type) := List β × EspIdf β

/-- The record and the trace after the calls, one after another. -/
def writeAll (s : OtaState β) : List (WriteCall β) → OtaState β × List (Event β)
  | [] => (s, [])
  | (payload, esp) :: calls =>
    ((writeAll ((otaManagerWriteData esp payload).state s) calls).1,
      (otaManagerWriteData esp payload).log s ++
        (writeAll ((otaManagerWriteData esp payload).state s) calls).2)

/-- The record `s` describes the log `cs` of the session that `s₀` has opened. -/
structure Logged (s₀ : OtaState β) (cs : List (List β)) (s : OtaState β) : Prop where
  active : s.active = true
  handle : s.handle = s₀.handle
  firmwareSize : s.firmwareSize = s₀.firmwareSize
  bytesReceived : s.bytesReceived = cs.flatten.length
  length_le : cs.flatten.length ≤ s.firmwareSize
  last : cs = [] ∧ s.lastChunkLength = 0 ∨ ∃ earlier c, cs = earlier ++ [c] ∧ c ≠ [] ∧
    c.length ≤ otaMaxChunkDataSize ∧ s.lastChunkOffset = earlier.flatten.length ∧
    s.lastChunkLength = c.length ∧ s.lastChunkData = c

/-- The chunk of a call begins where the log ends, and the platform takes it. -/
def Appends (size : ℕ) (cs : List (List β)) (payload : List β) (esp : EspIdf β) :
    Prop :=
  otaDataHeaderSize < payload.length ∧
    (payload.drop otaDataHeaderSize).length ≤ otaMaxChunkDataSize ∧
    readU32Le (payload.drop 4) = cs.flatten.length ∧
    cs.flatten.length + (payload.drop otaDataHeaderSize).length ≤ size ∧ esp.otaWrite = true

/-- The chunk of a call is the last one of the log, at its own offset. -/
def Repeats (cs : List (List β)) (payload : List β) : Prop :=
  ∃ earlier, cs = earlier ++ [payload.drop otaDataHeaderSize] ∧
    readU32Le (payload.drop 4) = earlier.flatten.length

/-- What a call of `ota_manager_write_data` does after the log `cs`. -/
structure Exact (cs : List (List β)) (s : OtaState β) (payload : List β) (esp : EspIdf β) :
    Prop where
  accepted_iff : (otaManagerWriteData esp payload).val s = .ok ↔
    Appends s.firmwareSize cs payload esp ∨ Repeats cs payload
  /-- A chunk at the end of the log is written there. -/
  appends : Appends s.firmwareSize cs payload esp →
    (otaManagerWriteData esp payload).log s =
        [.otaWrite s.handle (payload.drop otaDataHeaderSize) true] ∧
      ((otaManagerWriteData esp payload).state s).bytesReceived =
        s.bytesReceived + (payload.drop otaDataHeaderSize).length
  /-- The last chunk is not written again. -/
  repeats : Repeats cs payload → (otaManagerWriteData esp payload).log s = [] ∧
    (otaManagerWriteData esp payload).state s = s
  refused : (otaManagerWriteData esp payload).val s ≠ .ok →
    chunks ((otaManagerWriteData esp payload).log s) = [] ∧
      (otaManagerWriteData esp payload).state s = s
  /-- An accepted call can be repeated at once, whatever the platform answers. -/
  again : (otaManagerWriteData esp payload).val s = .ok → ∀ esp',
    (otaManagerWriteData esp' payload).val ((otaManagerWriteData esp payload).state s) = .ok ∧
      (otaManagerWriteData esp' payload).state ((otaManagerWriteData esp payload).state s) =
        (otaManagerWriteData esp payload).state s ∧
      (otaManagerWriteData esp' payload).log ((otaManagerWriteData esp payload).state s) = []

section Call
variable {s₀ s : OtaState β} {cs : List (List β)} {payload : List β} {esp : EspIdf β}

/-- The duplicate test of `ota_manager_write_data` finds the last entry of the log. -/
theorem Logged.isLastChunk_iff (h : Logged s₀ cs s) (hfit : s.firmwareSize < 2 ^ 32) (offset : ℕ)
    {data : List β} (hdata : data ≠ []) :
    s.isLastChunk offset data = true ↔
      ∃ earlier, cs = earlier ++ [data] ∧ offset = earlier.flatten.length := by
  have hle := h.length_le
  have hcount := h.bytesReceived
  simp only [OtaState.isLastChunk, Bool.and_eq_true, beq_iff_eq]
  rcases h.last with ⟨rfl, hzero⟩ | ⟨earlier, c, rfl, -, -, hoffset, hlength, hlast⟩
  · -- A record without a chunk has the length zero, which no chunk has.
    constructor
    · rintro ⟨⟨⟨-, hlen⟩, -⟩, -⟩
      exact absurd (List.length_eq_zero_iff.mp (hlen.trans hzero)) hdata
    · rintro ⟨earlier, hnil, -⟩
      simp at hnil
  · simp only [List.flatten_append, List.length_append, List.flatten_cons, List.flatten_nil,
      List.append_nil] at hle hcount
    constructor
    · rintro ⟨⟨⟨rfl, -⟩, -⟩, rfl⟩
      exact ⟨earlier, by rw [hlast], hoffset⟩
    · rintro ⟨earlier', heq, rfl⟩
      obtain ⟨rfl, hc⟩ := List.append_inj' heq rfl
      obtain rfl : c = data := by simpa using hc
      refine ⟨⟨⟨hoffset.symm, hlength.symm⟩, ?_⟩, hlast.symm⟩
      rw [hcount]
      exact Nat.mod_eq_of_lt (by omega)

/-- A repeated chunk is not empty, fits, and begins before the end of the log. -/
theorem Logged.of_repeats (h : Logged s₀ cs s) (hr : Repeats cs payload) :
    payload.drop otaDataHeaderSize ≠ [] ∧
      (payload.drop otaDataHeaderSize).length ≤ otaMaxChunkDataSize ∧
      readU32Le (payload.drop 4) < cs.flatten.length := by
  obtain ⟨earlier, rfl, hoffset⟩ := hr
  rcases h.last with ⟨hnil, -⟩ | ⟨earlier', c, heq, hne, hmax, -⟩
  · simp at hnil
  · obtain ⟨-, hc⟩ := List.append_inj' heq rfl
    obtain rfl : _ = c := by simpa using hc
    have := List.length_pos_iff.mpr hne
    refine ⟨hne, hmax, ?_⟩
    rw [hoffset, List.flatten_append, List.length_append, List.flatten_singleton]
    omega

/-- **The cases of a call.** It appends its chunk, or repeats the last one, or is refused
and changes nothing. -/
theorem Logged.cases (h : Logged s₀ cs s)
    (hfit : s.firmwareSize ≤ 2 ^ 32 - 1 - otaMaxChunkDataSize) (payload : List β)
    (esp : EspIdf β) :
    (Appends s.firmwareSize cs payload esp ∧ ¬Repeats cs payload ∧
      (otaManagerWriteData esp payload).val s = .ok ∧
      (otaManagerWriteData esp payload).state s = s.wrote (payload.drop otaDataHeaderSize) ∧
      (otaManagerWriteData esp payload).log s =
        [.otaWrite s.handle (payload.drop otaDataHeaderSize) true]) ∨
    (Repeats cs payload ∧ ¬Appends s.firmwareSize cs payload esp ∧
      (otaManagerWriteData esp payload).val s = .ok ∧
      (otaManagerWriteData esp payload).state s = s ∧
      (otaManagerWriteData esp payload).log s = []) ∨
    (¬Appends s.firmwareSize cs payload esp ∧ ¬Repeats cs payload ∧
      (otaManagerWriteData esp payload).val s ≠ .ok ∧
      (otaManagerWriteData esp payload).state s = s ∧
      chunks ((otaManagerWriteData esp payload).log s) = []) := by
  have hactive := h.active
  have hcount := h.bytesReceived
  have hle := h.length_le
  by_cases hl : payload.length ≤ otaDataHeaderSize
  · refine .inr (.inr ⟨fun ha => absurd ha.1 (by omega), fun hr => ?_, ?_⟩)
    · exact (h.of_repeats hr).1 (List.drop_eq_nil_of_le hl)
    · simp [otaManagerWriteData, hactive, hl]
  by_cases hm : otaMaxChunkDataSize < payload.length - otaDataHeaderSize
  · have hlen : (payload.drop otaDataHeaderSize).length = payload.length - otaDataHeaderSize :=
      List.length_drop
    refine .inr (.inr ⟨fun ha => ?_, fun hr => ?_, ?_⟩)
    · have := ha.2.1
      omega
    · have := (h.of_repeats hr).2.1
      omega
    · simp [otaManagerWriteData, hactive, hl, hm]
  by_cases hoff : readU32Le (payload.drop 4) = s.bytesReceived
  · -- The chunk begins where the log ends, so it is not the last one.
    have hnr : ¬Repeats cs payload := fun hr => by
      have := (h.of_repeats hr).2.2
      omega
    have hmod : (s.bytesReceived + (payload.length - otaDataHeaderSize)) % 2 ^ 32 =
        s.bytesReceived + (payload.length - otaDataHeaderSize) := by
      simp only [otaMaxChunkDataSize] at hfit hm
      exact Nat.mod_eq_of_lt (by omega)
    simp only [Nat.reducePow] at hmod
    by_cases hsum : s.firmwareSize < s.bytesReceived + (payload.length - otaDataHeaderSize)
    · refine .inr (.inr ⟨fun ha => ?_, hnr, ?_⟩)
      · have := ha.2.2.2.1
        rw [List.length_drop] at this
        omega
      · simp [otaManagerWriteData, hactive, hl, hm, hoff, hmod, hsum]
    · cases hok : esp.otaWrite
      · refine .inr (.inr ⟨fun ha => ?_, hnr, ?_⟩)
        · exact absurd ha.2.2.2.2 (by simp [hok])
        · simp [otaManagerWriteData, hactive, hl, hm, hoff, hmod, hsum, hok, Event.chunk?]
      · refine .inl ⟨⟨by omega, by rw [List.length_drop]; omega, by omega,
          by rw [List.length_drop]; omega, hok⟩, hnr, ?_⟩
        simp [otaManagerWriteData, hactive, hl, hm, hoff, hmod, hsum, hok]
  · have hna : ¬Appends s.firmwareSize cs payload esp := fun ha => hoff (ha.2.2.1.trans hcount.symm)
    have hdup := h.isLastChunk_iff (by simp only [otaMaxChunkDataSize] at hfit; omega)
      (readU32Le (payload.drop 4)) (fun hnil => hl (List.drop_eq_nil_iff.mp hnil))
    cases hd : s.isLastChunk (readU32Le (payload.drop 4)) (payload.drop otaDataHeaderSize)
    · refine .inr (.inr ⟨hna, fun hr => ?_, ?_⟩)
      · rw [hdup.mpr hr] at hd
        cases hd
      · simp [otaManagerWriteData, hactive, hl, hm, hoff, hd]
    · refine .inr (.inl ⟨hdup.mp hd, hna, ?_⟩)
      simp [otaManagerWriteData, hactive, hl, hm, hoff, hd]

/-- **One call keeps the description.** -/
theorem Logged.step (h : Logged s₀ cs s)
    (hfit : s.firmwareSize ≤ 2 ^ 32 - 1 - otaMaxChunkDataSize) (payload : List β)
    (esp : EspIdf β) :
    Logged s₀ (cs ++ chunks ((otaManagerWriteData esp payload).log s))
      ((otaManagerWriteData esp payload).state s) := by
  rcases h.cases hfit payload esp with
    ⟨ha, -, -, hs, hl⟩ | ⟨-, -, -, hs, hl⟩ | ⟨-, -, -, hs, hl⟩
  · obtain ⟨hlen, hmax, -, hsize, -⟩ := ha
    have hcount := h.bytesReceived
    have hne : payload.drop otaDataHeaderSize ≠ [] := fun hnil => by
      have := List.drop_eq_nil_iff.mp hnil
      omega
    rw [hs, hl]
    refine ⟨h.active, h.handle, h.firmwareSize, ?_, ?_,
      .inr ⟨cs, _, rfl, hne, hmax, hcount, rfl, rfl⟩⟩
    · simp only [OtaState.wrote, chunks_cons, Event.chunk?, Option.toList_some, chunks_nil,
        List.append_nil, List.flatten_append, List.length_append, List.flatten_singleton, hcount]
      simp only [otaMaxChunkDataSize] at hfit
      exact Nat.mod_eq_of_lt (by omega)
    · show _ ≤ s.firmwareSize
      simpa [Event.chunk?] using hsize
  · rw [hs, hl]
    simpa using h
  · rw [hs, hl]
    simpa using h

/-- **A call does what the log says.** -/
theorem Logged.exact (h : Logged s₀ cs s)
    (hfit : s.firmwareSize ≤ 2 ^ 32 - 1 - otaMaxChunkDataSize) : Exact cs s payload esp := by
  have hstep := h.step hfit payload esp
  have hsize : ((otaManagerWriteData esp payload).state s).firmwareSize = s.firmwareSize :=
    hstep.firmwareSize.trans h.firmwareSize.symm
  have hagain : ∀ esp', Repeats (cs ++ chunks ((otaManagerWriteData esp payload).log s)) payload →
      (otaManagerWriteData esp' payload).val ((otaManagerWriteData esp payload).state s) = .ok ∧
        (otaManagerWriteData esp' payload).state ((otaManagerWriteData esp payload).state s) =
          (otaManagerWriteData esp payload).state s ∧
        (otaManagerWriteData esp' payload).log ((otaManagerWriteData esp payload).state s) =
          [] := by
    intro esp' hr
    rcases hstep.cases (hsize ▸ hfit) payload esp' with
      ⟨-, hn, -⟩ | ⟨-, -, h⟩ | ⟨-, hn, -⟩
    · exact absurd hr hn
    · exact h
    · exact absurd hr hn
  rcases h.cases hfit payload esp with
    ⟨ha, hnr, hv, hs, hl⟩ | ⟨hr, hna, hv, hs, hl⟩ | ⟨hna, hnr, hv, hs, hl⟩
  · -- The chunk becomes the last one of the log.
    have hnext : Repeats (cs ++ chunks ((otaManagerWriteData esp payload).log s)) payload :=
      ⟨cs, by simp [hl, Event.chunk?], ha.2.2.1⟩
    have hcount : ((otaManagerWriteData esp payload).state s).bytesReceived =
        s.bytesReceived + (payload.drop otaDataHeaderSize).length := by
      rw [hstep.bytesReceived, h.bytesReceived, hl]
      simp [Event.chunk?]
    exact ⟨by simp [hv, ha], fun _ => ⟨hl, hcount⟩, fun hr => absurd hr hnr,
      fun hne => absurd hv hne, fun _ esp' => hagain esp' hnext⟩
  · have hnext : Repeats (cs ++ chunks ((otaManagerWriteData esp payload).log s)) payload := by
      simpa [hl] using hr
    exact ⟨by simp [hv, hr], fun ha => absurd ha hna, fun _ => ⟨hl, hs⟩,
      fun hne => absurd hv hne, fun _ esp' => hagain esp' hnext⟩
  · exact ⟨by simp [hv, hna, hnr], fun ha => absurd ha hna, fun hr => absurd hr hnr,
      fun _ => ⟨hl, hs⟩, fun hok => absurd hok hv⟩

end Call

/-- **All calls keep the description**, by induction on them. -/
theorem Logged.run {s₀ s : OtaState β} {cs : List (List β)} (h : Logged s₀ cs s)
    (hfit : s.firmwareSize ≤ 2 ^ 32 - 1 - otaMaxChunkDataSize) (calls : List (WriteCall β)) :
    Logged s₀ (cs ++ chunks (writeAll s calls).2) (writeAll s calls).1 := by
  induction calls generalizing s cs with
  | nil => simpa [writeAll] using h
  | cons call calls ih =>
    obtain ⟨payload, esp⟩ := call
    have hstep := h.step hfit payload esp
    have hsize : ((otaManagerWriteData esp payload).state s).firmwareSize = s.firmwareSize :=
      hstep.firmwareSize.trans h.firmwareSize.symm
    have hrest := ih hstep (hsize ▸ hfit)
    rwa [List.append_assoc, ← chunks_append] at hrest

/-- **Exact write log.** In the session of a successful `OTA_BEGIN`, after any calls with any
answers of the platform, the record counts the data that was written, within the announced
size, and the next call does what the log says. -/
theorem exact_write_log {announcement : List β} {esp₀ : EspIdf β} {s : OtaState β}
    (hb : (otaManagerBegin esp₀ announcement).val s = .ok)
    (hfit : readU32Le announcement ≤ 2 ^ 32 - 1 - otaMaxChunkDataSize)
    (calls : List (WriteCall β)) {r : OtaState β × List (Event β)}
    (hr : writeAll ((otaManagerBegin esp₀ announcement).state s) calls = r) :
    (written r.2).length = r.1.bytesReceived ∧ r.1.bytesReceived ≤ r.1.firmwareSize ∧
      r.1.firmwareSize = readU32Le announcement ∧
      ∀ payload esp, Exact (chunks r.2) r.1 payload esp := by
  subst hr
  rcases otaManagerBegin_cases esp₀ announcement s with
    ⟨hne, -⟩ | ⟨partition, handle, -, -, -, -, -, -, -, hs, -⟩
  · exact absurd hb hne
  rw [hs]
  generalize hs₀ : OtaState.opened (readU32Le announcement) (announcement.drop 4) handle partition =
    s₀
  have hsize : s₀.firmwareSize = readU32Le announcement := by rw [← hs₀]; rfl
  have hstart : Logged s₀ [] s₀ := by
    subst hs₀
    exact ⟨rfl, rfl, rfl, rfl, Nat.zero_le _, .inl ⟨rfl, rfl⟩⟩
  have hrun := hstart.run (hsize ▸ hfit) calls
  rw [List.nil_append] at hrun
  have hcount := hrun.bytesReceived
  have hle := hrun.length_le
  rw [flatten_chunks] at hcount hle
  exact ⟨hcount.symm, hcount ▸ hle, hrun.firmwareSize.trans hsize,
    fun payload esp => hrun.exact (by rw [hrun.firmwareSize, hsize]; exact hfit)⟩

/-- One octet at the start of a session of two. -/
def firstChunk : List Octet := le32 0 ++ le32 0 ++ octets [7]

/-- The announcement of two octets. -/
def twoOctets : List Octet := le32 2 ++ octets (List.replicate 32 9)

/-- The first chunk is accepted again. -/
theorem exact_write_log_firstChunk :
    (otaManagerWriteData sampleEsp firstChunk).val
      (writeAll ((otaManagerBegin sampleEsp twoOctets).state .cleared)
        [(firstChunk, sampleEsp)]).1 = .ok :=
  ((@exact_write_log _ _ twoOctets sampleEsp .cleared (by decide) (by decide)
    [(firstChunk, sampleEsp)] _ rfl).2.2.2 firstChunk sampleEsp).accepted_iff.mpr
      (.inr ⟨[], by decide, by decide⟩)

end OtaLink
