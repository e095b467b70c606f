import OtaLink.Decoders

/-!
# Where decoded packets come from

A packet that a decoder hands on is the decoding of a segment of the stream: the magic, a
header, the payload it announces and the checksum of both. The segments lie one after
another, so no octet is used twice.

## Main definitions

* `segment` — the octets a packet is the decoding of.
* `scan_segments` — what the decoders hand on lies in the stream.
* `chunking_invariant` — however the stream is cut, the host reads the same.
-/

namespace OtaLink
open Lib

/-! ## Segments -/

/-- What the checksum of the packet covers. -/
def segmentBody (p : Packet UInt8) : List UInt8 :=
  [p.version, p.command] ++ packU16 p.sequence.toNat ++ packU16 p.payload.length ++ p.payload

/-- The octets that decode to the packet. -/
def segment (p : Packet UInt8) : List UInt8 := framed (segmentBody p)

/-- The frame of an encoder is the segment of its packet. -/
theorem segment_framedPacket (command : UInt8) (sequence : UInt16) (payload : List UInt8) :
    segment (framedPacket command sequence payload) = packetFrame command sequence payload := rfl

theorem length_segment (p : Packet UInt8) : (segment p).length = p.payload.length + 12 := by
  rw [segment, length_framed, segmentBody]
  simp [packU16]

/-- A number of two octets is packed into these octets. -/
theorem packU16_unpackU16 (b₀ b₁ : UInt8) (rest : List UInt8) :
    packU16 (unpackU16 (b₀ :: b₁ :: rest)) = [b₀, b₁] := by
  have h₀ := b₀.toNat_lt
  have h₁ := b₁.toNat_lt
  simp only [packU16, unpackU16, List.cons.injEq, and_true, ← UInt8.toNat_inj, UInt8.toNat_ofNat']
  omega

theorem packU32_unpackU32 (b₀ b₁ b₂ b₃ : UInt8) (rest : List UInt8) :
    packU32 (unpackU32 (b₀ :: b₁ :: b₂ :: b₃ :: rest)) = [b₀, b₁, b₂, b₃] := by
  have h₀ := b₀.toNat_lt
  have h₁ := b₁.toNat_lt
  have h₂ := b₂.toNat_lt
  have h₃ := b₃.toNat_lt
  simp only [packU32, unpackU32, List.cons.injEq, and_true, ← UInt8.toNat_inj, UInt8.toNat_ofNat']
  omega

/-- Four octets are read from at least four. -/
theorem packU32_unpackU32_take {xs : List UInt8} (h : 4 ≤ xs.length) :
    packU32 (unpackU32 xs) = xs.take 4 := by
  rcases xs with _ | ⟨b₀, _ | ⟨b₁, _ | ⟨b₂, _ | ⟨b₃, rest⟩⟩⟩⟩
  · simp at h
  · simp at h
  · simp at h
  · simp at h
  · exact packU32_unpackU32 b₀ b₁ b₂ b₃ rest

/-- A header as it was written. -/
theorem eq_header {b : List UInt8} (hlen : headerSize ≤ b.length)
    (hmagic : b.take 2 = [magic0, magic1]) :
    b = [magic0, magic1, b.getD 2 0, b.getD 3 0] ++ packU16 (unpackU16 (b.drop 4)) ++
      packU16 (unpackU16 (b.drop 6)) ++ b.drop headerSize := by
  rcases b with _ | ⟨b₀, _ | ⟨b₁, _ | ⟨b₂, _ | ⟨b₃, _ | ⟨b₄, _ | ⟨b₅, _ | ⟨b₆, _ | ⟨b₇, rest⟩⟩⟩⟩⟩⟩⟩⟩
  all_goals first | (simp [headerSize] at hlen; done) | skip
  simp only [List.take_succ_cons, List.take_zero, List.cons.injEq, and_true] at hmagic
  obtain ⟨rfl, rfl⟩ := hmagic
  simp only [List.drop_succ_cons, List.drop_zero, packU16_unpackU16, headerSize]
  rfl

theorem unpackU16_lt (data : List UInt8) : unpackU16 data < 2 ^ 16 := by
  rw [← toNat_readLe16]
  exact UInt16.toNat_lt _

/-- **A complete frame with the right checksum is the segment of its packet.** -/
theorem take_frameSize {b : List UInt8} (hmagic : b.take 2 = [magic0, magic1])
    (hsize : frameSize b ≤ b.length) (hok : FrameOk b) :
    b.take (frameSize b) = segment (framePacket b) := by
  have hheader : headerSize ≤ b.length :=
    (Nat.le_add_right _ _).trans ((le_frameSize b).trans hsize)
  have heq := eq_header hheader hmagic
  have hseq : (UInt16.ofNat (unpackU16 (b.drop 4))).toNat = unpackU16 (b.drop 4) :=
    UInt16.toNat_ofNat_of_lt (unpackU16_lt _)
  have hrest : unpackU16 (b.drop 6) + 4 ≤ (b.drop headerSize).length := by
    rw [List.length_drop]
    simp only [frameSize, headerSize, crcSize] at hsize ⊢
    omega
  have hpayload : ((b.drop headerSize).take (unpackU16 (b.drop 6))).length =
      unpackU16 (b.drop 6) := by
    rw [List.length_take]
    omega
  have hcrc : b.drop (headerSize + unpackU16 (b.drop 6)) =
      (b.drop headerSize).drop (unpackU16 (b.drop 6)) := by rw [List.drop_drop]
  rw [FrameOk, hcrc] at hok
  simp only [segment, segmentBody, framePacket, framed, hseq, hpayload]
  generalize b.getD 2 0 = version at heq ⊢
  generalize b.getD 3 0 = command at heq ⊢
  generalize b.drop headerSize = rest at heq hok hrest ⊢
  generalize hlen : unpackU16 (b.drop 6) = len at heq hok hrest ⊢
  generalize unpackU16 (b.drop 4) = sequence at heq ⊢
  have hsplit : rest.take (len + 4) = rest.take len ++ (rest.drop len).take 4 := List.take_add
  have hbody : (b.drop 2).take (headerSize - 2 + len) =
      [version, command] ++ packU16 sequence ++ packU16 len ++ rest.take len := by
    rw [heq]
    simp [packU16, headerSize, Nat.add_comm 6 len]
  rw [hbody] at hok
  rw [hok, packU32_unpackU32_take (by rw [List.length_drop]; omega), frameSize, hlen]
  conv_lhs => rw [heq]
  simp [packU16, headerSize, crcSize, Nat.add_comm 8 len, Nat.add_right_comm, hsplit]

/-- A frame that is handed on is complete and has the right checksum. -/
theorem judgeFrame_some {skip n : ℕ} {b : List UInt8} {p : Packet UInt8}
    (h : judgeFrame skip b = some (n, some p)) :
    unpackU16 (b.drop 6) ≤ protocolMaxPayload ∧ frameSize b ≤ b.length ∧ FrameOk b ∧
      n = frameSize b ∧ p = framePacket b := by
  unfold judgeFrame at h
  split at h
  · cases h
  split at h
  · cases h
  rename_i hlong
  split at h
  · cases h
  rename_i hsize
  split at h
  · rename_i hok
    cases h
    exact ⟨not_lt.mp hlong, not_lt.mp hsize, hok, rfl, rfl⟩
  · cases h

section Scan
variable {skip : ℕ} {h₀ : 0 < skip} {h₈ : skip ≤ headerSize}

/-- What the scanner hands on it has dropped as a frame with the right checksum. -/
theorem judge_some {b : List UInt8} {n : ℕ} {p : Packet UInt8}
    (h : (decoder skip h₀ h₈).judge b = some (n, some p)) :
    b.take n = segment p ∧ p.payload.length ≤ protocolMaxPayload := by
  rcases b with _ | ⟨b₀, _ | ⟨b₁, rest⟩⟩
  · cases h
  · simp only [decoder, judge] at h
    split at h <;> cases h
  · simp only [decoder, judge] at h
    split at h
    · rename_i hmagic
      obtain ⟨rfl, rfl⟩ := hmagic
      obtain ⟨hshort, hsize, hok, rfl, rfl⟩ := judgeFrame_some h
      exact ⟨take_frameSize rfl hsize hok, (List.length_take_le _ _).trans hshort⟩
    · cases h

/-- **Every packet is the decoding of a segment**, and the segments are in order and apart. -/
theorem scan_segments (b : List UInt8) : Embeds segment b ((decoder skip h₀ h₈).scan b).2 :=
  Scanner.scan_embeds (fun h => (judge_some h).1) b

/-- No packet is longer than a header may announce. -/
theorem length_payload_scan {b : List UInt8} :
    ∀ p ∈ ((decoder skip h₀ h₈).scan b).2, p.payload.length ≤ protocolMaxPayload := by
  induction b using Scanner.scan_induction (S := decoder skip h₀ h₈) with
  | wait b hb => simp [Scanner.scan_of_wait hb]
  | drop b n p hb ih =>
    rw [Scanner.scan_of_drop hb]
    intro q hq
    rcases List.mem_append.mp hq with hq | hq
    · rw [Option.mem_toList] at hq
      subst hq
      exact (judge_some hb).2
    · exact ih q hq

end Scan

/-! ## Chunks -/

theorem PacketParser.judge_run (pieces : List (List UInt8)) :
    hostDecoder.judge (PacketParser.run [] pieces).1 = none := by
  rw [PacketParser.run_eq rfl]
  exact Scanner.judge_scan _

/-- **However a string of octets is cut, the host reads the same**, and keeps the same buffer,
whatever it has received before. -/
theorem chunking_invariant (before pieces : List (List UInt8)) :
    PacketParser.run (PacketParser.run [] before).1 pieces =
      PacketParser.feed (PacketParser.run [] before).1 pieces.flatten := by
  rw [PacketParser.run_eq (PacketParser.judge_run before), PacketParser.feed_eq_scan]

end OtaLink
