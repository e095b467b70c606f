import OtaLink.Segments

/-!
# Burst errors

The checksum follows the octets it covers, its lowest bit first, so a frame is a polynomial
that always leaves the same remainder. An error of at most 32 consecutive bits changes the
remainder, and the device drops the frame.

## Main definitions

* `corrupt` — a frame with an error.
* `burst_detected` — the device emits nothing and is idle again.
-/

namespace OtaLink
open Lib

/-- The frame with the bits of `error` flipped. -/
def corrupt (frame error : List UInt8) : List UInt8 := List.zipWith (· ^^^ ·) frame error

/-- The bits of a stream, those of an octet the least significant first. -/
abbrev streamBits (bytes : List UInt8) : List Bool := bytes.flatMap Crc.octetBits

/-! ## Bits and octets -/

@[simp] theorem length_octetBits (x : UInt8) : (Crc.octetBits x).length = 8 := by
  simp [Crc.octetBits, Crc.lowBits]

theorem length_streamBits (bytes : List UInt8) : (streamBits bytes).length = 8 * bytes.length := by
  induction bytes with
  | nil => rfl
  | cons x bytes ih =>
    rw [streamBits, List.flatMap_cons, List.length_append, length_octetBits, List.length_cons]
    have := ih
    simp only [streamBits] at this
    omega

theorem octetBits_xor (x y : UInt8) :
    Crc.octetBits (x ^^^ y) = List.zipWith xor (Crc.octetBits x) (Crc.octetBits y) := by
  simp [Crc.octetBits, Crc.lowBits, List.zipWith_map]

/-- The bits of a frame with an error. -/
theorem streamBits_corrupt {frame error : List UInt8} (h : frame.length = error.length) :
    streamBits (corrupt frame error) = List.zipWith xor (streamBits frame) (streamBits error) := by
  induction frame generalizing error with
  | nil =>
    rw [List.length_eq_zero_iff.mp h.symm]
    rfl
  | cons x frame ih =>
    obtain ⟨y, error, rfl⟩ := List.exists_cons_of_length_eq_add_one h.symm
    have hrest := @ih error (by simpa using h)
    simp only [streamBits, corrupt, List.zipWith_cons_cons, List.flatMap_cons, octetBits_xor]
      at hrest ⊢
    rw [hrest, List.zipWith_append (by simp)]

/-- An octet without a bit. -/
theorem eq_zero_of_octetBits {x : UInt8} (h : ∀ b ∈ Crc.octetBits x, b = false) : x = 0 := by
  rw [← UInt8.toBitVec_inj]
  apply BitVec.eq_of_getLsbD_eq
  intro i hi
  rw [h (x.toBitVec.getLsbD i) (List.mem_map.mpr ⟨i, List.mem_range.mpr hi, rfl⟩)]
  simp

/-- The checksum enters the stream with its lowest bit first. -/
theorem streamBits_packU32 (x : BitVec 32) : streamBits (packU32 x.toNat) = Crc.lowBits x 32 := by
  have hbits : ∀ k, Crc.octetBits (UInt8.ofNat (x.toNat / 2 ^ k)) =
      (List.range 8).map fun i => x.getLsbD (k + i) := by
    intro k
    refine List.map_congr_left fun i hi => ?_
    have hi := List.mem_range.mp hi
    have htoNat : (UInt8.ofNat (x.toNat / 2 ^ k)).toBitVec = BitVec.ofNat 8 (x.toNat / 2 ^ k) := rfl
    rw [htoNat, BitVec.getLsbD_ofNat, Nat.testBit_div_two_pow, decide_eq_true hi, Bool.true_and,
      BitVec.testBit_toNat, Nat.add_comm]
  have h0 := hbits 0
  rw [Nat.pow_zero, Nat.div_one] at h0
  simp only [streamBits, packU32, List.flatMap_cons, List.flatMap_nil, h0, hbits 8, hbits 16,
    hbits 24, List.append_nil]
  rfl

/-! ## The remainder of a frame -/

/-- What every frame with the right checksum leaves. -/
def residue : BitVec 32 :=
  (List.replicate 32 true).foldl (Crc.divide 0x04C11DB7#32) 0#32

theorem foldl_codeword {body field : List UInt8} (hlen : field.length = 4)
    (h : zlibCrc32 body = unpackU32 field) :
    (streamBits (body ++ field)).foldl (Crc.divide 0x04C11DB7#32) (BitVec.allOnes 32) =
      residue := by
  have hfield : field = packU32 (zlibCrc32 body) := by
    rw [h, packU32_unpackU32_take hlen.ge, List.take_of_length_le hlen.le]
  rw [hfield, streamBits, List.flatMap_append, List.foldl_append]
  have hbits := streamBits_packU32 (Crc.reflected 0x04C11DB7#32 body)
  rw [streamBits] at hbits
  rw [zlibCrc32, hbits, Crc.reflected, Crc.foldl_divide_residue]
  rfl

/-- Two frames with the right checksum differ by an error that leaves no remainder. -/
theorem foldl_error {frame error : List UInt8} (hlen : frame.length = error.length)
    (h : (streamBits frame).foldl (Crc.divide 0x04C11DB7#32) (BitVec.allOnes 32) = residue)
    (h' : (streamBits (corrupt frame error)).foldl (Crc.divide 0x04C11DB7#32) (BitVec.allOnes 32) =
      residue) :
    (streamBits error).foldl (Crc.divide 0x04C11DB7#32) 0#32 = 0#32 := by
  have hbits : (streamBits frame).length = (streamBits error).length := by
    rw [length_streamBits, length_streamBits, hlen]
  rw [streamBits_corrupt hlen, ← BitVec.xor_zero (x := BitVec.allOnes 32),
    Crc.foldl_divide_xor _ hbits, h] at h'
  have := congrArg (residue ^^^ ·) h'
  simpa [← BitVec.xor_assoc] using this

/-! ## Detection -/

section Corrupt
variable {frame error : List UInt8}

theorem length_corrupt (h : frame.length = error.length) :
    (corrupt frame error).length = frame.length := by
  rw [corrupt, List.length_zipWith, h, min_self]

theorem drop_corrupt (n : ℕ) : (corrupt frame error).drop n =
    corrupt (frame.drop n) (error.drop n) := List.drop_zipWith

theorem take_corrupt (n : ℕ) : (corrupt frame error).take n =
    corrupt (frame.take n) (error.take n) := List.take_zipWith

/-- Two octets without an error. -/
theorem corrupt_take_two {n : ℕ} (hlen : frame.length = error.length) (hn : n + 2 ≤ frame.length)
    (h : (error.drop n).take 2 = [0, 0]) :
    ((corrupt frame error).drop n).take 2 = (frame.drop n).take 2 := by
  rw [drop_corrupt, take_corrupt, h]
  obtain ⟨x, y, rest, hrest⟩ : ∃ x y rest, frame.drop n = x :: y :: rest := by
    rcases hdrop : frame.drop n with _ | ⟨x, _ | ⟨y, rest⟩⟩
    · have := congrArg List.length hdrop
      simp at this
      omega
    · have := congrArg List.length hdrop
      simp at this
      omega
    · exact ⟨x, y, rest, rfl⟩
  simp [hrest, corrupt]

end Corrupt

theorem unpackU16_take (xs : List UInt8) : unpackU16 (xs.take 2) = unpackU16 xs := by
  rcases xs with _ | ⟨b₀, _ | ⟨b₁, rest⟩⟩ <;> rfl

/-- A frame as long as it says, split where the checksum begins. -/
theorem foldl_frame {frame : List UInt8} (hsize : frame.length = frameSize frame)
    (h : FrameOk frame) :
    (streamBits (frame.drop 2)).foldl (Crc.divide 0x04C11DB7#32) (BitVec.allOnes 32) = residue := by
  have hsplit : frame.drop 2 = (frame.drop 2).take (headerSize - 2 + unpackU16 (frame.drop 6)) ++
      frame.drop (headerSize + unpackU16 (frame.drop 6)) := by
    conv_lhs =>
      rw [← List.take_append_drop (headerSize - 2 + unpackU16 (frame.drop 6)) (frame.drop 2)]
    rw [List.drop_drop]
    congr 2
    simp only [headerSize]
    omega
  rw [hsplit]
  refine foldl_codeword ?_ h
  rw [List.length_drop, hsize, frameSize, crcSize]
  omega

/-- The frame of the encoder. -/
theorem eq_packetFrame {command : UInt8} {sequence : ℕ} {payload frame : List UInt8}
    (h : Framing.buildPacket command sequence payload = .ok frame) :
    payload.length ≤ protocolMaxPayload ∧
      frame = packetFrame command (UInt16.ofNat sequence) payload := by
  unfold Framing.buildPacket at h
  split at h
  · cases h
  rename_i hpayload
  split at h
  · cases h
  rename_i hsequence
  have hpayload := not_lt.mp hpayload
  refine ⟨hpayload, ?_⟩
  have hseq : (UInt16.ofNat sequence).toNat = sequence :=
    UInt16.toNat_ofNat_of_lt (Nat.lt_succ_of_le (not_not.mp hsequence))
  have hbuild := buildPacket_eq command (UInt16.ofNat sequence) hpayload
  rw [hseq, Framing.buildPacket, if_neg (not_lt.mpr hpayload), if_neg hsequence] at hbuild
  exact (Except.ok.inj h).symm.trans (Except.ok.inj hbuild)

/-- **A burst is detected.** A frame of the encoder in which an error of at most 32
consecutive bits leaves the magic and the length as they are makes the device emit nothing,
and leaves it idle. -/
theorem burst_detected {command : UInt8} {sequence : ℕ} {payload frame error : List UInt8}
    (hframe : Framing.buildPacket command sequence payload = .ok frame)
    (hlen : error.length = frame.length) (herror : ∃ x ∈ error, x ≠ 0)
    (hmagic : error.take 2 = [0, 0]) (hlength : (error.drop 6).take 2 = [0, 0])
    (hburst : ∃ k, ∀ i, (streamBits error)[i]? = some true → k ≤ i ∧ i < k + 32) :
    protocolParserRun [] (corrupt frame error) = ([], []) := by
  obtain ⟨hpayload, rfl⟩ := eq_packetFrame hframe
  obtain ⟨hshort, -, hok, hsize, -⟩ := judgeFrame_some
    (@judgeFrame_frame headerSize command (UInt16.ofNat sequence) payload hpayload)
  have hbegin : (packetFrame command (UInt16.ofNat sequence) payload).take 2 =
      [magic0, magic1] := rfl
  generalize packetFrame command (UInt16.ofNat sequence) payload = frame at *
  have hge := le_frameSize frame
  simp only [headerSize, crcSize] at hge
  have hc := @length_corrupt frame error hlen.symm
  -- Magic and length arrive as they were sent.
  have hbegin' : (corrupt frame error).take 2 = [magic0, magic1] := by
    have := corrupt_take_two (n := 0) hlen.symm (by omega) (by rwa [List.drop_zero])
    rwa [List.drop_zero, List.drop_zero, hbegin] at this
  have hunpack : unpackU16 ((corrupt frame error).drop 6) = unpackU16 (frame.drop 6) := by
    rw [← unpackU16_take, corrupt_take_two hlen.symm (by omega) hlength, unpackU16_take]
  have hsize' : frameSize (corrupt frame error) = (corrupt frame error).length := by
    rw [hc, hsize, frameSize, frameSize, hunpack]
  -- Were the checksum right, the error would leave no remainder.
  have hnot : ¬ FrameOk (corrupt frame error) := by
    intro hok'
    have hremainder := foldl_frame hsize'.symm hok'
    rw [drop_corrupt] at hremainder
    have hzero := foldl_error (by rw [List.length_drop, List.length_drop, hlen])
      (foldl_frame hsize hok) hremainder
    have hall : (streamBits error).foldl (Crc.divide 0x04C11DB7#32) 0#32 = 0#32 := by
      have hsplit : error = [0, 0] ++ error.drop 2 := by rw [← hmagic, List.take_append_drop]
      rw [hsplit, streamBits, List.flatMap_append, List.foldl_append,
        Crc.foldl_divide_false _ (by decide)]
      exact hzero
    obtain ⟨k, hk⟩ := hburst
    obtain ⟨x, hx, hne⟩ := herror
    refine hne (eq_zero_of_octetBits fun b hb => ?_)
    exact Crc.eq_false_of_burst (by decide) hk hall b (List.mem_flatMap.mpr ⟨x, hx, hb⟩)
  have hjudge : deviceDecoder.judge (corrupt frame error) =
      some ((corrupt frame error).length, none) := by
    have heq : corrupt frame error = magic0 :: magic1 :: (corrupt frame error).drop 2 := by
      conv_lhs => rw [← List.take_append_drop 2 (corrupt frame error), hbegin']
      rfl
    rw [heq, judge_magic, ← heq, judgeFrame, if_neg (by rw [hc]; simp only [headerSize]; omega),
      if_neg (by rw [hunpack]; omega), if_neg (by omega), if_neg hnot, hsize']
  rw [protocolParserRun_eq rfl, List.nil_append, Scanner.scan_of_drop hjudge, List.drop_length,
    scan_nil]
  rfl

/-- A PING of sequence 7 with a burst from the command into the sequence. -/
theorem burst_detected_ping : protocolParserRun []
    (corrupt (packetFrame Command.ping.code 7 []) [0, 0, 0, 0x80, 0xFF, 1, 0, 0, 0, 0, 0, 0]) =
      ([], []) := by
  refine @burst_detected Command.ping.code 7 [] _ _ (buildPacket_eq _ 7 (by decide))
    (by simp [packetFrame, framed, frameBody, packU16, packU32])
    ⟨0x80, by decide, by decide⟩ rfl rfl ⟨31, fun i hi => ?_⟩
  have hlt : i < 96 := by
    obtain ⟨hlt, -⟩ := List.getElem?_eq_some_iff.mp hi
    simpa [length_streamBits] using hlt
  have hset : ∀ i < 96, (streamBits [0, 0, 0, 0x80, 0xFF, 1, 0, 0, 0, 0, 0, 0])[i]? = some true →
      31 ≤ i ∧ i < 31 + 32 := by decide +kernel
  exact hset i hlt hi

end OtaLink
