import OtaLink.Protocol
import OtaLink.Lib.Crc
import OtaLink.Lib.Scanner

/-!
# Frames on the wire

The two encoders and the two stream decoders, over machine octets: `protocol.c` on the
device and `protocol.py` on the host. The decoder of the device takes one octet at a time
and keeps the octets of the frame it is in. The decoder of the host takes octets in pieces
and searches everything it holds for the magic.

## Main definitions

* `protocolCrc32`, `zlibCrc32` — the two checksums.
* `protocolSendPacket`, `Framing.buildPacket` — the two encoders.
* `protocolParserFeed` — the decoder of the device.
* `PacketParser.feed` — the decoder of the host.
* `protocolCrc32_eq`, `buildPacket_eq` — checksums and encoders agree.
-/

namespace OtaLink
open Lib

def magic0 : UInt8 := 0xAA
def magic1 : UInt8 := 0x55
def headerSize : ℕ := 8
def crcSize : ℕ := 4

/-! ## The device -/

def readLe16 : List UInt8 → UInt16
  | b₀ :: b₁ :: _ => b₀.toUInt16 ||| (b₁.toUInt16 <<< 8)
  | _ => 0

def readLe32 : List UInt8 → UInt32
  | b₀ :: b₁ :: b₂ :: b₃ :: _ =>
      b₀.toUInt32 ||| (b₁.toUInt32 <<< 8) ||| (b₂.toUInt32 <<< 16) ||| (b₃.toUInt32 <<< 24)
  | _ => 0

def writeLe16 (value : UInt16) : List UInt8 :=
  [(value &&& 0xFF).toUInt8, ((value >>> 8) &&& 0xFF).toUInt8]

def writeLe32 (value : UInt32) : List UInt8 :=
  [(value &&& 0xFF).toUInt8, ((value >>> 8) &&& 0xFF).toUInt8,
    ((value >>> 16) &&& 0xFF).toUInt8, ((value >>> 24) &&& 0xFF).toUInt8]

/-- The body of the loop over the bits of an octet. -/
def crcBit (crc : UInt32) : UInt32 := (crc >>> 1) ^^^ (0xEDB88320 &&& -(crc &&& 1))

def protocolCrc32 (data : List UInt8) : UInt32 :=
  ~~~ data.foldl (fun crc byte => crcBit^[8] (crc ^^^ byte.toUInt32)) 0xFFFFFFFF

/-- The octets `protocol_send_packet` hands to the writer. -/
def protocolSendPacket (command : UInt8) (sequence : UInt16) (payload : List UInt8) :
    List UInt8 :=
  let body := [protocolVersion, command] ++ writeLe16 sequence ++
    writeLe16 (UInt16.ofNat payload.length) ++ payload
  [magic0, magic1] ++ body ++ writeLe32 (protocolCrc32 body)

/-- The octets the parser holds, and the packet once it is complete. -/
def protocolParserFeed (buffer : List UInt8) (byte : UInt8) :
    List UInt8 × Option (Packet UInt8) :=
  if buffer.length = 0 ∧ byte ≠ magic0 then (buffer, none)
  else if buffer.length = 1 ∧ byte ≠ magic1 then
    (if byte = magic0 then [magic0] else [], none)
  else
    let buffer := buffer ++ [byte]
    let payloadLength := (readLe16 (buffer.drop 6)).toNat
    if buffer.length < headerSize then (buffer, none)
    else if protocolMaxPayload < payloadLength then ([], none)
    else if buffer.length < headerSize + payloadLength + crcSize then (buffer, none)
    else if protocolCrc32 ((buffer.drop 2).take (headerSize - 2 + payloadLength)) ≠
        readLe32 (buffer.drop (headerSize + payloadLength)) then ([], none)
    else
      ([], some {
        version := buffer.getD 2 0
        command := buffer.getD 3 0
        sequence := readLe16 (buffer.drop 4)
        payload := (buffer.drop headerSize).take payloadLength })

/-- The parser fed a stream octet by octet, with the packets it hands on. -/
def protocolParserRun (buffer : List UInt8) : List UInt8 → List UInt8 × List (Packet UInt8)
  | [] => (buffer, [])
  | byte :: bytes =>
    ((protocolParserRun (protocolParserFeed buffer byte).1 bytes).1,
      (protocolParserFeed buffer byte).2.toList ++
        (protocolParserRun (protocolParserFeed buffer byte).1 bytes).2)

/-! ## The host -/

/-- `zlib.crc32`: the standard reflected CRC-32. -/
def zlibCrc32 (data : List UInt8) : ℕ := (Crc.reflected 0x04C11DB7#32 data).toNat

/-- `struct.pack("<H", ..)` of a number below `2 ^ 16`. -/
def packU16 (n : ℕ) : List UInt8 := [UInt8.ofNat n, UInt8.ofNat (n / 2 ^ 8)]

/-- `struct.pack("<I", ..)` of a number below `2 ^ 32`. -/
def packU32 (n : ℕ) : List UInt8 :=
  [UInt8.ofNat n, UInt8.ofNat (n / 2 ^ 8), UInt8.ofNat (n / 2 ^ 16), UInt8.ofNat (n / 2 ^ 24)]

/-- `struct.unpack("<H", ..)`. -/
def unpackU16 : List UInt8 → ℕ
  | b₀ :: b₁ :: _ => b₀.toNat + b₁.toNat * 2 ^ 8
  | _ => 0

/-- `struct.unpack("<I", ..)`. -/
def unpackU32 : List UInt8 → ℕ
  | b₀ :: b₁ :: b₂ :: b₃ :: _ =>
      b₀.toNat + b₁.toNat * 2 ^ 8 + b₂.toNat * 2 ^ 16 + b₃.toNat * 2 ^ 24
  | _ => 0

namespace Framing

/-- The exceptions of `build_packet`. -/
inductive BuildError
  | packetTooLarge | sequence
  deriving DecidableEq, Repr

def buildPacket (command : UInt8) (sequence : ℕ) (payload : List UInt8) :
    Except BuildError (List UInt8) :=
  if protocolMaxPayload < payload.length then .error .packetTooLarge
  else if ¬ sequence ≤ 0xFFFF then .error .sequence
  else
    let header := [magic0, magic1, protocolVersion, command] ++ packU16 sequence ++
      packU16 payload.length
    .ok (header ++ payload ++ packU32 (zlibCrc32 (header.drop 2 ++ payload)))

end Framing

namespace PacketParser

/-- `buffer.find(MAGIC)`. -/
def findMagic : List UInt8 → Option ℕ
  | b₀ :: b₁ :: rest =>
      if b₀ = magic0 ∧ b₁ = magic1 then some 0 else (findMagic (b₁ :: rest)).map (· + 1)
  | _ => none

def keepPossiblePartialMagic (buffer : List UInt8) : List UInt8 :=
  if buffer.getLast? = some magic0 then [magic0] else []

/-- One turn of the loop in `feed`: return with this buffer, or go on with it after
appending this packet. -/
inductive Turn
  | done (buffer : List UInt8)
  | again (buffer : List UInt8) (packet : Option (Packet UInt8))

def turn (buffer : List UInt8) : Turn :=
  match findMagic buffer with
  | none => .done (keepPossiblePartialMagic buffer)
  | some magicIndex =>
    let buffer := buffer.drop magicIndex
    if buffer.length < headerSize then .done buffer
    else if buffer.take 2 ≠ [magic0, magic1] then .again (buffer.drop 1) none
    else
      let length := unpackU16 (buffer.drop 6)
      if protocolMaxPayload < length then .again (buffer.drop 2) none
      else
        let packetSize := headerSize + length + crcSize
        if buffer.length < packetSize then .done buffer
        else
          let raw := buffer.take packetSize
          let body := (raw.take (packetSize - crcSize)).drop 2
          if zlibCrc32 body ≠ unpackU32 (raw.drop (packetSize - crcSize)) then
            .again (buffer.drop packetSize) none
          else
            .again (buffer.drop packetSize) (some {
              version := raw.getD 2 0
              command := raw.getD 3 0
              sequence := UInt16.ofNat (unpackU16 (raw.drop 4))
              payload := (raw.drop headerSize).take length })

/-- The loop in `feed`. A turn that goes on drops an octet, so as many turns as there are
octets, and one to return, are enough: see `feed_eq_scan`. -/
def loop : ℕ → List UInt8 → List UInt8 × List (Packet UInt8)
  | 0, buffer => (buffer, [])
  | fuel + 1, buffer =>
    match turn buffer with
    | .done buffer => (buffer, [])
    | .again buffer packet =>
      ((loop fuel buffer).1, packet.toList ++ (loop fuel buffer).2)

/-- The buffer the parser keeps and the packets it returns. -/
def feed (buffer data : List UInt8) : List UInt8 × List (Packet UInt8) :=
  loop ((buffer ++ data).length + 1) (buffer ++ data)

/-- The parser fed a stream in pieces, with the packets it returns. -/
def run (buffer : List UInt8) : List (List UInt8) → List UInt8 × List (Packet UInt8)
  | [] => (buffer, [])
  | data :: pieces =>
    ((run (feed buffer data).1 pieces).1,
      (feed buffer data).2 ++ (run (feed buffer data).1 pieces).2)

end PacketParser

/-! ## Agreement of the layouts -/

/-- Digits that do not overlap may be joined by `or`. -/
theorem or_shiftLeft {a b i : ℕ} (h : a < 2 ^ i) : a ||| b <<< i = a + b * 2 ^ i := by
  rw [Nat.or_comm, ← Nat.shiftLeft_add_eq_or_of_lt h, Nat.shiftLeft_eq, Nat.add_comm]

theorem toNat_readLe16 (data : List UInt8) : (readLe16 data).toNat = unpackU16 data := by
  rcases data with _ | ⟨b₀, _ | ⟨b₁, rest⟩⟩
  · rfl
  · rfl
  · have h₀ := b₀.toNat_lt
    have h₁ := b₁.toNat_lt
    have h8 : UInt16.toNat 8 % 16 = 8 := rfl
    have hlt : b₁.toNat <<< 8 < 2 ^ 16 := by rw [Nat.shiftLeft_eq]; omega
    simp only [readLe16, unpackU16, UInt16.toNat_or, UInt8.toNat_toUInt16,
      UInt16.toNat_shiftLeft, h8, Nat.mod_eq_of_lt hlt]
    exact or_shiftLeft h₀

theorem toNat_readLe32 (data : List UInt8) : (readLe32 data).toNat = unpackU32 data := by
  rcases data with _ | ⟨b₀, _ | ⟨b₁, _ | ⟨b₂, _ | ⟨b₃, rest⟩⟩⟩⟩
  · rfl
  · rfl
  · rfl
  · rfl
  · have h₀ := b₀.toNat_lt
    have h₁ := b₁.toNat_lt
    have h₂ := b₂.toNat_lt
    have h₃ := b₃.toNat_lt
    have h8 : UInt32.toNat 8 % 32 = 8 := rfl
    have h16 : UInt32.toNat 16 % 32 = 16 := rfl
    have h24 : UInt32.toNat 24 % 32 = 24 := rfl
    have hlt₁ : b₁.toNat <<< 8 < 2 ^ 32 := by rw [Nat.shiftLeft_eq]; omega
    have hlt₂ : b₂.toNat <<< 16 < 2 ^ 32 := by rw [Nat.shiftLeft_eq]; omega
    have hlt₃ : b₃.toNat <<< 24 < 2 ^ 32 := by rw [Nat.shiftLeft_eq]; omega
    simp only [readLe32, unpackU32, UInt32.toNat_or, UInt8.toNat_toUInt32,
      UInt32.toNat_shiftLeft, h8, h16, h24, Nat.mod_eq_of_lt hlt₁, Nat.mod_eq_of_lt hlt₂,
      Nat.mod_eq_of_lt hlt₃]
    have hlow : b₀.toNat + b₁.toNat * 2 ^ 8 < 2 ^ 16 := by omega
    have hmid : b₀.toNat + b₁.toNat * 2 ^ 8 + b₂.toNat * 2 ^ 16 < 2 ^ 24 := by omega
    rw [or_shiftLeft h₀, or_shiftLeft hlow, or_shiftLeft hmid]

theorem writeLe16_eq (value : UInt16) : writeLe16 value = packU16 value.toNat := by
  have h8 : UInt16.toNat 8 % 16 = 8 := rfl
  have hff : ∀ x : ℕ, x &&& UInt16.toNat 0xFF = x % 2 ^ 8 := fun x =>
    Nat.and_two_pow_sub_one_eq_mod x 8
  simp only [writeLe16, packU16, List.cons.injEq, and_true, ← UInt8.toNat_inj,
    UInt16.toNat_toUInt8, UInt16.toNat_and, UInt16.toNat_shiftRight, UInt8.toNat_ofNat', h8, hff,
    Nat.shiftRight_eq_div_pow, Nat.mod_mod]

theorem writeLe32_eq (value : UInt32) : writeLe32 value = packU32 value.toNat := by
  have h8 : UInt32.toNat 8 % 32 = 8 := rfl
  have h16 : UInt32.toNat 16 % 32 = 16 := rfl
  have h24 : UInt32.toNat 24 % 32 = 24 := rfl
  have hff : ∀ x : ℕ, x &&& UInt32.toNat 0xFF = x % 2 ^ 8 := fun x =>
    Nat.and_two_pow_sub_one_eq_mod x 8
  simp only [writeLe32, packU32, List.cons.injEq, and_true, ← UInt8.toNat_inj,
    UInt32.toNat_toUInt8, UInt32.toNat_and, UInt32.toNat_shiftRight, UInt8.toNat_ofNat', h8, h16,
    h24, hff, Nat.shiftRight_eq_div_pow, Nat.mod_mod]

theorem unpackU16_packU16 {n : ℕ} (h : n < 2 ^ 16) (rest : List UInt8) :
    unpackU16 (packU16 n ++ rest) = n := by
  simp only [packU16, List.cons_append, unpackU16, UInt8.toNat_ofNat']
  omega

theorem unpackU32_packU32 {n : ℕ} (h : n < 2 ^ 32) (rest : List UInt8) :
    unpackU32 (packU32 n ++ rest) = n := by
  simp only [packU32, List.cons_append, unpackU32, UInt8.toNat_ofNat']
  omega

/-! ## Agreement of the checksums -/

theorem crcBit_eq (crc : UInt32) :
    (crcBit crc).toBitVec = Crc.shiftRight 0xEDB88320#32 crc.toBitVec := by
  -- The mask is all ones exactly where the lowest bit is set.
  have hmask : -(crc.toBitVec &&& 1#32) =
      if crc.toBitVec.getLsbD 0 then BitVec.allOnes 32 else 0#32 := by
    rw [BitVec.and_one_eq_setWidth_ofBool_getLsbD]
    cases crc.toBitVec.getLsbD 0 <;> rfl
  have hbit : (crcBit crc).toBitVec =
      (crc.toBitVec >>> 1) ^^^ (0xEDB88320#32 &&& -(crc.toBitVec &&& 1#32)) := by
    simp [crcBit]
  rw [hbit, hmask, Crc.shiftRight]
  split
  · rw [BitVec.and_allOnes]
  · rw [BitVec.and_zero, BitVec.xor_zero]

theorem iterate_crcBit (n : ℕ) (crc : UInt32) :
    (crcBit^[n] crc).toBitVec = (Crc.shiftRight 0xEDB88320#32)^[n] crc.toBitVec := by
  induction n generalizing crc with
  | zero => rfl
  | succ n ih =>
    rw [Function.iterate_succ_apply, Function.iterate_succ_apply, ih, crcBit_eq]

/-- **The checksum of the device is the standard one.** -/
theorem protocolCrc32_eq (data : List UInt8) : (protocolCrc32 data).toNat = zlibCrc32 data := by
  have hfold : ∀ crc : UInt32,
      (data.foldl (fun crc byte => crcBit^[8] (crc ^^^ byte.toUInt32)) crc).toBitVec =
        data.foldl (fun r x => (Crc.shiftRight 0xEDB88320#32)^[8] (r ^^^ x.toBitVec.setWidth 32))
          crc.toBitVec := by
    induction data with
    | nil => exact fun crc => rfl
    | cons byte data ih =>
      intro crc
      rw [List.foldl_cons, ih, iterate_crcBit, List.foldl_cons]
      rfl
  have hpoly : (0x04C11DB7#32).reverse = 0xEDB88320#32 := by decide +kernel
  rw [zlibCrc32, Crc.reflected_eq_rightShifting _ (by decide), hpoly, Crc.rightShifting,
    protocolCrc32, ← UInt32.toNat_toBitVec, UInt32.toBitVec_not, hfold]
  rfl

theorem zlibCrc32_lt (data : List UInt8) : zlibCrc32 data < 2 ^ 32 := BitVec.isLt _

/-! ## Agreement of the encoders -/

/-- What the checksum covers: version, command, sequence, length and payload. -/
def frameBody (command : UInt8) (sequence : UInt16) (payload : List UInt8) : List UInt8 :=
  [protocolVersion, command] ++ packU16 sequence.toNat ++ packU16 payload.length ++ payload

theorem length_frameBody (command : UInt8) (sequence : UInt16) (payload : List UInt8) :
    (frameBody command sequence payload).length = 6 + payload.length := by
  simp only [frameBody, packU16, List.cons_append, List.nil_append, List.length_cons]
  omega

/-- The magic, what the checksum covers, and the checksum. -/
def framed (body : List UInt8) : List UInt8 := [magic0, magic1] ++ body ++ packU32 (zlibCrc32 body)

/-- The octets of a frame. -/
def packetFrame (command : UInt8) (sequence : UInt16) (payload : List UInt8) : List UInt8 :=
  framed (frameBody command sequence payload)

/-- **The two encoders write the same octets.** -/
theorem protocolSendPacket_eq (command : UInt8) (sequence : UInt16) {payload : List UInt8}
    (h : payload.length ≤ protocolMaxPayload) :
    protocolSendPacket command sequence payload = packetFrame command sequence payload := by
  have hlt : payload.length < UInt16.size := lt_of_le_of_lt h (by decide)
  have hlength : (UInt16.ofNat payload.length).toNat = payload.length :=
    UInt16.toNat_ofNat_of_lt hlt
  simp only [protocolSendPacket, writeLe16_eq, writeLe32_eq, protocolCrc32_eq, hlength, packetFrame,
    framed, frameBody]

theorem buildPacket_eq (command : UInt8) (sequence : UInt16) {payload : List UInt8}
    (h : payload.length ≤ protocolMaxPayload) :
    Framing.buildPacket command sequence.toNat payload =
      .ok (packetFrame command sequence payload) := by
  have hseq := sequence.toNat_lt
  rw [Framing.buildPacket, if_neg (by omega), if_neg (by omega)]
  simp [packetFrame, framed, frameBody, packU16]

end OtaLink
