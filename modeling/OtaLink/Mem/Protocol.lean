import OtaLink.Mem.Mac
import OtaLink.Lib.Checked

/-!
# The encoder and the stream parser over arrays

`protocol_send_packet` with its transmit buffer and `protocol_parser_feed` with the buffer
of the parser and the payload of the packet it fills in.

## Main definitions

* `Mem.Event`, `Mem.view` — what the component does to the outside, octet by octet.
* `Mem.protocolSendPacket`, `Mem.protocolParserFeed` — the functions.
* `Mem.Parser.Holds` — what the parser holds, and that there is room for one octet more.
* `Mem.protocolParserFeed_spec` — feeding an octet stays inside the arrays.
-/

namespace OtaLink.Mem
open Lib

/-- What the component does to the outside. -/
inductive Event
  /-- Octets for the writer. -/
  | write (octets : List UInt8)
  /-- `hmac_sha256` or `hmac_prefixed_nonce_pair` has returned false. -/
  | macFailed
  | call (event : OtaLink.Event UInt8)

/-- A frame as its octets. -/
def sent (p : OtaLink.Packet UInt8) : Event :=
  .write (OtaLink.protocolSendPacket p.command p.sequence p.payload)

/-- What an event of the component is on the outside. -/
def view : OtaLink.Event UInt8 → Option Event
  | .send p => some (sent p)
  | .operate .. | .receive _ | .reset => none
  | e => some (.call e)

@[simp] theorem view_send (p : OtaLink.Packet UInt8) : view (.send p) = some (sent p) := rfl

variable {σ : Type}

/-! ## The encoder -/

def txBufferSize : ℕ := headerSize + protocolMaxPayload + crcSize

/-- The part of the transmit buffer that `protocol_send_packet` fills. -/
def fillTxBuffer {n : ℕ} (command : UInt8) (sequence : UInt16) (payload : Buffer UInt8 n)
    (length : ℕ) : Option (List UInt8) := do
  let tx := Buffer.blank UInt8 txBufferSize
  let tx ← tx.store? 0 magic0
  let tx ← tx.store? 1 magic1
  let tx ← tx.store? 2 protocolVersion
  let tx ← tx.store? 3 command
  let tx ← tx.copy? 4 (writeLe16 sequence)
  let tx ← tx.copy? 6 (writeLe16 (UInt16.ofNat length))
  let tx ← copySome tx headerSize payload length
  let crc := protocolCrc32 (← tx.read? 2 (headerSize - 2 + length))
  let tx ← tx.copy? (headerSize + length) (writeLe32 crc)
  tx.read? 0 (headerSize + length + crcSize)

def protocolSendPacket {n : ℕ} (command : UInt8) (sequence : UInt16) (payload : Buffer UInt8 n)
    (length : ℕ) : Checked σ Event Unit := do
  let tx ← Checked.access (fillTxBuffer command sequence payload length)
  Checked.emit (.write tx)

/-- `&status` of an ACK or a NACK. -/
def status (error : ProtocolError) : Buffer UInt8 1 := Buffer.filled 1 error.code

def protocolSendAck (sequence : UInt16) : Checked σ Event Unit :=
  protocolSendPacket Command.ack.code sequence (status .ok) 1

def protocolSendNack (sequence : UInt16) (error : ProtocolError) : Checked σ Event Unit :=
  protocolSendPacket Command.nack.code sequence (status error) 1

/-! ## The parser -/

/-- `protocol_parser_t`. -/
structure Parser where
  buffer : Buffer UInt8 (2 + 1 + 1 + 2 + 2 + protocolMaxPayload + 4)
  length : ℕ

/-- The parser after the octet, and the packet where it is complete. -/
def protocolParserFeed (parser : Parser) (byte : UInt8) : Option (Parser × Option Packet) := do
  if parser.length = 0 ∧ byte ≠ magic0 then return (parser, none)
  if parser.length = 1 ∧ byte ≠ magic1 then
    let buffer ← parser.buffer.store? 0 magic0
    return ({ buffer, length := if byte = magic0 then 1 else 0 }, none)
  let buffer ← parser.buffer.store? parser.length byte
  let length := parser.length + 1
  if length < headerSize then return ({ buffer, length }, none)
  let payloadLength := (readLe16 (← buffer.read? 6 2)).toNat
  if payloadLength > protocolMaxPayload then return ({ buffer, length := 0 }, none)
  if length < headerSize + payloadLength + crcSize then return ({ buffer, length }, none)
  let expectedCrc := readLe32 (← buffer.read? (headerSize + payloadLength) 4)
  let actualCrc := protocolCrc32 (← buffer.read? 2 (headerSize - 2 + payloadLength))
  if actualCrc ≠ expectedCrc then return ({ buffer, length := 0 }, none)
  let version ← buffer.load? 2
  let command ← buffer.load? 3
  let sequence := readLe16 (← buffer.read? 4 2)
  let payload ← (Buffer.blank UInt8 protocolMaxPayload).copy? 0
    (← buffer.read? headerSize payloadLength)
  return ({ buffer, length := 0 },
    some { version, command, sequence, length := payloadLength, payload })

/-- The parser holds `held`, and an octet more fits. -/
structure Parser.Holds (parser : Parser) (held : List UInt8) : Prop where
  buffer : parser.buffer.Begins held
  length : parser.length = held.length
  room : held.length < 2 + 1 + 1 + 2 + 2 + protocolMaxPayload + 4

/-! ## What the encoder sends -/

theorem txBufferSize_eq : txBufferSize = 1036 := rfl

theorem fillTxBuffer_spec {n : ℕ} (command : UInt8) (sequence : UInt16) {payload : Buffer UInt8 n}
    {ps : List UInt8} (h : payload.Begins ps) (hfit : ps.length ≤ protocolMaxPayload) :
    fillTxBuffer command sequence payload ps.length =
      some (OtaLink.protocolSendPacket command sequence ps) := by
  obtain ⟨tx₁, h₁, hf₁⟩ := (Buffer.begins_nil (.blank UInt8 txBufferSize)).store magic0
    (by simp [txBufferSize_eq])
  obtain ⟨tx₂, h₂, hf₂⟩ := hf₁.store magic1 (by simp [txBufferSize_eq])
  obtain ⟨tx₃, h₃, hf₃⟩ := hf₂.store protocolVersion (by simp [txBufferSize_eq])
  obtain ⟨tx₄, h₄, hf₄⟩ := hf₃.store command (by simp [txBufferSize_eq])
  obtain ⟨tx₅, h₅, hf₅⟩ := hf₄.copy (writeLe16 sequence)
    (by simp [txBufferSize_eq, writeLe16])
  obtain ⟨tx₆, h₆, hf₆⟩ := hf₅.copy (writeLe16 (UInt16.ofNat ps.length))
    (by simp [txBufferSize_eq, writeLe16])
  obtain ⟨tx₇, h₇, hf₇⟩ := copySome_spec hf₆ h (by
    simp only [writeLe16, List.length_append, List.length_cons, List.length_nil, txBufferSize,
      headerSize]
    omega)
  generalize hfront : [] ++ [magic0] ++ [magic1] ++ [protocolVersion] ++ [command] ++
    writeLe16 sequence ++ writeLe16 (UInt16.ofNat ps.length) ++ ps = front at hf₇
  have hlen : front.length = headerSize + ps.length := by
    rw [← hfront]
    simp [writeLe16, headerSize]
    omega
  have hbody : front.drop 2 = [protocolVersion, command] ++ writeLe16 sequence ++
      writeLe16 (UInt16.ofNat ps.length) ++ ps := by
    rw [← hfront]
    rfl
  have hread : tx₇.read? 2 (headerSize - 2 + ps.length) = some (front.drop 2) := by
    rw [hf₇.read (by rw [hlen]; simp only [headerSize]; omega), List.take_of_length_le]
    rw [List.length_drop, hlen]
    simp only [headerSize]
    omega
  obtain ⟨tx₈, h₈, hf₈⟩ := hf₇.copy (writeLe32 (protocolCrc32 (front.drop 2))) (by
    rw [hlen]
    simp only [writeLe32, List.length_cons, List.length_nil, txBufferSize, crcSize]
    omega)
  have hall := hf₈.read_all
  rw [List.length_append, hlen] at hall
  rw [hlen] at h₈
  have hframe : front ++ writeLe32 (protocolCrc32 (front.drop 2)) =
      OtaLink.protocolSendPacket command sequence ps := by
    rw [OtaLink.protocolSendPacket, hbody, ← hfront]
    rfl
  simp only [writeLe16, List.length_append, List.length_cons, List.length_nil]
    at h₁ h₂ h₃ h₄ h₅ h₆ h₇
  simp only [fillTxBuffer, h₁, h₂, h₃, h₄, writeLe16, h₅, h₆, headerSize, h₇, bind, Option.bind]
  rw [← hframe]
  simp only [headerSize] at hread h₈ hall
  rw [hread]
  simp only
  rw [h₈]
  exact hall

/-- A frame is sent from its array. -/
theorem protocolSendPacket_run {n : ℕ} (command : UInt8) (sequence : UInt16)
    {payload : Buffer UInt8 n} {ps : List UInt8} (h : payload.Begins ps)
    (hfit : ps.length ≤ protocolMaxPayload) (s : σ) :
    (protocolSendPacket command sequence payload ps.length).run s =
      some ((), s, [.write (OtaLink.protocolSendPacket command sequence ps)]) := by
  rw [protocolSendPacket, fillTxBuffer_spec command sequence h hfit, Checked.run_access_bind,
    Option.bind_some, Checked.run_emit]

theorem begins_status (error : ProtocolError) : (status error).Begins (statusPayload error) :=
  Buffer.begins_filled 1 error.code

theorem protocolSendAck_run (sequence : UInt16) (s : σ) :
    (protocolSendAck sequence).run s = some ((), s, [sent (ackFrame sequence)]) :=
  protocolSendPacket_run _ _ (begins_status .ok) (by simp [statusPayload, protocolMaxPayload]) s

theorem protocolSendNack_run (sequence : UInt16) (error : ProtocolError) (s : σ) :
    (protocolSendNack sequence error).run s =
      some ((), s, [sent (nackFrame sequence error)]) :=
  protocolSendPacket_run _ _ (begins_status error) (by simp [statusPayload, protocolMaxPayload]) s

/-! ## What the parser accepts -/

theorem readLe16_take (data : List UInt8) : readLe16 (data.take 2) = readLe16 data := by
  rcases data with _ | ⟨b₀, _ | ⟨b₁, rest⟩⟩ <;> rfl

theorem readLe32_take (data : List UInt8) : readLe32 (data.take 4) = readLe32 data := by
  rcases data with _ | ⟨b₀, _ | ⟨b₁, _ | ⟨b₂, _ | ⟨b₃, rest⟩⟩⟩⟩ <;> rfl

/-- **Feeding an octet stays inside the arrays**, and keeps room for the next one. -/
theorem protocolParserFeed_spec {parser : Parser} {held : List UInt8} (h : parser.Holds held)
    (byte : UInt8) :
    ∃ parser' packet, protocolParserFeed parser byte = some (parser', packet) ∧
      parser'.Holds (OtaLink.protocolParserFeed held byte).1 ∧
      Option.Rel Packet.Holds packet (OtaLink.protocolParserFeed held byte).2 := by
  have hroom := h.room
  simp only [protocolParserFeed, OtaLink.protocolParserFeed, h.length]
  by_cases h₀ : held.length = 0 ∧ byte ≠ magic0
  · rw [if_pos h₀, if_pos h₀]
    exact ⟨parser, none, rfl, h, .none⟩
  rw [if_neg h₀, if_neg h₀]
  by_cases h₁ : held.length = 1 ∧ byte ≠ magic1
  · obtain ⟨buffer, hstore, hbegins⟩ := (Buffer.begins_nil parser.buffer).store magic0 (by simp)
    rw [List.length_nil] at hstore
    rw [if_pos h₁, if_pos h₁, hstore]
    refine ⟨_, none, rfl, ?_, .none⟩
    by_cases hm : byte = magic0
    · rw [if_pos hm, if_pos hm]
      exact ⟨hbegins, rfl, by simp⟩
    · rw [if_neg hm, if_neg hm]
      exact ⟨Buffer.begins_nil _, rfl, by simp⟩
  rw [if_neg h₁, if_neg h₁]
  obtain ⟨buffer, hstore, hbegins⟩ := h.buffer.store byte hroom
  generalize hnext : held ++ [byte] = next at hbegins
  have hlen : held.length + 1 = next.length := by rw [← hnext, List.length_append]; rfl
  have hempty : (⟨buffer, 0⟩ : Parser).Holds [] := ⟨Buffer.begins_nil _, rfl, by simp⟩
  rw [hstore, hlen]
  simp only [bind, Option.bind, pure]
  by_cases h₂ : next.length < headerSize
  · rw [if_pos h₂, if_pos h₂]
    refine ⟨_, none, rfl, ⟨hbegins, rfl, ?_⟩, .none⟩
    change next.length < _
    simp only [headerSize] at h₂
    omega
  rw [if_neg h₂, if_neg h₂, hbegins.read (by simp only [headerSize] at h₂; omega)]
  simp only [readLe16_take]
  generalize hpayload : (readLe16 (next.drop 6)).toNat = payloadLength
  by_cases h₃ : protocolMaxPayload < payloadLength
  · rw [if_pos h₃, if_pos h₃]
    exact ⟨_, none, rfl, hempty, .none⟩
  rw [if_neg h₃, if_neg h₃]
  by_cases h₄ : next.length < headerSize + payloadLength + crcSize
  · rw [if_pos h₄, if_pos h₄]
    refine ⟨_, none, rfl, ⟨hbegins, rfl, ?_⟩, .none⟩
    change next.length < _
    simp only [headerSize, crcSize] at h₄
    omega
  simp only [headerSize, crcSize] at h₄
  rw [if_neg (by simpa [headerSize, crcSize] using h₄),
    if_neg (by simpa [headerSize, crcSize] using h₄),
    hbegins.read (by simp only [headerSize]; omega)]
  simp only [readLe32_take]
  rw [hbegins.read (by simp only [headerSize]; omega)]
  simp only
  by_cases h₅ : protocolCrc32 ((next.drop 2).take (headerSize - 2 + payloadLength)) ≠
      readLe32 (next.drop (headerSize + payloadLength))
  · rw [if_pos h₅, if_pos h₅]
    exact ⟨_, none, rfl, hempty, .none⟩
  rw [if_neg h₅, if_neg h₅]
  have hget : ∀ i < next.length, buffer.load? i = some (next.getD i 0) := by
    intro i hi
    rw [hbegins.load hi, List.getD_eq_getElem?_getD, List.getElem?_eq_getElem hi, Option.getD_some]
  obtain ⟨payload, hcopy, hpay⟩ := (Buffer.begins_nil (.blank UInt8 protocolMaxPayload)).copy
    ((next.drop headerSize).take payloadLength) (by
      rw [List.length_take, List.length_nil]
      omega)
  rw [List.length_nil] at hcopy
  rw [hget 2 (by omega)]
  simp only
  rw [hget 3 (by omega)]
  simp only
  rw [hbegins.read (by omega)]
  simp only [readLe16_take]
  rw [hbegins.read (by simp only [headerSize]; omega)]
  simp only
  rw [hcopy]
  refine ⟨_, _, rfl, hempty, .some ⟨rfl, rfl, rfl, ?_, hpay⟩⟩
  simp only [List.length_take, List.length_drop, headerSize]
  omega

end OtaLink.Mem
