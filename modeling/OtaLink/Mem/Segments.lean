import OtaLink.Segments
import OtaLink.Mem.Protocol

/-!
# Where packets come from, over arrays

The parser of the device never clears its buffer. It starts with whatever the array contains
and reads only what it has written since, so its packets, like those of the host, come from
the stream.

## Main definitions

* `protocolParserInit`, `protocolParserRun` — the parser from its start on.
* `decoders_sound` — every packet is the decoding of a segment of the stream.
-/

namespace OtaLink.Mem
open Lib

/-- `protocol_parser_init`. -/
def protocolParserInit (parser : Parser) : Parser := { parser with length := 0 }

/-- The parser fed a stream octet by octet, with the packets it fills in. -/
def protocolParserRun (parser : Parser) : List UInt8 → Option (Parser × List Packet)
  | [] => some (parser, [])
  | byte :: bytes => do
    let (parser, packet) ← protocolParserFeed parser byte
    let (parser, packets) ← protocolParserRun parser bytes
    return (parser, packet.toList ++ packets)

theorem holds_protocolParserInit (parser : Parser) : (protocolParserInit parser).Holds [] :=
  ⟨Buffer.begins_nil _, rfl, by simp⟩

/-- **Whatever the array contains, the parser hands on the packets of the stream.** -/
theorem protocolParserRun_spec (bytes : List UInt8) : ∀ {parser : Parser} {held : List UInt8},
    parser.Holds held →
      ∃ parser' packets, protocolParserRun parser bytes = some (parser', packets) ∧
      List.Forall₂ Packet.Holds packets (OtaLink.protocolParserRun held bytes).2 := by
  induction bytes with
  | nil => exact fun {parser held} _ => ⟨parser, [], rfl, .nil⟩
  | cons byte bytes ih =>
    intro parser held h
    obtain ⟨parser₁, packet, hfeed, h₁, hpacket⟩ := protocolParserFeed_spec h byte
    obtain ⟨parser₂, packets, hrun, hpackets⟩ := ih h₁
    refine ⟨parser₂, packet.toList ++ packets, by simp [protocolParserRun, hfeed, hrun], ?_⟩
    rw [OtaLink.protocolParserRun]
    generalize (OtaLink.protocolParserFeed held byte).2 = decoded at hpacket
    cases hpacket with
    | none => exact hpackets
    | some hp => exact .cons hp hpackets

/-- **Every packet is the decoding of a segment of the stream**, on the device whatever its
buffer contains at the start, and on the host in whatever pieces the stream arrives. The
segments are apart and in order. -/
theorem decoders_sound :
    (∀ (parser : Parser) (bytes : List UInt8), ∃ parser' packets ps,
      protocolParserRun (protocolParserInit parser) bytes = some (parser', packets) ∧
      List.Forall₂ Packet.Holds packets ps ∧ Embeds segment bytes ps ∧
      ∀ p ∈ ps, p.payload.length ≤ protocolMaxPayload) ∧
    ∀ pieces : List (List UInt8),
      Embeds segment pieces.flatten (PacketParser.run [] pieces).2 ∧
      ∀ p ∈ (PacketParser.run [] pieces).2, p.payload.length ≤ protocolMaxPayload := by
  constructor
  · intro parser bytes
    obtain ⟨parser', packets, hrun, hpackets⟩ :=
      protocolParserRun_spec bytes (holds_protocolParserInit parser)
    rw [protocolParserRun_eq rfl] at hpackets
    exact ⟨parser', packets, _, hrun, hpackets, scan_segments _, length_payload_scan⟩
  · intro pieces
    rw [PacketParser.run_eq rfl]
    exact ⟨scan_segments _, length_payload_scan⟩

end OtaLink.Mem
