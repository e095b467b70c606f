import Mathlib.Algebra.Group.Nat.Defs
import OtaLink.Lib.Routine

/-!
# The wire protocol

Commands, error codes and decoded packets of protocol version 1, as `protocol.h`
and `protocol.py` declare them. A packet here is what the stream parser hands on
and what the encoder is given; framing and CRC are below this level.

Payloads are lists over an alphabet of octets. The firmware and the host compare
octets, read them as numbers and write numbers as octets, and call two primitives
on them, HMAC-SHA256 and SHA-256. An `Alphabet` provides exactly that, so the same
definitions run on machine octets and on octets that stand for symbolic MAC output.

## Main definitions

* `Alphabet` — octets and the two primitives.
* `Command`, `ProtocolError` — the wire identifiers.
* `Packet` — a decoded packet.
* `readU32Le`, `le16`, `le32` — the integer layout.
-/

namespace OtaLink

/-- An alphabet of octets with HMAC-SHA256 and SHA-256 over it. -/
class Alphabet (β : Type) where
  decEq : DecidableEq β
  ofByte : UInt8 → β
  toByte : β → UInt8
  toByte_ofByte : ∀ b, toByte (ofByte b) = b
  /-- HMAC-SHA256 of a key and a message. -/
  hmac : List β → List β → List β
  length_hmac : ∀ key data, (hmac key data).length = 32
  /-- SHA-256, as `esp_sha(SHA2_256, ..)` computes it. -/
  espSha : List β → List β
  length_espSha : ∀ data, (espSha data).length = 32

attribute [simp] Alphabet.toByte_ofByte Alphabet.length_hmac Alphabet.length_espSha

instance {β : Type} [Alphabet β] : DecidableEq β := Alphabet.decEq

export Alphabet (ofByte toByte)

theorem ofByte_injective {β : Type} [Alphabet β] : Function.Injective (ofByte : UInt8 → β) :=
  Function.LeftInverse.injective Alphabet.toByte_ofByte

def protocolVersion : UInt8 := 1
def protocolMaxPayload : ℕ := 1024

/-! ## Wire identifiers -/

/-- Wire command identifiers for protocol version 1. -/
inductive Command
  | ping | getInfo | reboot | rollback | auth
  | otaBegin | otaData | otaEnd | otaAbort
  | ack | nack | info
  deriving DecidableEq, Repr

namespace Command

def code : Command → UInt8
  | ping => 0x01
  | getInfo => 0x02
  | reboot => 0x03
  | rollback => 0x04
  | auth => 0x05
  | otaBegin => 0x10
  | otaData => 0x11
  | otaEnd => 0x12
  | otaAbort => 0x13
  | ack => 0xF0
  | nack => 0xF1
  | info => 0xF2

/-- The command a wire octet names, if it names one. -/
def ofCode? (c : UInt8) : Option Command :=
  [ping, getInfo, reboot, rollback, auth, otaBegin, otaData, otaEnd, otaAbort,
    ack, nack, info].find? (fun command => command.code == c)

@[simp] theorem ofCode?_code (c : Command) : ofCode? c.code = some c := by
  cases c <;> rfl

theorem code_injective : Function.Injective code := by
  intro c d h
  have := congrArg ofCode? h
  simpa using this

@[simp] theorem code_inj {c d : Command} : c.code = d.code ↔ c = d := code_injective.eq_iff

theorem code_of_ofCode? {x : UInt8} {c : Command} (h : ofCode? x = some c) : c.code = x := by
  simpa using List.find?_some h

end Command

/-- Error values returned in NACK payloads. -/
inductive ProtocolError
  | ok | unknownCommand | invalidPacket | crcError | invalidLength | busy | authRequired
  | otaAlreadyStarted | otaNotStarted | otaInvalidOffset | otaFlashError | otaHashMismatch
  | otaInvalidImage | otaSizeError | rollbackNotAvailable
  deriving DecidableEq, Repr

namespace ProtocolError

def code : ProtocolError → UInt8
  | ok => 0x00
  | unknownCommand => 0x01
  | invalidPacket => 0x02
  | crcError => 0x03
  | invalidLength => 0x04
  | busy => 0x05
  | authRequired => 0x06
  | otaAlreadyStarted => 0x10
  | otaNotStarted => 0x11
  | otaInvalidOffset => 0x12
  | otaFlashError => 0x13
  | otaHashMismatch => 0x14
  | otaInvalidImage => 0x15
  | otaSizeError => 0x16
  | rollbackNotAvailable => 0x17

theorem code_injective : Function.Injective code := by
  intro c d h
  cases c <;> cases d <;> first | rfl | exact absurd h (by decide)

@[simp] theorem code_inj {c d : ProtocolError} : c.code = d.code ↔ c = d := code_injective.eq_iff

end ProtocolError

/-! ## Packets -/

/-- A decoded protocol packet; its length field is the length of the payload. -/
structure Packet (β : Type) where
  version : UInt8
  command : UInt8
  sequence : UInt16
  payload : List β
  deriving DecidableEq

/-- The packet fits a frame of this protocol. -/
def Packet.Framed {β : Type} (m : Packet β) : Prop :=
  m.version = protocolVersion ∧ m.payload.length ≤ protocolMaxPayload

variable {β : Type} [Alphabet β]

/-- A 16-bit integer, little-endian. -/
def le16 (n : UInt16) : List β := [ofByte n.toUInt8, ofByte (n >>> 8).toUInt8]

/-- A 32-bit integer, little-endian. -/
def le32 (n : ℕ) : List β :=
  [ofByte (UInt8.ofNat n), ofByte (UInt8.ofNat (n / 2 ^ 8)), ofByte (UInt8.ofNat (n / 2 ^ 16)),
    ofByte (UInt8.ofNat (n / 2 ^ 24))]

/-- Four octets as a 32-bit integer, little-endian. The callers check the length. -/
def readU32Le : List β → ℕ
  | b₀ :: b₁ :: b₂ :: b₃ :: _ =>
      (toByte b₀).toNat + (toByte b₁).toNat * 2 ^ 8 + (toByte b₂).toNat * 2 ^ 16 +
        (toByte b₃).toNat * 2 ^ 24
  | _ => 0

@[simp] theorem length_le16 (n : UInt16) : (le16 n : List β).length = 2 := rfl
@[simp] theorem length_le32 (n : ℕ) : (le32 n : List β).length = 4 := rfl

theorem readU32Le_le32 {n : ℕ} (h : n < 2 ^ 32) (rest : List β) :
    readU32Le (le32 n ++ rest) = n := by
  simp only [le32, List.cons_append, readU32Le, Alphabet.toByte_ofByte, UInt8.toNat_ofNat']
  omega

theorem readU32Le_lt (octets : List β) : readU32Le octets < 2 ^ 32 := by
  match octets with
  | b₀ :: b₁ :: b₂ :: b₃ :: _ =>
    have h₀ := (toByte b₀).toNat_lt
    have h₁ := (toByte b₁).toNat_lt
    have h₂ := (toByte b₂).toNat_lt
    have h₃ := (toByte b₃).toNat_lt
    simp only [readU32Le]
    omega
  | [] | [_] | [_, _] | [_, _, _] => simp [readU32Le]

theorem le16_injective : Function.Injective (le16 : UInt16 → List β) := by
  intro m n h
  simp only [le16, List.cons.injEq, and_true] at h
  have h₀ := congrArg toByte h.1
  have h₁ := congrArg toByte h.2
  simp only [Alphabet.toByte_ofByte] at h₀ h₁
  apply UInt16.toNat_inj.mp
  have h₀' := congrArg UInt8.toNat h₀
  have h₁' := congrArg UInt8.toNat h₁
  simp only [UInt16.toNat_toUInt8, UInt16.toNat_shiftRight] at h₀' h₁'
  have hm := m.toNat_lt
  have hn := n.toNat_lt
  have h8 : UInt16.toNat 8 % 16 = 8 := rfl
  simp only [h8, Nat.shiftRight_eq_div_pow] at h₁'
  omega

end OtaLink
