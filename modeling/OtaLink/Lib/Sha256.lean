import Mathlib.Data.List.Basic
import Mathlib.Tactic.Common

/-!
# SHA-256 and HMAC

SHA-256 over octet strings, and the HMAC construction over any hash function. Both are
written from their standards and can be evaluated.

## Main definitions

* `sha256` — SHA-256.
* `Hmac.padKey`, `Hmac.hmac` — HMAC over a hash with a given block size.
-/

namespace OtaLink.Lib

/-! ## SHA-256 -/

namespace Sha256

/-- The eight working variables. -/
structure Words where
  a : UInt32
  b : UInt32
  c : UInt32
  d : UInt32
  e : UInt32
  f : UInt32
  g : UInt32
  h : UInt32

def initialHash : Words :=
  ⟨0x6a09e667, 0xbb67ae85, 0x3c6ef372, 0xa54ff53a, 0x510e527f, 0x9b05688c, 0x1f83d9ab, 0x5be0cd19⟩

def roundConstants : List UInt32 := [
  0x428a2f98, 0x71374491, 0xb5c0fbcf, 0xe9b5dba5, 0x3956c25b, 0x59f111f1, 0x923f82a4, 0xab1c5ed5,
  0xd807aa98, 0x12835b01, 0x243185be, 0x550c7dc3, 0x72be5d74, 0x80deb1fe, 0x9bdc06a7, 0xc19bf174,
  0xe49b69c1, 0xefbe4786, 0x0fc19dc6, 0x240ca1cc, 0x2de92c6f, 0x4a7484aa, 0x5cb0a9dc, 0x76f988da,
  0x983e5152, 0xa831c66d, 0xb00327c8, 0xbf597fc7, 0xc6e00bf3, 0xd5a79147, 0x06ca6351, 0x14292967,
  0x27b70a85, 0x2e1b2138, 0x4d2c6dfc, 0x53380d13, 0x650a7354, 0x766a0abb, 0x81c2c92e, 0x92722c85,
  0xa2bfe8a1, 0xa81a664b, 0xc24b8b70, 0xc76c51a3, 0xd192e819, 0xd6990624, 0xf40e3585, 0x106aa070,
  0x19a4c116, 0x1e376c08, 0x2748774c, 0x34b0bcb5, 0x391c0cb3, 0x4ed8aa4a, 0x5b9cca4f, 0x682e6ff3,
  0x748f82ee, 0x78a5636f, 0x84c87814, 0x8cc70208, 0x90befffa, 0xa4506ceb, 0xbef9a3f7, 0xc67178f2]

def rotr (x n : UInt32) : UInt32 := (x >>> n) ||| (x <<< (32 - n))

/-- One round under a constant and a word of the schedule. -/
def round (s : Words) (kw : UInt32 × UInt32) : Words :=
  let t₁ := s.h + (rotr s.e 6 ^^^ rotr s.e 11 ^^^ rotr s.e 25) +
    ((s.e &&& s.f) ^^^ (~~~s.e &&& s.g)) + kw.1 + kw.2
  let t₂ := (rotr s.a 2 ^^^ rotr s.a 13 ^^^ rotr s.a 22) +
    ((s.a &&& s.b) ^^^ (s.a &&& s.c) ^^^ (s.b &&& s.c))
  ⟨t₁ + t₂, s.a, s.b, s.c, s.d + t₁, s.e, s.f, s.g⟩

/-- The next word of the schedule, whose words so far are `ws` with the newest first. -/
def scheduleWord (ws : List UInt32) : UInt32 :=
  let w₂ := ws.getD 1 0
  let w₁₅ := ws.getD 14 0
  (rotr w₂ 17 ^^^ rotr w₂ 19 ^^^ (w₂ >>> 10)) + ws.getD 6 0 +
    (rotr w₁₅ 7 ^^^ rotr w₁₅ 18 ^^^ (w₁₅ >>> 3)) + ws.getD 15 0

def extend : ℕ → List UInt32 → List UInt32
  | 0, ws => ws
  | n + 1, ws => extend n (scheduleWord ws :: ws)

/-- Octets as big-endian words. -/
def words : List UInt8 → List UInt32
  | b₀ :: b₁ :: b₂ :: b₃ :: rest =>
    ((b₀.toUInt32 <<< 24) ||| (b₁.toUInt32 <<< 16) ||| (b₂.toUInt32 <<< 8) ||| b₃.toUInt32) ::
      words rest
  | _ => []

def compress (s : Words) (block : List UInt8) : Words :=
  let schedule := (extend 48 (words block).reverse).reverse
  let t := (roundConstants.zip schedule).foldl round s
  ⟨s.a + t.a, s.b + t.b, s.c + t.c, s.d + t.d, s.e + t.e, s.f + t.f, s.g + t.g, s.h + t.h⟩

/-- A word as big-endian octets. -/
def octetsOf (w : UInt32) : List UInt8 :=
  [(w >>> 24).toUInt8, (w >>> 16).toUInt8, (w >>> 8).toUInt8, w.toUInt8]

/-- The message with a one bit, zeros, and its length in bits in eight octets. -/
def pad (data : List UInt8) : List UInt8 :=
  let bits := UInt64.ofNat (8 * data.length)
  data ++ ((0x80 : UInt8) :: List.replicate ((119 - data.length % 64) % 64) 0) ++
    octetsOf (bits >>> 32).toUInt32 ++ octetsOf bits.toUInt32

def Words.octets (s : Words) : List UInt8 :=
  octetsOf s.a ++ octetsOf s.b ++ octetsOf s.c ++ octetsOf s.d ++
    octetsOf s.e ++ octetsOf s.f ++ octetsOf s.g ++ octetsOf s.h

end Sha256

/-- SHA-256. -/
def sha256 (data : List UInt8) : List UInt8 :=
  let padded := Sha256.pad data
  ((List.range (padded.length / 64)).foldl
    (fun s i => Sha256.compress s ((padded.drop (64 * i)).take 64)) Sha256.initialHash).octets

@[simp] theorem length_sha256 (data : List UInt8) : (sha256 data).length = 32 := rfl

example : sha256 [0x61, 0x62, 0x63] = [
    0xba, 0x78, 0x16, 0xbf, 0x8f, 0x01, 0xcf, 0xea, 0x41, 0x41, 0x40, 0xde, 0x5d, 0xae, 0x22, 0x23,
    0xb0, 0x03, 0x61, 0xa3, 0x96, 0x17, 0x7a, 0x9c, 0xb4, 0x10, 0xff, 0x61, 0xf2, 0x00, 0x15,
    0xad] := by
  decide +kernel

attribute [irreducible] sha256

/-! ## HMAC -/

namespace Hmac
variable (hash : List UInt8 → List UInt8) (block : ℕ)

/-- The key as one block: hashed where it is longer, then filled up with zeros. -/
def padKey (key : List UInt8) : List UInt8 :=
  let key := if key.length > block then hash key else key
  key ++ List.replicate (block - key.length) 0

def hmac (key message : List UInt8) : List UInt8 :=
  hash ((padKey hash block key).map (· ^^^ 0x5C) ++
    hash ((padKey hash block key).map (· ^^^ 0x36) ++ message))

@[simp] theorem length_hmac (h : ∀ data, (hash data).length = 32) (key message : List UInt8) :
    (hmac hash block key message).length = 32 := h _

theorem length_padKey {key : List UInt8} (h : key.length ≤ block) :
    (padKey hash block key).length = block := by
  rw [padKey, if_neg (by omega), List.length_append, List.length_replicate]
  omega

theorem padKey_of_le {key : List UInt8} (h : key.length ≤ block) :
    padKey hash block key = key ++ List.replicate (block - key.length) 0 := by
  rw [padKey, if_neg (by omega)]

end Hmac

end OtaLink.Lib
