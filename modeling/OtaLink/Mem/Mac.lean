import OtaLink.Auth
import OtaLink.Octets
import OtaLink.Framing
import OtaLink.Lib.Buffer

/-!
# MACs and digests over arrays

The helpers of `auth.c` with the arrays they fill: the key block and the inputs of the two
hashes of HMAC, and the inputs of the four MACs and of the request digest. An access beyond
an array, and a read of a cell that was not filled, have no result. Where `hmac_sha256` or
`hmac_prefixed_nonce_pair` returns false, the inner option is `none`.

## Main definitions

* `Mem.Packet` — a packet in its array.
* `Mem.hmacSha256`, `Mem.hmacPrefixedNoncePair`, `Mem.computeRequestDigest`,
  `Mem.computePacketTag`, `Mem.computeResponseTag` — the helpers.
* `Mem.hmacSha256_spec` and its companions — each of them stays inside its arrays, and
  computes what it stands for.
-/

namespace OtaLink.Mem
open Lib

/-- `protocol_packet_t`. -/
structure Packet where
  version : UInt8
  command : UInt8
  sequence : UInt16
  length : ℕ
  payload : Buffer UInt8 protocolMaxPayload

/-- The array holds the packet. -/
structure Packet.Holds (m : Packet) (p : OtaLink.Packet UInt8) : Prop where
  version : m.version = p.version
  command : m.command = p.command
  sequence : m.sequence = p.sequence
  length : m.length = p.payload.length
  payload : m.payload.Begins p.payload

theorem Packet.Holds.length_le {m : Packet} {p : OtaLink.Packet UInt8} (h : m.Holds p) :
    p.payload.length ≤ protocolMaxPayload := h.payload.length_le

/-! ## HMAC -/

def hmacBlockSize : ℕ := 64

/-- `esp_sha(SHA2_256, data, .., output)`. -/
def espSha {n : ℕ} (data : List UInt8) (output : Buffer UInt8 n) : Option (Buffer UInt8 n) :=
  output.copy? 0 (sha256 data)

/-- The loop over the key block, `k` rounds from round `i` on. -/
def padLoop (keyBlock : Buffer UInt8 hmacBlockSize) : ℕ → ℕ →
    Buffer UInt8 (hmacBlockSize + hmacMaxDataSize) → Buffer UInt8 (hmacBlockSize + sha256Size) →
    Option (Buffer UInt8 (hmacBlockSize + hmacMaxDataSize) ×
      Buffer UInt8 (hmacBlockSize + sha256Size))
  | 0, _, inner, outer => some (inner, outer)
  | k + 1, i, inner, outer => do
    let inner ← inner.store? i ((← keyBlock.load? i) ^^^ 0x36)
    let outer ← outer.store? i ((← keyBlock.load? i) ^^^ 0x5C)
    padLoop keyBlock k (i + 1) inner outer

/-- `memcpy` of `length` octets where there are any. -/
def copySome {m n : ℕ} (dest : Buffer UInt8 m) (i : ℕ) (src : Buffer UInt8 n) (length : ℕ) :
    Option (Buffer UInt8 m) :=
  if length > 0 then do dest.copy? i (← src.read? 0 length) else some dest

def hmacSha256 {m n : ℕ} (key : Buffer UInt8 m) (keyLen : ℕ) (data : Buffer UInt8 n)
    (dataLen : ℕ) : Option (Option (Buffer UInt8 sha256Size)) := do
  let keyBlock := Buffer.filled hmacBlockSize 0
  let keyBlock ←
    if keyLen > hmacBlockSize then do espSha (← key.read? 0 keyLen) keyBlock
    else copySome keyBlock 0 key keyLen
  if dataLen > hmacMaxDataSize then return none
  let (innerInput, outerInput) ←
    padLoop keyBlock hmacBlockSize 0 (.blank UInt8 _) (.blank UInt8 _)
  let innerInput ← copySome innerInput hmacBlockSize data dataLen
  let innerHash ← espSha (← innerInput.read? 0 (hmacBlockSize + dataLen))
    (.blank UInt8 sha256Size)
  let outerInput ← outerInput.copy? hmacBlockSize (← innerHash.read? 0 sha256Size)
  let output ← espSha (← outerInput.read? 0 (hmacBlockSize + sha256Size)) (.blank UInt8 sha256Size)
  return some output

/-- `constant_time_equal` of the octets both sides hold. -/
def constantTimeEqual (left right : List UInt8) : Bool :=
  (List.zipWith (· ^^^ ·) left right).foldl (· ||| ·) 0 == 0

def hmacPrefixedNoncePair {m : ℕ} (pre : List UInt8) (key : Buffer UInt8 m) (keyLen : ℕ)
    (clientNonce serverNonce : Buffer UInt8 authNonceSize) :
    Option (Option (Buffer UInt8 sha256Size)) := do
  let input := Buffer.blank UInt8 (32 + 2 * authNonceSize)
  if pre.length + 2 * authNonceSize > 32 + 2 * authNonceSize then return none
  let input ← input.copy? 0 pre
  let input ← input.copy? pre.length (← clientNonce.read? 0 authNonceSize)
  let input ← input.copy? (pre.length + authNonceSize) (← serverNonce.read? 0 authNonceSize)
  hmacSha256 key keyLen input (pre.length + 2 * authNonceSize)

/-! ## The inputs of a session -/

/-- The input of a request digest and of a request tag. -/
def fillRequestInput {n : ℕ} (command : UInt8) (sequence : UInt16) (payload : Buffer UInt8 n)
    (length : ℕ) : Option (Buffer UInt8 (1 + 2 + protocolMaxPayload)) := do
  let input := Buffer.blank UInt8 (1 + 2 + protocolMaxPayload)
  let input ← input.store? 0 command
  let input ← input.store? 1 (sequence &&& 0xFF).toUInt8
  let input ← input.store? 2 ((sequence >>> 8) &&& 0xFF).toUInt8
  copySome input 3 payload length

def computeRequestDigest (packet : Packet) : Option (Buffer UInt8 sha256Size) := do
  let input ← fillRequestInput packet.command packet.sequence packet.payload packet.length
  espSha (← input.read? 0 (3 + packet.length)) (.blank UInt8 sha256Size)

def computePacketTag {n : ℕ} (sessionKey : Buffer UInt8 sha256Size) (command : UInt8)
    (sequence : UInt16) (payload : Buffer UInt8 n) (length : ℕ) :
    Option (Option (Buffer UInt8 sha256Size)) := do
  let input ← fillRequestInput command sequence payload length
  hmacSha256 sessionKey sha256Size input (3 + length)

def computeResponseTag {n : ℕ} (sessionKey : Buffer UInt8 sha256Size)
    (requestCommand responseCommand : UInt8) (sequence : UInt16) (payload : Buffer UInt8 n)
    (length : ℕ) : Option (Option (Buffer UInt8 sha256Size)) := do
  let input := Buffer.blank UInt8 (8 + 1 + 1 + 2 + protocolMaxPayload)
  let input ← input.copy? 0 authResponsePrefix
  let offset := 8
  let input ← input.store? offset requestCommand
  let input ← input.store? (offset + 1) responseCommand
  let input ← input.store? (offset + 2) (sequence &&& 0xFF).toUInt8
  let input ← input.store? (offset + 3) ((sequence >>> 8) &&& 0xFF).toUInt8
  let input ← copySome input (offset + 4) payload length
  hmacSha256 sessionKey sha256Size input (offset + 4 + length)

/-! ## What each helper computes -/

section Spec
variable {m n : ℕ} {key : Buffer UInt8 m} {data : Buffer UInt8 n} {ks ds : List UInt8}

theorem length_digest (data : List UInt8) : (sha256 data).length = sha256Size := length_sha256 data

theorem espSha_spec (data : List UInt8) :
    ∃ output, espSha data (.blank UInt8 sha256Size) = some output ∧ output.Begins (sha256 data) :=
  (Buffer.begins_nil _).copy _ (by rw [length_digest, List.length_nil]; omega)

theorem copySome_spec {dest : Buffer UInt8 m} {xs : List UInt8} (h : dest.Begins xs)
    (hdata : data.Begins ds) (hfit : xs.length + ds.length ≤ m) :
    ∃ dest', copySome dest xs.length data ds.length = some dest' ∧ dest'.Begins (xs ++ ds) := by
  by_cases hlen : ds.length > 0
  · obtain ⟨dest', hcopy, hbegins⟩ := h.copy ds hfit
    refine ⟨dest', ?_, hbegins⟩
    rw [copySome, if_pos hlen, hdata.read_all]
    exact hcopy
  · refine ⟨dest, by rw [copySome, if_neg hlen], ?_⟩
    rwa [List.eq_nil_of_length_eq_zero (by omega : ds.length = 0), List.append_nil]

/-- The octet of the key block in round `i`. -/
theorem take_map_succ {i : ℕ} {x : UInt8} (f : UInt8 → UInt8) (h : ks[i]? = some x) :
    (ks.take (i + 1)).map f = (ks.take i).map f ++ [f x] := by
  rw [List.take_add_one, h, Option.toList_some, List.map_append, List.map_singleton]

/-- The loop fills the front of both inputs. -/
theorem padLoop_spec {keyBlock : Buffer UInt8 hmacBlockSize} (hkey : keyBlock.Begins ks)
    (hlen : ks.length = hmacBlockSize) (k : ℕ) : ∀ (i : ℕ) {inner outer}, i + k = hmacBlockSize →
    inner.Begins ((ks.take i).map (· ^^^ 0x36)) → outer.Begins ((ks.take i).map (· ^^^ 0x5C)) →
    ∃ inner' outer', padLoop keyBlock k i inner outer = some (inner', outer') ∧
      inner'.Begins (ks.map (· ^^^ 0x36)) ∧ outer'.Begins (ks.map (· ^^^ 0x5C)) := by
  induction k with
  | zero =>
    intro i inner outer hi hinner houter
    rw [List.take_of_length_le (by omega)] at hinner houter
    exact ⟨inner, outer, rfl, hinner, houter⟩
  | succ k ih =>
    intro i inner outer hi hinner houter
    have hlt : i < ks.length := by omega
    have hx : ks[i]? = some ks[i] := List.getElem?_eq_getElem hlt
    have htake : ∀ f : UInt8 → UInt8, ((ks.take i).map f).length = i := by
      intro f
      rw [List.length_map, List.length_take]
      omega
    obtain ⟨inner₁, hi₁, hinner₁⟩ := hinner.store (ks[i] ^^^ 0x36) (by
      rw [htake]
      simp only [hmacBlockSize] at hi ⊢
      omega)
    obtain ⟨outer₁, ho₁, houter₁⟩ := houter.store (ks[i] ^^^ 0x5C) (by
      rw [htake]
      simp only [hmacBlockSize] at hi ⊢
      omega)
    rw [htake] at hi₁ ho₁
    rw [← take_map_succ (· ^^^ 0x36) hx] at hinner₁
    rw [← take_map_succ (· ^^^ 0x5C) hx] at houter₁
    obtain ⟨inner', outer', hloop, hrest⟩ := ih (i + 1) (by omega) hinner₁ houter₁
    refine ⟨inner', outer', ?_, hrest⟩
    have hload : keyBlock.load? i = some ks[i] := (hkey.load hlt).trans hx
    simp only [padLoop, hload, hi₁, ho₁, hloop, bind, Option.bind]

/-- **`hmac_sha256` is HMAC-SHA256.** On a key of at most one block and data of at most the
largest size it returns true, stays inside its arrays and fills the output. -/
theorem hmacSha256_spec (hkey : key.Begins ks) (hdata : data.Begins ds)
    (hk : ks.length ≤ hmacBlockSize) (hd : ds.length ≤ hmacMaxDataSize) :
    ∃ output, hmacSha256 key ks.length data ds.length = some (some output) ∧
      output.Begins (Alphabet.hmac ks ds) := by
  obtain ⟨keyBlock, hcopy, hblock⟩ : ∃ keyBlock, copySome (Buffer.filled hmacBlockSize 0) 0 key
      ks.length = some keyBlock ∧ keyBlock.Begins (Hmac.padKey sha256 hmacBlockSize ks) := by
    rw [Hmac.padKey_of_le _ _ hk]
    by_cases hlen : ks.length > 0
    · have hzeros : (Buffer.filled hmacBlockSize 0 : Buffer UInt8 _).Begins
          ([] ++ (List.replicate ks.length 0 ++ List.replicate (hmacBlockSize - ks.length) 0)) := by
        rw [List.nil_append, List.replicate_append_replicate, Nat.add_sub_cancel' hk]
        exact Buffer.begins_filled _ _
      obtain ⟨keyBlock, hover, hbegins⟩ := hzeros.overwrite ks (by simp)
      refine ⟨keyBlock, ?_, hbegins⟩
      rw [copySome, if_pos hlen, hkey.read_all]
      exact hover
    · refine ⟨_, by rw [copySome, if_neg hlen], ?_⟩
      rw [List.eq_nil_of_length_eq_zero (by omega : ks.length = 0)]
      exact Buffer.begins_filled _ _
  have hpad := Hmac.length_padKey sha256 hmacBlockSize hk
  obtain ⟨inner, outer, hloop, hinner, houter⟩ := padLoop_spec hblock hpad hmacBlockSize 0
    (by omega) (Buffer.begins_nil (.blank UInt8 _)) (Buffer.begins_nil (.blank UInt8 _))
  have hfront : ∀ f : UInt8 → UInt8,
      ((Hmac.padKey sha256 hmacBlockSize ks).map f).length = hmacBlockSize := by
    intro f
    rw [List.length_map, hpad]
  obtain ⟨inner₁, hc₁, hinner₁⟩ := copySome_spec hinner hdata (by rw [hfront]; omega)
  have hread₁ := hinner₁.read_all
  rw [List.length_append, hfront] at hread₁
  obtain ⟨innerHash, hs₁, hhash⟩ := espSha_spec
    ((Hmac.padKey sha256 hmacBlockSize ks).map (· ^^^ 0x36) ++ ds)
  have hread₂ := hhash.read_all
  rw [length_digest] at hread₂
  obtain ⟨outer₁, hc₂, houter₁⟩ := houter.copy (sha256
    ((Hmac.padKey sha256 hmacBlockSize ks).map (· ^^^ 0x36) ++ ds)) (by rw [hfront, length_digest])
  have hread₃ := houter₁.read_all
  rw [List.length_append, hfront, length_digest] at hread₃
  obtain ⟨output, hs₂, houtput⟩ := espSha_spec
    ((Hmac.padKey sha256 hmacBlockSize ks).map (· ^^^ 0x5C) ++ sha256
      ((Hmac.padKey sha256 hmacBlockSize ks).map (· ^^^ 0x36) ++ ds))
  rw [hfront] at hc₁ hc₂
  refine ⟨output, ?_, houtput⟩
  simp only [hmacSha256, if_neg (Nat.not_lt.mpr hk), if_neg (Nat.not_lt.mpr hd), hcopy, hloop, hc₁,
    hread₁, hs₁, hread₂, hc₂, hread₃, hs₂, bind, Option.bind, pure]

/-- The largest data is not reached by a nonce pair. -/
theorem hmacPrefixedNoncePair_spec {clientNonce serverNonce : Buffer UInt8 authNonceSize}
    {pre cn sn : List UInt8} (hkey : key.Begins ks) (hk : ks.length ≤ hmacBlockSize)
    (hc : clientNonce.Begins cn) (hs : serverNonce.Begins sn) (hcn : cn.length = authNonceSize)
    (hsn : sn.length = authNonceSize) (hp : pre.length ≤ 32) :
    ∃ output, hmacPrefixedNoncePair pre key ks.length clientNonce serverNonce = some (some output) ∧
      output.Begins (Alphabet.hmac ks (pre ++ cn ++ sn)) := by
  obtain ⟨input₁, h₁, hf₁⟩ := (Buffer.begins_nil (.blank UInt8 (32 + 2 * authNonceSize))).copy pre
    (by rw [List.length_nil]; omega)
  rw [List.nil_append] at hf₁
  obtain ⟨input₂, h₂, hf₂⟩ := hf₁.copy cn (by omega)
  obtain ⟨input₃, h₃, hf₃⟩ := hf₂.copy sn (by rw [List.length_append]; omega)
  rw [List.length_append, hcn] at h₃
  have hlen : (pre ++ cn ++ sn).length = pre.length + 2 * authNonceSize := by
    rw [List.length_append, List.length_append]
    omega
  obtain ⟨output, hmac, houtput⟩ := hmacSha256_spec hkey hf₃ hk (by
    rw [hlen]
    simp only [hmacMaxDataSize, protocolMaxPayload, authNonceSize]
    omega)
  rw [hlen] at hmac
  have hcr := hc.read_all
  have hsr := hs.read_all
  rw [hcn] at hcr
  rw [hsn] at hsr
  refine ⟨output, ?_, houtput⟩
  have hsize : ¬ pre.length + 2 * authNonceSize > 32 + 2 * authNonceSize := by omega
  rw [List.length_nil] at h₁
  simp only [hmacPrefixedNoncePair, if_neg hsize, h₁, hcr, h₂, hsr, h₃, hmac, bind, Option.bind]

theorem toUInt8_and (n : UInt16) : (n &&& 0xFF).toUInt8 = n.toUInt8 := by
  have hmask : UInt16.toNat 0xFF = 2 ^ 8 - 1 := rfl
  refine UInt8.toNat_inj.mp ?_
  rw [UInt16.toNat_toUInt8, UInt16.toNat_and, hmask, Nat.and_two_pow_sub_one_eq_mod,
    UInt16.toNat_toUInt8, Nat.mod_mod]

theorem fillRequestInput_spec (command : UInt8) (sequence : UInt16) (hdata : data.Begins ds)
    (hd : ds.length ≤ protocolMaxPayload) :
    ∃ input, fillRequestInput command sequence data ds.length = some input ∧
      input.Begins (requestInput command sequence ds) := by
  obtain ⟨input₁, h₁, hf₁⟩ := (Buffer.begins_nil
    (.blank UInt8 (1 + 2 + protocolMaxPayload))).store command (by simp [protocolMaxPayload])
  obtain ⟨input₂, h₂, hf₂⟩ := hf₁.store (sequence &&& 0xFF).toUInt8 (by simp [protocolMaxPayload])
  obtain ⟨input₃, h₃, hf₃⟩ := hf₂.store ((sequence >>> 8) &&& 0xFF).toUInt8
    (by simp [protocolMaxPayload])
  obtain ⟨input₄, h₄, hf₄⟩ := copySome_spec hf₃ hdata
    (by simp only [List.length_append, List.length_nil, List.length_singleton]; omega)
  refine ⟨input₄, ?_, ?_⟩
  · simp only [List.length_append, List.length_nil, List.length_singleton] at h₁ h₂ h₃ h₄
    simp only [fillRequestInput, h₁, h₂, h₃, h₄, bind, Option.bind]
  · rw [toUInt8_and, toUInt8_and] at hf₄
    exact hf₄

theorem computeRequestDigest_spec {packet : Packet} {p : OtaLink.Packet UInt8}
    (h : packet.Holds p) :
    ∃ output, computeRequestDigest packet = some output ∧
      output.Begins (OtaLink.computeRequestDigest p) := by
  obtain ⟨input, hfill, hinput⟩ :=
    fillRequestInput_spec packet.command packet.sequence h.payload h.length_le
  obtain ⟨output, hsha, houtput⟩ :=
    espSha_spec (requestInput packet.command packet.sequence p.payload)
  have hread := hinput.read_all
  rw [length_requestInput, Nat.add_comm p.payload.length] at hread
  rw [h.command, h.sequence] at hread houtput hsha hfill
  refine ⟨output, ?_, houtput⟩
  simp only [computeRequestDigest, h.command, h.sequence, h.length, hfill, hread, hsha, bind,
    Option.bind]

theorem computePacketTag_spec {sessionKey : Buffer UInt8 sha256Size} (command : UInt8)
    (sequence : UInt16) (hkey : sessionKey.Begins ks) (hk : ks.length = sha256Size)
    (hdata : data.Begins ds) (hd : ds.length ≤ protocolMaxPayload) :
    ∃ output, computePacketTag sessionKey command sequence data ds.length = some (some output) ∧
      output.Begins (Alphabet.hmac ks (requestInput command sequence ds)) := by
  obtain ⟨input, hfill, hinput⟩ := fillRequestInput_spec command sequence hdata hd
  obtain ⟨output, hmac, houtput⟩ := hmacSha256_spec hkey hinput (by rw [hk]; decide) (by
    rw [length_requestInput, hmacMaxDataSize]
    omega)
  rw [length_requestInput, Nat.add_comm ds.length, hk] at hmac
  refine ⟨output, ?_, houtput⟩
  simp only [computePacketTag, hfill, hmac, bind, Option.bind]

theorem computeResponseTag_spec {sessionKey : Buffer UInt8 sha256Size}
    (requestCommand responseCommand : UInt8) (sequence : UInt16) (hkey : sessionKey.Begins ks)
    (hk : ks.length = sha256Size) (hdata : data.Begins ds) (hd : ds.length ≤ protocolMaxPayload) :
    ∃ output, computeResponseTag sessionKey requestCommand responseCommand sequence data ds.length =
        some (some output) ∧
      output.Begins
        (Alphabet.hmac ks (responseInput requestCommand responseCommand sequence ds)) := by
  obtain ⟨input₁, h₁, hf₁⟩ := (Buffer.begins_nil
    (.blank UInt8 (8 + 1 + 1 + 2 + protocolMaxPayload))).copy authResponsePrefix
    (by simp [authResponsePrefix, protocolMaxPayload])
  obtain ⟨input₂, h₂, hf₂⟩ := hf₁.store requestCommand
    (by simp [authResponsePrefix, protocolMaxPayload])
  obtain ⟨input₃, h₃, hf₃⟩ := hf₂.store responseCommand
    (by simp [authResponsePrefix, protocolMaxPayload])
  obtain ⟨input₄, h₄, hf₄⟩ := hf₃.store (sequence &&& 0xFF).toUInt8
    (by simp [authResponsePrefix, protocolMaxPayload])
  obtain ⟨input₅, h₅, hf₅⟩ := hf₄.store ((sequence >>> 8) &&& 0xFF).toUInt8
    (by simp [authResponsePrefix, protocolMaxPayload])
  obtain ⟨input₆, h₆, hf₆⟩ := copySome_spec hf₅ hdata (by
    simp only [authResponsePrefix, length_ascii, List.length_append, List.length_nil,
      List.length_cons]
    omega)
  have hinput : input₆.Begins (responseInput requestCommand responseCommand sequence ds) := by
    rw [toUInt8_and, toUInt8_and] at hf₆
    exact hf₆
  obtain ⟨output, hmac, houtput⟩ := hmacSha256_spec hkey hinput (by rw [hk]; decide) (by
    rw [length_responseInput, hmacMaxDataSize]
    omega)
  rw [length_responseInput, Nat.add_comm ds.length, hk] at hmac
  refine ⟨output, ?_, houtput⟩
  simp only [authResponsePrefix, length_ascii, List.length_append, List.length_nil,
    List.length_cons] at h₁ h₂ h₃ h₄ h₅ h₆
  simp only [computeResponseTag, authResponsePrefix, h₁, h₂, h₃, h₄, h₅, h₆, hmac, bind,
    Option.bind]

/-! ## Comparison in constant time -/

theorem foldl_or_eq_zero (xs : List UInt8) : ∀ diff : UInt8,
    xs.foldl (· ||| ·) diff = 0 ↔ diff = 0 ∧ ∀ x ∈ xs, x = 0 := by
  induction xs with
  | nil => simp
  | cons x xs ih =>
    intro diff
    rw [List.foldl_cons, ih, UInt8.or_eq_zero_iff, List.forall_mem_cons, and_assoc]

/-- The comparison looks at every octet and finds a difference if there is one. -/
theorem constantTimeEqual_iff : ∀ {left right : List UInt8}, left.length = right.length →
    (constantTimeEqual left right = true ↔ left = right) := by
  intro left right h
  rw [constantTimeEqual, beq_iff_eq, foldl_or_eq_zero]
  induction left generalizing right with
  | nil => simp [List.eq_nil_of_length_eq_zero h.symm]
  | cons x left ih =>
    rcases right with _ | ⟨y, right⟩
    · simp at h
    · have hrest := ih (Nat.succ.inj h)
      simp only [true_and] at hrest
      simp [hrest]

theorem constantTimeEqual_self (xs : List UInt8) : constantTimeEqual xs xs = true :=
  (constantTimeEqual_iff rfl).mpr rfl

end Spec
end OtaLink.Mem
