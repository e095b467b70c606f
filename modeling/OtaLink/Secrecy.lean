import OtaLink.MacInputs

/-!
# What the attacker cannot make

Every octet on the link is public, or belongs to a proof or a tag that the client or the
device has made. From such octets neither the pre-shared key nor a session key can be
derived, so whoever presents a proof or a tag repeats one: a device proof means that the
device has drawn the pair, the proof of the client that the client has proved it, the tag of
a request that the client has built it, and the tag of a response that the device has signed
it.

## Main definitions

* `Emitted` — the octets of proofs and tags that have been made.
* `drawn_of_derives`, `proved_of_derives`, `built_of_derives`, `signed_of_derives` — what can
  be derived from them.
-/

namespace OtaLink
open Lib

/-- A key all of whose octets are secret. -/
structure IsSecret (psk : List Octet) : Prop where
  ne_nil : psk ≠ []
  secret : ∀ a ∈ psk, ∃ i, a = .secret i

theorem isSecret_pskOctets {n : ℕ} (hn : 0 < n) : IsSecret (pskOctets n) where
  ne_nil h := by simp [pskOctets, Nat.ne_of_gt hn] at h
  secret a ha := by
    obtain ⟨i, -, rfl⟩ := List.mem_map.mp ha
    exact ⟨i, rfl⟩

/-! ## Keys and inputs -/

section Inputs
variable {q q' : NoncePair Octet} {psk : List Octet}

/-- The session key of a pair determines the pair. -/
theorem sessionKey_inj : q.sessionKey psk = q'.sessionKey psk ↔ q = q' := by
  constructor
  · intro h
    exact (pair_of_append rfl (Sym.mac_inj.mp h).2).2
  · rintro rfl
    rfl

/-- No session key is a pre-shared key. -/
theorem sessionKey_ne (hpsk : IsSecret psk) (q : NoncePair Octet) : q.sessionKey psk ≠ psk := by
  intro h
  have hmem : Sym.macAt (Sym.pack psk)
      (Sym.pack (authSessionPrefix ++ q.client ++ q.server)) 0 ∈ q.sessionKey psk := by
    have := Sym.macAt_zero_mem_take (n := 32) (by decide) psk
      (authSessionPrefix ++ q.client ++ q.server)
    exact List.mem_of_mem_take this
  rw [h] at hmem
  obtain ⟨i, hi⟩ := hpsk.secret _ hmem
  cases hi

/-- No command has the code of an `r`. -/
theorem command_input_ne_responseInput {c : Command} {c' r : UInt8} {n n' : UInt16}
    {p p' : List Octet} : requestInput c.code n p ≠ responseInput c' r n' p' := by
  refine requestInput_ne_responseInput ?_
  cases c <;> decide

end Inputs

/-! ## The octets that have been made -/

/-- The octets of all proofs and tags that have been made, and all machine octets. -/
inductive Emitted (psk : List Octet) (log : List (Happening Octet)) : Octet → Prop
  | lit (b : UInt8) : Emitted psk log (.lit b)
  | deviceProof {q : NoncePair Octet} (h : Drawn log q) (i : ℕ) : Emitted psk log
      (.macAt (Sym.pack psk) (Sym.pack (authDeviceProofPrefix ++ q.client ++ q.server)) i)
  | authProof {q : NoncePair Octet} (h : Proved log psk q) (i : ℕ) : Emitted psk log
      (.macAt (Sym.pack psk) (Sym.pack (authProofPrefix ++ q.client ++ q.server)) i)
  | request {q : NoncePair Octet} {c : Command} {n : UInt16} {payload : List Octet}
      (h : Built log (q.sessionKey psk) c n payload) (i : ℕ) : Emitted psk log
      (.macAt (Sym.pack (q.sessionKey psk)) (Sym.pack (requestInput c.code n payload)) i)
  | response {q : NoncePair Octet} {c : Command} {r : UInt8} {n : UInt16} {body : List Octet}
      (h : Signed log (q.sessionKey psk) c r n body) (i : ℕ) : Emitted psk log
      (.macAt (Sym.pack (q.sessionKey psk)) (Sym.pack (responseInput c.code r n body)) i)

section Emitted
variable {psk : List Octet} {log : List (Happening Octet)} {q : NoncePair Octet}

theorem Emitted.mono {later : List (Happening Octet)} {a : Octet} (h : Emitted psk log a)
    (hl : log ⊆ later) : Emitted psk later a := by
  cases h with
  | lit b => exact .lit b
  | deviceProof h i =>
    obtain ⟨d, esp, m, hm, h⟩ := h
    exact .deviceProof ⟨d, esp, m, hl hm, h⟩ i
  | authProof h i =>
    obtain ⟨m, hm, h⟩ := h
    exact .authProof ⟨m, hl hm, h⟩ i
  | request h i => exact .request ⟨h.1, hl h.2⟩ i
  | response h i =>
    obtain ⟨d, esp, m, hm, h⟩ := h
    exact .response ⟨d, esp, m, hl hm, h⟩ i

/-- The attacker does not learn the pre-shared key. -/
theorem not_derives_psk (hpsk : IsSecret psk) :
    ¬∀ a ∈ psk, Sym.Derives (Emitted psk log) a := by
  intro h
  obtain ⟨a, as, rfl⟩ := List.exists_cons_of_ne_nil hpsk.ne_nil
  obtain ⟨i, rfl⟩ := hpsk.secret a List.mem_cons_self
  cases Sym.derives_secret_iff.mp (h _ List.mem_cons_self)

/-- What an octet of a MAC among them belongs to. -/
theorem Emitted.of_mac {k m : List Octet} {i : ℕ}
    (h : Emitted psk log (.macAt (Sym.pack k) (Sym.pack m) i)) :
    (∃ q : NoncePair Octet, k = psk ∧
      (Drawn log q ∧ m = authDeviceProofPrefix ++ q.client ++ q.server ∨
        Proved log psk q ∧ m = authProofPrefix ++ q.client ++ q.server)) ∨
    (∃ q : NoncePair Octet, k = q.sessionKey psk ∧
      ((∃ c n payload, Built log k c n payload ∧ m = requestInput c.code n payload) ∨
        ∃ c r n body, Signed log k c r n body ∧ m = responseInput c.code r n body)) := by
  generalize hk : Sym.pack k = key at h
  generalize hm : Sym.pack m = message at h
  cases h with
  | deviceProof h => exact .inl ⟨_, Sym.pack_inj.mp hk, .inl ⟨h, Sym.pack_inj.mp hm⟩⟩
  | authProof h => exact .inl ⟨_, Sym.pack_inj.mp hk, .inr ⟨h, Sym.pack_inj.mp hm⟩⟩
  | request h =>
    obtain rfl := Sym.pack_inj.mp hk
    exact .inr ⟨_, rfl, .inl ⟨_, _, _, h, Sym.pack_inj.mp hm⟩⟩
  | response h =>
    obtain rfl := Sym.pack_inj.mp hk
    exact .inr ⟨_, rfl, .inr ⟨_, _, _, _, h, Sym.pack_inj.mp hm⟩⟩

/-- A MAC over a nonce pair under the pre-shared key is one of the two proofs. -/
theorem Emitted.of_pair (hpsk : IsSecret psk) {pre : List Octet} {i : ℕ}
    (h : Emitted psk log (.macAt (Sym.pack psk) (Sym.pack (pre ++ q.client ++ q.server)) i)) :
    pre.length = 12 ∧ Drawn log q ∨ pre.length = 10 ∧ Proved log psk q := by
  rcases h.of_mac with ⟨q', -, ⟨hd, hm⟩ | ⟨hp, hm⟩⟩ | ⟨q', hk, -⟩
  · have hl : pre.length = 12 := by
      have := congrArg List.length hm
      rw [length_pair_input, length_pair_input, length_authDeviceProofPrefix] at this
      omega
    rw [(pair_of_append hl hm).2]
    exact .inl ⟨hl, hd⟩
  · have hl : pre.length = 10 := by
      have := congrArg List.length hm
      rw [length_pair_input, length_pair_input, length_authProofPrefix] at this
      omega
    rw [(pair_of_append hl hm).2]
    exact .inr ⟨hl, hp⟩
  · exact absurd hk.symm (sessionKey_ne hpsk q')

/-- The attacker does not learn a session key. -/
theorem not_derives_sessionKey (hpsk : IsSecret psk) (q : NoncePair Octet) :
    ¬∀ a ∈ q.sessionKey psk, Sym.Derives (Emitted psk log) a := by
  intro h
  have hseen := Sym.seen_of_derives_mac (n := 32) (by decide) (not_derives_psk hpsk)
    (m := authSessionPrefix ++ q.client ++ q.server) fun a ha => h a (List.mem_of_mem_take ha)
  rcases Emitted.of_pair hpsk hseen with ⟨hl, -⟩ | ⟨hl, -⟩ <;> simp at hl

/-! ### Who can make a proof or a tag -/

/-- Only the device proves itself. -/
theorem drawn_of_derives (hpsk : IsSecret psk)
    (h : ∀ a ∈ q.deviceProof psk, Sym.Derives (Emitted psk log) a) : Drawn log q := by
  have hseen := Sym.seen_of_derives_mac (by decide) (not_derives_psk hpsk) h
  rcases Emitted.of_pair hpsk hseen with ⟨-, hd⟩ | ⟨hl, -⟩
  · exact hd
  · simp at hl

/-- Only the client proves itself. -/
theorem proved_of_derives (hpsk : IsSecret psk)
    (h : ∀ a ∈ q.authProof psk, Sym.Derives (Emitted psk log) a) : Proved log psk q := by
  have hseen := Sym.seen_of_derives_mac (by decide) (not_derives_psk hpsk) h
  rcases Emitted.of_pair hpsk hseen with ⟨hl, -⟩ | ⟨-, hp⟩
  · simp at hl
  · exact hp

/-- Only the client tags a request. -/
theorem built_of_derives (hpsk : IsSecret psk) {c : Command} {n : UInt16} {payload : List Octet}
    (h : ∀ a ∈ requestTag (q.sessionKey psk) c.code n payload, Sym.Derives (Emitted psk log) a) :
    Built log (q.sessionKey psk) c n payload := by
  have hseen := Sym.seen_of_derives_mac (by decide) (not_derives_sessionKey hpsk q) h
  rcases hseen.of_mac with ⟨q', hk, -⟩ | ⟨q', -, ⟨c', n', p', hb, hm⟩ | ⟨c', r, n', b, -, hm⟩⟩
  · exact absurd hk (sessionKey_ne hpsk q)
  · obtain ⟨hc, rfl, rfl⟩ := requestInput_inj hm
    obtain rfl := Command.code_inj.mp hc
    exact hb
  · exact absurd hm command_input_ne_responseInput

/-- Only the device tags a response. -/
theorem signed_of_derives (hpsk : IsSecret psk) {c : Command} {r : UInt8} {n : UInt16}
    {body : List Octet} (h : ∀ a ∈ responseTag (q.sessionKey psk) c.code r n body,
      Sym.Derives (Emitted psk log) a) : Signed log (q.sessionKey psk) c r n body := by
  have hseen := Sym.seen_of_derives_mac (by decide) (not_derives_sessionKey hpsk q) h
  rcases hseen.of_mac with ⟨q', hk, -⟩ | ⟨q', -, ⟨c', n', p', -, hm⟩ | ⟨c', r', n', b, hs, hm⟩⟩
  · exact absurd hk (sessionKey_ne hpsk q)
  · exact absurd hm.symm command_input_ne_responseInput
  · obtain ⟨hc, rfl, rfl, rfl⟩ := responseInput_inj hm
    obtain rfl := Command.code_inj.mp hc
    exact hs

end Emitted

end OtaLink
