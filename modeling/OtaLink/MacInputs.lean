import OtaLink.Attacker

/-!
# The inputs of the MACs

What a MAC is computed over has no length fields: a text, a few octets and a payload stand one
after another. Under a session key there are requests and responses, and only responses begin
with a text; what keeps them apart is that no protected command is the first letter of it.
Under the pre-shared key there are three uses of a nonce pair, behind texts of three lengths.
So each input can be read in one way only, on the device and on the host, which puts it
together in its own way.

## Main definitions

* `PairUse` — what a MAC over a nonce pair is for.
* `MacInputs`, `MacInputs.Separated` — the inputs on one side, and that each says what it is.
* `deviceInputs`, `hostInputs` — the inputs of `auth.c` and of `otalink.py`.
* `mac_inputs_separated` — both are separated.
-/

namespace OtaLink
open Lib

variable {β : Type}

/-- What a MAC over a nonce pair under the pre-shared key is for. -/
inductive PairUse
  | authProof | deviceProof | session
  deriving DecidableEq

/-- A prefix before a nonce pair can be taken off. -/
theorem pair_of_append {q q' : NoncePair β} {pre pre' : List β} (hl : pre.length = pre'.length)
    (h : pre ++ q.client ++ q.server = pre' ++ q'.client ++ q'.server) : pre = pre' ∧ q = q' := by
  rw [List.append_assoc, List.append_assoc] at h
  obtain ⟨hpre, h⟩ := List.append_inj h hl
  obtain ⟨hc, hs⟩ := List.append_inj h (by rw [q.length_client, q'.length_client])
  exact ⟨hpre, NoncePair.ext hc hs⟩

/-- Prefixes of different lengths keep the inputs of the handshake apart. -/
theorem length_pair_input (pre : List β) (q : NoncePair β) :
    (pre ++ q.client ++ q.server).length = pre.length + 32 := by
  simp [q.length_client, q.length_server, authNonceSize]

variable [Alphabet β]

@[simp] theorem length_authProofPrefix : (authProofPrefix : List β).length = 10 := rfl
@[simp] theorem length_authDeviceProofPrefix :
    (authDeviceProofPrefix : List β).length = 12 := rfl
@[simp] theorem length_authSessionPrefix : (authSessionPrefix : List β).length = 7 := rfl

/-- The text before the nonce pair, on the device and on the host. -/
def PairUse.label : PairUse → List β
  | .authProof => authProofPrefix
  | .deviceProof => authDeviceProofPrefix
  | .session => authSessionPrefix
def PairUse.hostLabel : PairUse → List β
  | .authProof => Host.authProofPrefix
  | .deviceProof => Host.authDeviceProofPrefix
  | .session => Host.authSessionPrefix

/-- The lengths of the texts tell them apart. -/
theorem PairUse.eq_of_length {u u' : PairUse}
    (h : (u.label : List β).length = (u'.label : List β).length) : u = u' := by
  cases u <;> cases u' <;> first | rfl | simp [PairUse.label] at h

/-! ## The inputs on both sides -/

/-- What the MACs of one side are computed over. -/
structure MacInputs (β : Type) where
  request : UInt8 → UInt16 → List β → List β
  response : UInt8 → UInt8 → UInt16 → List β → List β
  pair : PairUse → NoncePair β → List β

/-- The inputs of `compute_packet_tag`, `compute_response_tag` and `hmac_prefixed_nonce_pair`. -/
def deviceInputs : MacInputs β where
  request := requestInput
  response := responseInput
  pair use q := use.label ++ q.client ++ q.server

/-- The inputs of `_authenticated_payload`, `_verified_response` and `authenticate`. -/
def hostInputs : MacInputs β where
  request := Host.requestInput
  response := Host.responseInput
  pair use q := use.hostLabel ++ q.client ++ q.server

/-! ## Separation -/

/-- Each input says what it is: a request, a response, or a nonce pair and its use. -/
structure MacInputs.Separated (m : MacInputs β) : Prop where
  request {c c' : UInt8} {n n' : UInt16} {p p' : List β}
    (h : m.request c n p = m.request c' n' p') : c = c' ∧ n = n' ∧ p = p'
  response {c c' r r' : UInt8} {n n' : UInt16} {p p' : List β}
    (h : m.response c r n p = m.response c' r' n' p') : c = c' ∧ r = r' ∧ n = n' ∧ p = p'
  request_ne_response {c c' r : UInt8} {n n' : UInt16} {p p' : List β}
    (h : authCommandIsProtected c = true) : m.request c n p ≠ m.response c' r n' p'
  pair {u u' : PairUse} {q q' : NoncePair β} (h : m.pair u q = m.pair u' q') : u = u' ∧ q = q'

theorem requestInput_inj {c c' : UInt8} {n n' : UInt16} {p p' : List β}
    (h : requestInput c n p = requestInput c' n' p') : c = c' ∧ n = n' ∧ p = p' := by
  simp only [requestInput, List.cons_append, List.cons.injEq] at h
  obtain ⟨hc, h⟩ := h
  obtain ⟨hn, hp⟩ := List.append_inj h rfl
  exact ⟨ofByte_injective hc, le16_injective hn, hp⟩

theorem responseInput_inj {c c' r r' : UInt8} {n n' : UInt16} {p p' : List β}
    (h : responseInput c r n p = responseInput c' r' n' p') :
    c = c' ∧ r = r' ∧ n = n' ∧ p = p' := by
  simp only [responseInput, List.append_assoc, List.cons_append, List.append_cancel_left_eq,
    List.cons.injEq] at h
  obtain ⟨hc, hr, h⟩ := h
  obtain ⟨hn, hp⟩ := List.append_inj h rfl
  exact ⟨ofByte_injective hc, ofByte_injective hr, le16_injective hn, hp⟩

/-- A request reads like a response only under the code of an `r`. -/
theorem requestInput_ne_responseInput {c c' r : UInt8} {n n' : UInt16} {p p' : List β}
    (hc : c ≠ 0x72) : requestInput c n p ≠ responseInput c' r n' p' := by
  intro h
  have h₀ := congrArg List.head? h
  simp only [requestInput, responseInput, List.cons_append, List.head?_cons,
    authResponsePrefix, ascii, List.map_cons] at h₀
  exact hc (ofByte_injective (Option.some.inj h₀))

theorem ne_of_authCommandIsProtected {c : UInt8} (h : authCommandIsProtected c = true) :
    c ≠ 0x72 := by
  rintro rfl
  exact absurd h (by decide)

theorem separated_deviceInputs : (deviceInputs : MacInputs β).Separated where
  request := requestInput_inj
  response := responseInput_inj
  request_ne_response h := requestInput_ne_responseInput (ne_of_authCommandIsProtected h)
  pair {u u' q q'} h := by
    simp only [deviceInputs] at h
    have hl := congrArg List.length h
    rw [length_pair_input, length_pair_input, Nat.add_right_cancel_iff] at hl
    exact ⟨PairUse.eq_of_length hl, (pair_of_append hl h).2⟩

/-- The texts of the host are those of the device. -/
theorem PairUse.hostLabel_eq (u : PairUse) : (u.hostLabel : List β) = u.label := by
  cases u with
  | authProof => exact Host.authProofPrefix_eq
  | deviceProof => exact Host.authDeviceProofPrefix_eq
  | session => exact Host.authSessionPrefix_eq

/-- The host puts together what the device does. -/
theorem hostInputs_eq : (hostInputs : MacInputs β) = deviceInputs := by
  rw [hostInputs, deviceInputs, MacInputs.mk.injEq]
  refine ⟨?_, ?_, ?_⟩
  · funext command sequence payload
    exact Host.requestInput_eq command sequence payload
  · funext requestCommand command sequence payload
    exact Host.responseInput_eq requestCommand command sequence payload
  · funext use q
    rw [PairUse.hostLabel_eq]

/-- **The inputs of the MACs are separated**, on the device and on the host. -/
theorem mac_inputs_separated : (deviceInputs : MacInputs β).Separated ∧
    (hostInputs : MacInputs β).Separated := by
  rw [hostInputs_eq]
  exact ⟨separated_deviceInputs, separated_deviceInputs⟩

/-! ### The MACs over them -/

section Macs
variable (c r : UInt8) (n : UInt16) (p key : List β) (u : PairUse) (q : NoncePair β)

theorem device_macs (s : AuthState β) :
    computePacketTag s c n p = hmacSha256 s.sessionKey (deviceInputs.request c n p) ∧
      computeResponseTag s c r n p = hmacSha256 s.sessionKey (deviceInputs.response c r n p) ∧
      hmacPrefixedNoncePair u.label key q.client q.server =
        some (Alphabet.hmac key (deviceInputs.pair u q)) := by
  refine ⟨rfl, rfl, hmacPrefixedNoncePair_eq ?_ q.length_client q.length_server⟩
  cases u <;> simp [PairUse.label]

theorem host_macs :
    Host.tag key c n p = (Alphabet.hmac key (hostInputs.request c n p)).take authTagSize ∧
      Host.expected key c r n p =
        (Alphabet.hmac key (hostInputs.response c r n p)).take authTagSize ∧
      Host.proof key q.client q.server =
        (Alphabet.hmac key (hostInputs.pair .authProof q)).take authTagSize ∧
      Host.expectedDeviceProof key q.client q.server =
        (Alphabet.hmac key (hostInputs.pair .deviceProof q)).take authTagSize ∧
      Host.sessionKey key q.client q.server = Alphabet.hmac key (hostInputs.pair .session q) :=
  ⟨rfl, rfl, rfl, rfl, rfl⟩

end Macs

end OtaLink
