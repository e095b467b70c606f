import OtaLink.Device
import OtaLink.Octets

/-!
# The replay cache over whole runs

Every response to a protected request of a session is stored, whether the request was
executed, refused by its command, or refused because its tag is wrong; only a response
that is itself resent from the cache is not. So what keeps a request from being
executed twice is the number of stored responses since, of either kind, and what a
packet with a wrong tag can do to later ones is to store an entry.

## Main definitions

* `AuthStep`, `handle_auth`, `step_auth` — all that one packet can do to the session.
* `Device.stored` — how many responses a run stores.
* `replay_window` — a request is not executed again before eight responses are stored.
-/

namespace OtaLink
open Lib

variable {β : Type}

/-- The dispatcher has run a command. -/
def Event.isOperate : Event β → Bool
  | .operate .. => true
  | _ => false

/-- A protected command was executed among `events`. -/
def executes (events : List (Event β)) : Bool := events.any Event.isOperate

/-- A packet of this version with a protected command. -/
def Packet.isGuarded (packet : Packet β) : Bool :=
  packet.version == protocolVersion && authCommandIsProtected packet.command

/-- A guarded packet names one of the protected commands. -/
theorem exists_command_of_isGuarded {packet : Packet β} (h : packet.isGuarded = true) :
    packet.version = protocolVersion ∧
      ∃ c : Command, packet.command = c.code ∧ c.isProtected = true := by
  simp only [Packet.isGuarded, Bool.and_eq_true, beq_iff_eq] at h
  refine ⟨h.1, ?_⟩
  by_contra hne
  have : authCommandIsProtected packet.command = false := by
    refine authCommandIsProtected_of_ofCode? fun c hc => ?_
    by_contra hp
    exact hne ⟨c, (Command.code_of_ofCode? hc).symm, by simpa using hp⟩
  simp [h.2] at this

/-- A packet that starts a new session. -/
def Packet.isChallenge (packet : Packet β) : Bool :=
  packet.command == Command.auth.code && packet.payload.length == authNonceSize

variable [Alphabet β]

/-- Handling `packet` stores a response: the session is live and the cache does not
answer. -/
def AuthState.stores (s : AuthState β) (packet : Packet β) : Bool :=
  packet.isGuarded && s.required && s.authenticated &&
    match s.lookup packet with
    | .duplicate _ => false
    | _ => true

section Gate
variable {s : AuthState β} {packet : Packet β}

/-- The cache knows nothing of a request under a fresh command and sequence. -/
theorem lookup_eq_fresh_iff : s.lookup packet = .fresh ↔ ∀ entry ∈ s.replayCache.entries,
    ¬(entry.requestCommand = packet.command ∧ entry.sequence = packet.sequence) := by
  unfold AuthState.lookup
  split
  · rename_i hf
    simpa [Ring.find?_eq_none_iff] using hf
  · rename_i entry hf
    have hmatch := List.find?_some hf
    simp only [Bool.and_eq_true, beq_iff_eq] at hmatch
    have hne : ¬∀ e ∈ s.replayCache.entries,
        ¬(e.requestCommand = packet.command ∧ e.sequence = packet.sequence) :=
      fun h => h entry (List.mem_of_find?_eq_some hf) hmatch
    simp only [hne, iff_false]
    split <;> simp

/-- A duplicate is answered from a live entry with its identity. -/
theorem mem_of_duplicate {entry : ReplayEntry β} (h : s.lookup packet = .duplicate entry) :
    entry ∈ s.replayCache.entries ∧ entry.requestCommand = packet.command ∧
      entry.sequence = packet.sequence ∧ entry.requestDigest = computeRequestDigest packet := by
  unfold AuthState.lookup at h
  split at h
  · cases h
  · rename_i e hf
    split at h
    · cases h
    · rename_i hd
      cases h
      have hmatch := List.find?_some hf
      simp only [Bool.and_eq_true, beq_iff_eq] at hmatch
      exact ⟨List.mem_of_find?_eq_some hf, hmatch.1, hmatch.2, by simpa using hd⟩

/-- A conflict is with a live entry under the request's command and sequence. -/
theorem mem_of_conflict (h : s.lookup packet = .conflict) : ∃ entry ∈ s.replayCache.entries,
    entry.requestCommand = packet.command ∧ entry.sequence = packet.sequence ∧
      entry.requestDigest ≠ computeRequestDigest packet := by
  unfold AuthState.lookup at h
  split at h
  · cases h
  · rename_i e hf
    split at h
    · rename_i hd
      have hmatch := List.find?_some hf
      simp only [Bool.and_eq_true, beq_iff_eq] at hmatch
      exact ⟨e, List.mem_of_find?_eq_some hf, hmatch.1, hmatch.2, hd⟩
    · cases h

theorem lookup_of_resend {entry : ReplayEntry β} (h : s.gate packet = .resend entry) :
    s.required = true ∧ s.authenticated = true ∧ s.lookup packet = .duplicate entry := by
  unfold AuthState.gate at h
  split_ifs at h with hr ha
  split at h
  · cases h
  · cases h
    simp_all
  · split at h <;> cases h

theorem lookup_of_not_resend (h : ∀ entry, s.gate packet ≠ .resend entry)
    (hr : s.required = true) (ha : s.authenticated = true) :
    ∀ entry, s.lookup packet ≠ .duplicate entry := by
  intro entry hl
  exact h entry (by simp [AuthState.gate, hr, ha, hl])

theorem lookup_of_run {payload : List β} (h : s.gate packet = .run payload)
    (hr : s.required = true) :
    s.authenticated = true ∧ s.lookup packet = .fresh ∧
      authUnwrapPacket s packet = .ok payload := by
  unfold AuthState.gate at h
  split_ifs at h with hr' ha
  · simp [hr] at hr'
  · split at h
    · cases h
    · cases h
    · rename_i hl
      split at h
      · cases h
      · rename_i hu
        cases h
        exact ⟨by simpa using ha, hl, hu⟩

end Gate

/-- The possible effects of one packet on the session. -/
inductive AuthStep (d : Device β) (packet : Packet β) : AuthState β → Prop
  | same (hs : d.auth.stores packet = false) : AuthStep d packet d.auth
  | stored (error : ProtocolError) (hs : d.auth.stores packet = true) :
      AuthStep d packet { d.auth with
        replayCache := d.auth.replayCache.insert
          (d.auth.entryFor packet (responseFor error) (statusPayload error)) }
  | challenged (serverNonce : List β) (hc : packet.isChallenge = true)
      (hn : packet.payload.length = authNonceSize) (hl : serverNonce.length = authNonceSize) :
      AuthStep d packet (d.auth.challenged packet.payload serverNonce hn hl)
  | proved (hs : d.auth.pending = true ∨ d.auth.authenticated = true)
      (hg : packet.isGuarded = false) : AuthStep d packet d.auth.proved
  | restarted : AuthStep d packet d.restarted.auth

theorem authStep_report {d : Device β} {packet : Packet β} {error : ProtocolError}
    (hg : packet.isGuarded = true) (hl : ∀ entry, d.auth.gate packet ≠ .resend entry) :
    AuthStep d packet (d.auth.remember packet (responseFor error) (statusPayload error)) := by
  obtain ⟨-, hp⟩ : packet.version = protocolVersion ∧
      authCommandIsProtected packet.command = true := by simpa [Packet.isGuarded] using hg
  unfold AuthState.remember
  split
  · rename_i hs
    obtain ⟨⟨hr, ha⟩, -⟩ : (d.auth.required = true ∧ d.auth.authenticated = true) ∧ _ := by
      simpa [AuthState.signs] using hs
    have hd := lookup_of_not_resend hl hr ha
    refine .stored error ?_
    simp only [AuthState.stores, hg, hr, ha, Bool.true_and]
  · rename_i hs
    refine .same ?_
    simp only [AuthState.signs, hp, Bool.and_true, Bool.not_eq_true] at hs
    simp [AuthState.stores, hg, hs]

/-- **All that handling one packet can do to the session.** -/
theorem handle_auth (d : Device β) (esp : EspIdf β) (packet : Packet β) :
    AuthStep d packet (d.handle esp packet).1.auth := by
  have h := handle_cases d esp packet
  have hunguarded : ∀ h : packet.version = protocolVersion →
      authCommandIsProtected packet.command = false, packet.isGuarded = false := by
    intro h
    by_cases hv : packet.version = protocolVersion <;> simp [Packet.isGuarded, hv, h]
  generalize d.handle esp packet = r at h
  cases h with
  | status error _ hp => exact .same (by simp [AuthState.stores, hunguarded hp])
  | info hc => exact .same (by simp [AuthState.stores, Packet.isGuarded, hc, Command.isProtected])
  | challenge hc _ hn =>
    exact .challenged _ (by simp [Packet.isChallenge, hc, hn]) hn esp.length_fillRandom
  | proof hc _ hs => exact .proved hs (by simp [Packet.isGuarded, hc, Command.isProtected])
  | guarded c hv hc hp =>
    have hg' : packet.isGuarded = true := by simp [Packet.isGuarded, hv, hc, hp]
    rw [Device.answer, Device.answerWith]
    cases hg : d.auth.gate packet with
    | resend entry =>
      obtain ⟨-, -, hl⟩ := lookup_of_resend hg
      exact .same (by simp [AuthState.stores, hl])
    | refuse error => exact authStep_report hg' (by simp [hg])
    | run payload => exact authStep_report hg' (by simp [hg])

/-- No packet changes what a restart brings back. -/
theorem AuthStep.restarted_eq {d d' : Device β} {packet : Packet β}
    (h : AuthStep d packet d'.auth) : d'.restarted = d.restarted := by
  simp only [Device.restarted]
  generalize d'.auth = s at h
  cases h <;> rfl

/-- **All that one packet can do to the session**, with the restart it may end in. -/
theorem step_auth (d : Device β) (esp : EspIdf β) (packet : Packet β) :
    AuthStep d packet (d.step esp packet).1.auth := by
  have h := handle_auth d esp packet
  rw [Device.step]
  split
  · rw [h.restarted_eq]
    exact .restarted
  · exact h

/-- A device without a session has stored nothing. -/
theorem AuthStep.history_nil {d : Device β} {packet : Packet β} {s : AuthState β}
    (h : AuthStep d packet s) (hd : d.auth.authenticated = false → d.auth.replayCache.History [])
    (hs : s.authenticated = false) : s.replayCache.History [] := by
  cases h with
  | same => exact hd hs
  | stored _ hstores =>
    simp [AuthState.stores, show d.auth.authenticated = false from hs] at hstores
  | challenged | restarted => exact Ring.history_empty
  | proved => cases hs

/-- The switch that requires authentication never changes. -/
theorem required_step (d : Device β) (esp : EspIdf β) (packet : Packet β) :
    (d.step esp packet).1.auth.required = d.auth.required := by
  have h := step_auth d esp packet
  generalize (d.step esp packet).1.auth = s at h
  cases h <;> rfl

/-- A device restarts to one and the same state, whatever it has handled. -/
theorem restarted_step (d : Device β) (esp : EspIdf β) (packet : Packet β) :
    (d.step esp packet).1.restarted = d.restarted := (step_auth d esp packet).restarted_eq

/-- Only a packet that passes the gate of a protected command executes it. -/
theorem run_of_executes {d : Device β} {esp : EspIdf β} {packet : Packet β}
    (h : executes (d.step esp packet).2 = true) :
    packet.isGuarded = true ∧ ∃ payload, d.auth.gate packet = .run payload := by
  have hstep := step_cases d esp packet
  generalize d.step esp packet = r at h hstep
  cases hstep with
  | run c hv hc hp hg => exact ⟨by simp [Packet.isGuarded, hv, hc, hp], _, hg⟩
  | _ => simp [executes, Event.isOperate] at h

/-! ## The replay window -/

/-- How many responses a run stores in the cache. -/
def Device.stored (d : Device β) : List (Stimulus β) → ℕ
  | [] => 0
  | .packet packet esp :: xs =>
      (if d.auth.stores packet then 1 else 0) + (d.step esp packet).1.stored xs
  | .reset :: xs => d.restarted.stored xs

/-- How many protected requests with a correct tag a run handles. -/
def Device.tagged (d : Device β) : List (Stimulus β) → ℕ
  | [] => 0
  | .packet packet esp :: xs =>
      (if packet.isGuarded && (authUnwrapPacket d.auth packet).isOk then 1 else 0) +
        (d.step esp packet).1.tagged xs
  | .reset :: xs => d.restarted.tagged xs

/-- No stimulus of the run starts a new session. -/
def inSession : List (Stimulus β) → Bool
  | [] => true
  | .packet packet _ :: xs => !packet.isChallenge && inSession xs
  | .reset :: xs => inSession xs

/-- The device still refuses or answers `R` from its cache: its session is over, or an
entry under the command and sequence of `R` is at most `k` insertions old. -/
def Covers (R : Packet β) (k : ℕ) (s : AuthState β) : Prop :=
  s.required = true ∧ ((s.authenticated = false ∧ s.pending = false) ∨
    ∃ later entry, s.replayCache.Recent (later ++ [entry]) ∧ later.length ≤ k ∧
      entry.requestCommand = R.command ∧ entry.sequence = R.sequence)

theorem covers_restarted {R : Packet β} {d : Device β} {k : ℕ} (hr : d.auth.required = true) :
    Covers R k d.restarted.auth := ⟨hr, .inl ⟨rfl, rfl⟩⟩

theorem Covers.step {R packet : Packet β} {k : ℕ} {d : Device β} {s : AuthState β}
    (H : Covers R k d.auth) (hc : packet.isChallenge = false) (h : AuthStep d packet s) :
    Covers R ((if d.auth.stores packet then 1 else 0) + k) s := by
  obtain ⟨hr, H⟩ := H
  cases h with
  | same hs => simpa [hs] using ⟨hr, H⟩
  | stored error hs =>
    refine ⟨hr, H.imp id ?_⟩
    rintro ⟨later, entry, hrecent, hk, hcommand, hsequence⟩
    exact ⟨_ :: later, entry, hrecent.insert _, by simp [hs]; omega, hcommand, hsequence⟩
  | challenged _ h => simp [hc] at h
  | proved hs hg =>
    have hstores : d.auth.stores packet = false := by simp [AuthState.stores, hg]
    refine ⟨hr, ?_⟩
    simp only [hstores, Bool.false_eq_true, if_false, Nat.zero_add]
    rcases H with ⟨ha, hp⟩ | H
    · simp [ha, hp] at hs
    · exact .inr H
  | restarted => exact covers_restarted hr

theorem Covers.run {R : Packet β} (xs : List (Stimulus β)) (hxs : inSession xs = true) :
    ∀ {d : Device β} {k : ℕ}, Covers R k d.auth → Covers R (d.stored xs + k) (d.run xs).1.auth := by
  induction xs with
  | nil => intro d k H; simpa [Device.stored, Device.run] using H
  | cons x xs ih =>
    intro d k H
    cases x with
    | packet packet esp =>
      simp only [inSession, Bool.and_eq_true, Bool.not_eq_true'] at hxs
      have := ih hxs.2 (H.step hxs.1 (step_auth d esp packet))
      rw [← Nat.add_assoc, Nat.add_comm (Device.stored _ xs)] at this
      exact this
    | reset => exact ih hxs (covers_restarted H.1)

/-- An entry under the command and sequence of a request keeps it from being executed. -/
theorem Covers.not_executes {R : Packet β} {k : ℕ} {d : Device β} (H : Covers R k d.auth)
    (hk : k < authReplayCacheSize) (esp : EspIdf β) : executes (d.step esp R).2 = false := by
  by_contra h
  obtain ⟨-, payload, hg⟩ := run_of_executes (by simpa using h)
  obtain ⟨hr, H⟩ := H
  obtain ⟨ha, hl, -⟩ := lookup_of_run hg hr
  rcases H with ⟨hn, -⟩ | ⟨later, entry, hrecent, hlater, hcommand, hsequence⟩
  · simp [ha] at hn
  · have hlive := hrecent.mem_entries (by simp [authReplayCacheSize] at hk; omega)
    exact lookup_eq_fresh_iff.mp hl entry hlive ⟨hcommand, hsequence⟩

/-- **Replay window.** Once a request has been executed in a session, the same octets are
not executed again in it before eight further responses have been stored. -/
theorem replay_window {d : Device β} {R : Packet β} {esp : EspIdf β}
    (hr : d.auth.required = true) (hR : executes (d.step esp R).2 = true)
    (xs : List (Stimulus β)) (hsession : inSession xs = true)
    (hfew : (d.step esp R).1.stored xs < authReplayCacheSize) (esp' : EspIdf β) :
    executes (((d.step esp R).1.run xs).1.step esp' R).2 = false := by
  obtain ⟨hguarded, payload, hg⟩ := run_of_executes hR
  obtain ⟨ha, hl, -⟩ := lookup_of_run hg hr
  have hstores : d.auth.stores R = true := by simp [AuthState.stores, hguarded, hr, ha, hl]
  have hstart : Covers R 0 (d.step esp R).1.auth := by
    have hstep := step_auth d esp R
    generalize (d.step esp R).1.auth = s at hstep
    cases hstep with
    | same hs => simp [hstores] at hs
    | stored error =>
      exact ⟨hr, .inr ⟨[], _, (Ring.recent_nil _).insert _, Nat.le_refl 0, rfl, rfl⟩⟩
    | challenged _ hc =>
      simp only [Packet.isChallenge, Packet.isGuarded, Bool.and_eq_true, beq_iff_eq] at hc hguarded
      simp [hc.1, Command.isProtected] at hguarded
    | proved _ hn => simp [hguarded] at hn
    | restarted => exact covers_restarted hr
  exact (Covers.run xs hsession hstart).not_executes (by simpa using hfew) esp'

/-! ### A session of eight forged packets -/

/-- A device that requires authentication, after its start. -/
def lockedDevice : Device Octet :=
  ⟨{ AuthState.cleared with key := pskOctets 1, required := true }, .cleared⟩

/-- The nonces of the session below. -/
def sampleClientNonce : List Octet := octets (List.replicate 16 1)
def sampleServerNonce : List Octet := octets (List.replicate 16 0)

theorem length_sampleClientNonce : sampleClientNonce.length = authNonceSize := rfl

/-- The answers of the platform below. -/
def sampleEsp : EspIdf Octet := .succeeding ⟨65536, 4096⟩ (octets (List.replicate 32 9))

/-- Deliver a packet of this version. -/
def deliver (c : Command) (n : UInt16) (payload : List Octet) : Stimulus Octet :=
  .packet ⟨protocolVersion, c.code, n, payload⟩ sampleEsp

/-- A request with the tag of the session below. -/
def taggedRequest (c : Command) (n : UInt16) (payload : List Octet) : Packet Octet :=
  ⟨protocolVersion, c.code, n, payload ++
    requestTag (sessionKeyOf (pskOctets 1) sampleClientNonce sampleServerNonce) c.code n payload⟩

def handshake : List (Stimulus Octet) :=
  [deliver .auth 1 sampleClientNonce,
    deliver .auth 2 (sampleClientNonce ++
      authProofOf (pskOctets 1) sampleClientNonce sampleServerNonce)]

/-- The announcement of a one-octet image. -/
def sampleBegin : List Octet := le32 1 ++ octets (List.replicate 32 9)

/-- An `OTA_ABORT` with a correct tag, and eight packets without a tag. -/
def abortAndForge : List (Stimulus Octet) :=
  .packet (taggedRequest .otaAbort 4 []) sampleEsp ::
    (List.range 8).map fun i => deliver .otaAbort (UInt16.ofNat (10 + i)) []

/-- Counting the requests with a correct tag does not bound the window: eight packets
without a tag evict an executed `OTA_BEGIN`, and it opens the partition again. -/
theorem replay_window_forged :
    ¬∀ (config : OtaLinkConfig Octet) (d₀ : Device Octet) (before xs : List (Stimulus Octet))
      (R : Packet Octet) (esp esp' : EspIdf Octet), otaLinkStartWithConfig config = some d₀ →
      (d₀.run before).1.auth.required = true →
      executes ((d₀.run before).1.step esp R).2 = true → inSession xs = true →
      ((d₀.run before).1.step esp R).1.tagged xs < authReplayCacheSize →
      executes ((((d₀.run before).1.step esp R).1.run xs).1.step esp' R).2 = false := by
  intro h
  exact absurd
    (h ⟨some (pskOctets 1), true⟩ lockedDevice handshake abortAndForge
      (taggedRequest .otaBegin 3 sampleBegin) sampleEsp sampleEsp rfl (by decide) (by decide)
      (by decide) (by decide +kernel))
    (by decide +kernel)

/-- Seven packets without a tag leave the window open. -/
theorem replay_window_seven :
    executes ((((lockedDevice.run handshake).1.step sampleEsp
      (taggedRequest .otaBegin 3 sampleBegin)).1.run (abortAndForge.take 7)).1.step sampleEsp
        (taggedRequest .otaBegin 3 sampleBegin)).2 = false :=
  replay_window (d := (lockedDevice.run handshake).1) (by decide) (by decide)
    (abortAndForge.take 7) (by decide) (by decide) sampleEsp

end OtaLink
