import OtaLink.Mem.Commands

/-!
# The replay cache in every reachable state

A request that matches an entry of the cache is answered with what the entry holds, without a
look at its tag. So the cache must hold answers of the present session only: a new key makes
every answer before it invalid. The session is what the device has received since it took a
challenge, or since it was configured; the invariant says that each live entry answers one of
these packets under the session key of the moment.

## Main definitions

* `AuthState.Cached` — what the ring holds in a session.
* `Mem.Reachable` — the firmware with the packets of its session, over all inputs and all
  configurations.
* `Mem.AuthState.CacheInvariant` — what the arrays of the cache hold.
* `Mem.replay_cache_invariant` — they do in every reachable state.
* `Mem.reachable_of_run` — the runs of the firmware go through reachable states.
-/

namespace OtaLink
open Lib

/-! ## The ring of a session -/

section Session
variable {β : Type}

/-- The packet is taken as a challenge. -/
def AuthState.starts (s : AuthState β) (packet : Packet β) : Bool :=
  s.required && packet.version == protocolVersion && packet.isChallenge

variable [Alphabet β]

/-- What the cache holds in a session that has received `received`. -/
structure AuthState.Cached (s : AuthState β) (received : List (Packet β)) : Prop where
  locked : s.authenticated = false → s.replayCache.entries = []
  answers : ∀ entry ∈ s.replayCache.entries, ∃ request ∈ received, ∃ error,
    authCommandIsProtected request.command = true ∧
      entry = s.entryFor request (responseFor error) (statusPayload error)

theorem cached_of_empty {s : AuthState β} (h : s.replayCache = .empty 8)
    (received : List (Packet β)) : s.Cached received where
  locked _ := by simp [h]
  answers entry hentry := by simp [h] at hentry

theorem AuthState.Cached.append {s : AuthState β} {received : List (Packet β)}
    (h : s.Cached received) (packet : Packet β) : s.Cached (received ++ [packet]) where
  locked := h.locked
  answers entry hentry := by
    obtain ⟨request, hmem, hrequest⟩ := h.answers entry hentry
    exact ⟨request, List.mem_append_left _ hmem, hrequest⟩

/-- **One packet keeps the ring**: a challenge empties it, and any other packet stores at most
its own answer. -/
theorem AuthState.Cached.handle {d : Device β} {received : List (Packet β)}
    (h : d.auth.Cached received) (esp : EspIdf β) (packet : Packet β) :
    (d.handle esp packet).1.auth.Cached
      (if d.auth.starts packet then [] else received ++ [packet]) := by
  by_cases hs : d.auth.starts packet = true
  · obtain ⟨⟨hr, hv⟩, hc, hn⟩ : (d.auth.required = true ∧ packet.version = protocolVersion) ∧
        packet.command = Command.auth.code ∧ packet.payload.length = authNonceSize := by
      simpa [AuthState.starts, Packet.isChallenge] using hs
    rw [handle_challenge esp hv hc hr hn]
    exact cached_of_empty rfl _
  rw [if_neg hs]
  have hstep := handle_auth d esp packet
  generalize (d.handle esp packet).1.auth = s at hstep
  cases hstep with
  | same => exact h.append packet
  | stored error hstores =>
    obtain ⟨⟨⟨⟨-, hp⟩, -⟩, ha⟩, -⟩ : (((_ ∧ authCommandIsProtected packet.command = true) ∧
        _) ∧ d.auth.authenticated = true) ∧ _ := by
      simpa [AuthState.stores, Packet.isGuarded] using hstores
    refine ⟨fun hn => absurd ha (by simpa using hn), fun entry hentry => ?_⟩
    rcases Ring.mem_entries_insert hentry with rfl | hentry
    · exact ⟨packet, by simp, error, hp, rfl⟩
    · exact (h.append packet).answers entry hentry
  | challenged => exact cached_of_empty rfl _
  | proved => exact ⟨fun hn => absurd hn (by simp [AuthState.proved]), (h.append packet).answers⟩
  | restarted => exact cached_of_empty rfl _

end Session

namespace Mem

/-! ## Reachable states -/

/-- The packet is taken as a challenge. -/
def AuthState.starts (s : AuthState) (packet : Packet) : Bool :=
  s.required && packet.version == protocolVersion && packet.command == Command.auth.code &&
    packet.length == authNonceSize

/-- The states of the firmware, each with the packets its session has received. -/
inductive Reachable : Firmware → List Packet → Prop
  /-- The static state is zero after a restart. -/
  | boot {parser : Parser} (h : parser.length = 0) : Reachable ⟨parser, ⟨.cleared, .cleared⟩⟩ []
  | configured {f : Firmware} {received : List Packet} {auth : AuthState}
      (key : Option (List UInt8)) (requireAuthentication : Bool) (h : Reachable f received)
      (hconf : authConfigure key requireAuthentication = some auth) :
      Reachable ⟨f.parser, ⟨auth, f.device.ota⟩⟩ []
  /-- An octet that completes no packet. -/
  | octet {f : Firmware} {received : List Packet} {byte : UInt8} {parser : Parser}
      (h : Reachable f received) (hfeed : protocolParserFeed f.parser byte = some (parser, none)) :
      Reachable ⟨parser, f.device⟩ received
  /-- An octet that completes a packet, up to where the dispatcher returns or restarts. -/
  | packet {f : Firmware} {received : List Packet} {byte : UInt8} {parser : Parser}
      {packet : Packet} {device : Device} {events : List Event} (esp : EspResults)
      (h : Reachable f received)
      (hfeed : protocolParserFeed f.parser byte = some (parser, some packet))
      (hrun : (commandsHandlePacket esp packet).run f.device = some ((), device, events)) :
      Reachable ⟨parser, device⟩
        (if f.device.auth.starts packet then [] else received ++ [packet])

/-- The entry holds the digest and the signed answer of a packet the session has received. -/
structure ReplayEntry.Answers (entry : ReplayEntry) (sessionKey : List UInt8)
    (received : List Packet) : Prop where
  isProtected : authCommandIsProtected entry.requestCommand = true
  request : ∃ request ∈ received, ∃ payload,
    request.command = entry.requestCommand ∧ request.sequence = entry.sequence ∧
      request.payload.read? 0 request.length = some payload ∧
      entry.requestDigest.read? 0 sha256Size =
        some (sha256 (requestInput entry.requestCommand entry.sequence payload))
  responseLength_le : entry.responseLength ≤ protocolMaxPayload
  response : ∃ payload, entry.responsePayload.read? 0 entry.responseLength =
    some (payload ++ responseTag sessionKey entry.requestCommand entry.responseCommand
      entry.sequence payload)

/-- What the arrays of the cache hold in a session that has received `received`. -/
structure AuthState.CacheInvariant (s : AuthState) (received : List Packet) : Prop where
  next_lt : s.nextReplayEntry < authReplayCacheSize
  entries : ∃ entries sessionKey,
    s.replayCache.read? 0 authReplayCacheSize = some entries ∧
      s.sessionKey.read? 0 sha256Size = some sessionKey ∧
      (s.authenticated = false → ∀ entry ∈ entries, entry.valid = false) ∧
      ∀ entry ∈ entries, entry.valid = true → entry.Answers sessionKey received

/-! ## The arrays hold the ring -/

theorem starts_eq {m : AuthState} {s : OtaLink.AuthState UInt8} {packet : Packet}
    {p : OtaLink.Packet UInt8} (h : m.Holds s) (hp : packet.Holds p) :
    m.starts packet = s.starts p := by
  simp only [AuthState.starts, OtaLink.AuthState.starts, Packet.isChallenge, h.required,
    hp.version, hp.command, hp.length, Bool.and_assoc]

/-- The entries of the array, each one empty or an entry of the ring. -/
theorem CacheHolds.read {cache : Buffer ReplayEntry authReplayCacheSize} {next : ℕ}
    {r : Ring (OtaLink.ReplayEntry UInt8) 8} (h : CacheHolds cache next r) :
    ∃ entries, cache.read? 0 authReplayCacheSize = some entries ∧
      ∀ entry ∈ entries, entry.valid = false ∨ ∃ e ∈ r.entries, entry.Stores e := by
  obtain ⟨-, entries, hlen, hbegins, hin⟩ := h
  have hread := hbegins.read_all
  rw [hlen] at hread
  refine ⟨entries, hread, fun entry hentry => ?_⟩
  obtain ⟨i, hi, rfl⟩ := List.mem_iff_getElem.mp hentry
  have hslot : i < r.slots.toList.length := by
    rw [Vector.length_toList]
    omega
  have hin := hin i entries[i] _ (List.getElem?_eq_getElem hi) (List.getElem?_eq_getElem hslot)
  cases ho : r.slots.toList[i] with
  | none => exact .inl (by simpa [ho, ReplayEntry.In] using hin)
  | some e =>
    refine .inr ⟨e, ?_, by simpa [ho, ReplayEntry.In] using hin⟩
    exact List.mem_filterMap.mpr ⟨some e, List.mem_of_getElem ho, rfl⟩

theorem replayCache_authConfigure (key : Option (List UInt8)) (requireAuthentication : Bool) :
    (OtaLink.authConfigure key requireAuthentication).replayCache = .empty 8 := by
  unfold OtaLink.authConfigure
  split
  · rfl
  · split <;> rfl

/-- **A reachable state holds a device** whose ring is that of its session. -/
theorem Reachable.holds {f : Firmware} {received : List Packet} (h : Reachable f received) :
    ∃ held d ps, f.Holds held d ∧ (∀ p ∈ ps, ∃ request ∈ received, request.Holds p) ∧
      d.auth.Cached ps := by
  induction h with
  | boot hlen =>
    have hparser : Parser.Holds _ [] := ⟨Buffer.begins_nil _, hlen, by simp⟩
    exact ⟨[], ⟨.cleared, .cleared⟩, [], ⟨hparser, holds_cleared, otaHolds_cleared⟩, by simp,
      cached_of_empty rfl _⟩
  | configured key requireAuthentication _ hconf ih =>
    obtain ⟨held, d, -, hf, -, -⟩ := ih
    obtain ⟨auth, hconf', hauth⟩ := authConfigure_spec key requireAuthentication
    obtain rfl : auth = _ := Option.some.inj (hconf'.symm.trans hconf)
    exact ⟨held, ⟨_, d.ota⟩, [], ⟨hf.parser, hauth, hf.device.ota⟩, by simp,
      cached_of_empty (replayCache_authConfigure key requireAuthentication) _⟩
  | @octet _ _ byte _ _ hfeed ih =>
    obtain ⟨held, d, ps, hf, hps, hcached⟩ := ih
    obtain ⟨_, _, hfeed', hparser, -⟩ := protocolParserFeed_spec hf.parser byte
    cases hfeed.symm.trans hfeed'
    exact ⟨_, d, ps, ⟨hparser, hf.device⟩, hps, hcached⟩
  | @packet f received byte _ packet device _ esp _ hfeed hrun ih =>
    obtain ⟨held, d, ps, hf, hps, hcached⟩ := ih
    obtain ⟨_, _, hfeed', hparser, hrel⟩ := protocolParserFeed_spec hf.parser byte
    cases hfeed.symm.trans hfeed'
    generalize (OtaLink.protocolParserFeed held byte).2 = decoded at hrel
    obtain @⟨_, p, hp⟩ := hrel
    obtain ⟨_, _, hrun', hdevice, -⟩ := commandsHandlePacket_realizes hp esp f.device d hf.device
    cases hrun.symm.trans hrun'
    refine ⟨_, _, _, ⟨hparser, hdevice⟩, ?_, hcached.handle esp.answers p⟩
    rw [starts_eq hf.device.auth hp]
    split
    · simp
    · intro q hq
      rcases List.mem_append.mp hq with hq | hq
      · obtain ⟨request, hmem, hrequest⟩ := hps q hq
        exact ⟨request, List.mem_append_left _ hmem, hrequest⟩
      · obtain rfl := List.mem_singleton.mp hq
        exact ⟨packet, by simp, hp⟩

/-- An entry that stores an answer of the ring. -/
theorem ReplayEntry.Stores.answers {entry : ReplayEntry} {s : OtaLink.AuthState UInt8}
    {request : Packet} {p : OtaLink.Packet UInt8} {error : ProtocolError} {received : List Packet}
    (h : entry.Stores (s.entryFor p (responseFor error) (statusPayload error)))
    (hp : authCommandIsProtected p.command = true) (hrequest : request.Holds p)
    (hmem : request ∈ received) : entry.Answers s.sessionKey received where
  isProtected := by rwa [h.requestCommand]
  request := by
    have hread := h.requestDigest.read_all
    rw [h.length_requestDigest] at hread
    refine ⟨request, hmem, p.payload, ?_, ?_, ?_, ?_⟩
    · rw [hrequest.command, h.requestCommand]
      rfl
    · rw [hrequest.sequence, h.sequence]
      rfl
    · rw [hrequest.length]
      exact hrequest.payload.read_all
    · rw [hread, h.requestCommand, h.sequence]
      rfl
  responseLength_le := by
    rw [h.responseLength]
    exact h.responsePayload.length_le
  response := by
    have hread := h.responsePayload.read_all
    rw [← h.responseLength] at hread
    refine ⟨statusPayload error, hread.trans ?_⟩
    rw [h.requestCommand, h.responseCommand, h.sequence]
    rfl

/-- **The replay cache in every reachable state.** The slot that is written next is one of the
cache. Without an authenticated session no entry is live, and every live entry holds a
protected command, the digest of a request the session has received with its command and its
sequence number, and a response that fits a payload and ends with the tag of the session. -/
theorem replay_cache_invariant {f : Firmware} {received : List Packet}
    (h : Reachable f received) : f.device.auth.CacheInvariant received := by
  obtain ⟨held, d, ps, hf, hps, hcached⟩ := h.holds
  have hauth := hf.device.auth
  obtain ⟨entries, hread, hentries⟩ := hauth.cache.read
  have hkey := hauth.sessionKey.read_all
  rw [hauth.length_sessionKey] at hkey
  refine ⟨hauth.cache.1 ▸ d.auth.replayCache.next.isLt, entries, d.auth.sessionKey, hread, hkey,
    fun ha entry hentry => ?_, fun entry hentry hvalid => ?_⟩
  · rw [hauth.authenticated] at ha
    rcases hentries entry hentry with hinvalid | ⟨e, he, -⟩
    · exact hinvalid
    · rw [hcached.locked ha] at he
      cases he
  · rcases hentries entry hentry with hinvalid | ⟨e, he, hstores⟩
    · exact absurd hvalid (by simp [hinvalid])
    · obtain ⟨p, hp, error, hprotected, rfl⟩ := hcached.answers e he
      obtain ⟨request, hmem, hrequest⟩ := hps p hp
      exact hstores.answers hprotected hrequest hmem

/-! ## Runs -/

section Run
variable {config : OtaLinkConfig UInt8} {f f' : Firmware} {events : List Event}

/-- A start after a restart. -/
theorem reachable_of_otaLinkStart {parser : Parser} {device : Device} (h : parser.length = 0)
    (hstart : otaLinkStart config = some device) : Reachable ⟨parser, device⟩ [] := by
  obtain ⟨auth, hconf, hdevice⟩ := Option.bind_eq_some_iff.mp hstart
  cases hdevice
  exact .configured config.authKey config.requireAuthentication (.boot h) hconf

theorem reachable_of_boot (hboot : Firmware.boot config = some f) : Reachable f [] := by
  obtain ⟨device, hstart, hf⟩ := Option.bind_eq_some_iff.mp hboot
  cases hf
  exact reachable_of_otaLinkStart rfl hstart

/-- A packet leaves no octet in the parser. -/
theorem length_eq_zero_of_feed {parser parser' : Parser} {held : List UInt8}
    (h : parser.Holds held) {byte : UInt8} {packet : Packet}
    (hfeed : protocolParserFeed parser byte = some (parser', some packet)) :
    parser'.length = 0 := by
  obtain ⟨_, _, hfeed', hparser, hrel⟩ := protocolParserFeed_spec h byte
  cases hfeed.symm.trans hfeed'
  have hnil : (OtaLink.protocolParserFeed held byte).2 ≠ none →
      (OtaLink.protocolParserFeed held byte).1 = [] := by
    simp only [OtaLink.protocolParserFeed]
    split_ifs <;> simp
  have hsome : (OtaLink.protocolParserFeed held byte).2 ≠ none := by
    intro hnone
    rw [hnone] at hrel
    cases hrel
  rw [hparser.length, hnil hsome, List.length_nil]

theorem Reachable.step {received : List Packet} (h : Reachable f received) {x : Input}
    (hstep : f.step config x = some (f', events)) : ∃ received', Reachable f' received' := by
  cases x with
  | reset =>
    obtain ⟨f₀, hboot, hf⟩ := Option.bind_eq_some_iff.mp hstep
    cases hf
    exact ⟨[], reachable_of_boot hboot⟩
  | octet byte esp =>
    obtain ⟨⟨parser, packet⟩, hfeed, hstep⟩ := Option.bind_eq_some_iff.mp hstep
    cases packet with
    | none =>
      cases hstep
      exact ⟨received, h.octet hfeed⟩
    | some packet =>
      obtain ⟨⟨device, _⟩, hdevice, hf⟩ := Option.bind_eq_some_iff.mp hstep
      cases hf
      obtain ⟨⟨_, device', _⟩, hrun, hdevice⟩ := Option.bind_eq_some_iff.mp hdevice
      dsimp only at hdevice
      split at hdevice
      · obtain ⟨device'', hstart, hdevice⟩ := Option.bind_eq_some_iff.mp hdevice
        cases hdevice
        obtain ⟨held, d, ps, hf, -, -⟩ := h.holds
        exact ⟨[], reachable_of_otaLinkStart (length_eq_zero_of_feed hf.parser hfeed) hstart⟩
      · cases hdevice
        exact ⟨_, h.packet esp hfeed hrun⟩

/-- **The runs of the firmware go through reachable states.** -/
theorem reachable_of_run (hboot : Firmware.boot config = some f) {inputs : List Input}
    (hrun : f.run config inputs = some (f', events)) : ∃ received, Reachable f' received := by
  suffices ∀ inputs {f : Firmware} {received events}, Reachable f received →
      f.run config inputs = some (f', events) → ∃ received, Reachable f' received from
    this inputs (reachable_of_boot hboot) hrun
  intro inputs
  induction inputs with
  | nil =>
    intro f received events h hrun
    cases hrun
    exact ⟨received, h⟩
  | cons x inputs ih =>
    intro f received events h hrun
    obtain ⟨⟨f₁, _⟩, hstep, hrun⟩ := Option.bind_eq_some_iff.mp hrun
    obtain ⟨⟨f₂, _⟩, hrest, hf⟩ := Option.bind_eq_some_iff.mp hrun
    cases hf
    obtain ⟨received', h'⟩ := h.step hstep
    exact ih h' hrest

end Run

/-! ### A request without a tag in a session -/

/-- A challenge, the proof of its nonce pair, and an OTA_ABORT without a tag. -/
def refusedSession : List Input :=
  (OtaLink.protocolSendPacket Command.auth.code 1 (List.replicate 16 1) ++
    OtaLink.protocolSendPacket Command.auth.code 2 (List.replicate 16 1 ++
      [157, 146, 101, 43, 80, 6, 15, 15, 185, 39, 85, 119, 6, 208, 19, 74]) ++
    OtaLink.protocolSendPacket Command.otaAbort.code 3 []).map (.octet · sampleResults)

/-- The first entry of the cache is live. -/
def Firmware.remembers (f : Firmware) : Bool := (f.device.auth.replayCache.load? 0).any (·.valid)

/-- The refusal of the request is an entry of the cache. -/
theorem replay_cache_invariant_refused : ∃ (f : Firmware) (received : List Packet),
    f.remembers = true ∧ f.device.auth.CacheInvariant received := by
  have hlive : ((Firmware.boot ⟨some [1], true⟩).bind fun f =>
      f.run ⟨some [1], true⟩ refusedSession).any (·.1.remembers) = true := by decide +kernel
  obtain ⟨⟨f', _⟩, hf', hlive⟩ := (Option.any_eq_true _ _).mp hlive
  obtain ⟨f, hboot, hrun⟩ := Option.bind_eq_some_iff.mp hf'
  obtain ⟨received, h⟩ := reachable_of_run hboot hrun
  exact ⟨f', received, hlive, replay_cache_invariant h⟩

end Mem
end OtaLink
