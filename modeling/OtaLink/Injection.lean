import OtaLink.Replay
import Mathlib.Data.List.Nodup

/-!
# Forged packets in a run

Two runs of one device side by side: one handles every delivery, the other skips the
packets an outsider has inserted. They differ in the replay cache only, because a
packet with a wrong tag is refused and its refusal is stored.

What the cache says of a genuine request is then a matter of the packets handled before it.
The refusals of forged packets stand between those of genuine ones, so they move an entry to
another slot and push old ones out, and one under the number of a genuine request stands in
its way. If none of this touches the number of a genuine request, the device does the same
in both runs.

## Main definitions

* `Delivery` — a genuine stimulus or a forged packet.
* `Device.answers`, `Device.executions` — what a run does for its genuine deliveries,
  and which commands it executes.
* `Device.recorded` — the requests of a session that have left a response in the cache.
* `Undisturbed` — none of them is in the way of a request.
* `TwoCaches` — the caches of the two runs, as insertions of all and of the genuine responses.
* `forged_packets_inert` — if every genuine request is undisturbed, the runs agree.
-/

namespace OtaLink
open Lib

variable {β : Type} [Alphabet β]

/-! ## Devices that differ in their cache -/

/-- The key of the replay cache: a command, a sequence number and the digest of the request. -/
structure RequestId (β : Type) where
  command : UInt8
  sequence : UInt16
  digest : List β
  deriving DecidableEq

def Packet.requestId (packet : Packet β) : RequestId β :=
  ⟨packet.command, packet.sequence, computeRequestDigest packet⟩

omit [Alphabet β] in
def ReplayEntry.requestId (entry : ReplayEntry β) : RequestId β :=
  ⟨entry.requestCommand, entry.sequence, entry.requestDigest⟩

/-- Same command and same sequence number. -/
def RequestId.shares (i j : RequestId β) : Prop :=
  i.command = j.command ∧ i.sequence = j.sequence

instance (i j : RequestId β) : Decidable (i.shares j) :=
  inferInstanceAs (Decidable (i.command = j.command ∧ i.sequence = j.sequence))

/-- The session with another cache. -/
def AuthState.withCache (s : AuthState β) (cache : Ring (ReplayEntry β) 8) : AuthState β :=
  { s with replayCache := cache }

/-- The device with another cache. -/
def Device.withCache (d : Device β) (cache : Ring (ReplayEntry β) 8) : Device β :=
  { d with auth := d.auth.withCache cache }

section WithCache
variable (d : Device β) (cache : Ring (ReplayEntry β) 8) (esp : EspIdf β) (packet : Packet β)

/-- The handshake does not read the cache. -/
theorem authHandlePacket_withCache (s : AuthState β) :
    (authHandlePacket esp packet).val (s.withCache cache) = (authHandlePacket esp packet).val s ∧
      (authHandlePacket esp packet).log (s.withCache cache) =
        (authHandlePacket esp packet).log s ∧
      ∃ cache', (authHandlePacket esp packet).state (s.withCache cache) =
        ((authHandlePacket esp packet).state s).withCache cache' := by
  cases hr : s.required
  · refine ⟨?_, ?_, cache, ?_⟩ <;> simp [authHandlePacket, AuthState.withCache, hr]
  by_cases hn : packet.payload.length = authNonceSize
  · cases hk : hmacPrefixedNoncePair authSessionPrefix s.key packet.payload esp.fillRandom with
    | none =>
      refine ⟨?_, ?_, cache, ?_⟩ <;> simp [authHandlePacket, AuthState.withCache, hr, hn, hk]
    | some key =>
      cases hd : hmacPrefixedNoncePair authDeviceProofPrefix s.key packet.payload
        esp.fillRandom <;>
      refine ⟨?_, ?_, .empty 8, ?_⟩ <;>
        simp [authHandlePacket, AuthState.withCache, hr, hn, hk, hd]
  by_cases hl : packet.payload.length = authNonceSize + authTagSize
  swap
  · refine ⟨?_, ?_, cache, ?_⟩ <;> simp [authHandlePacket, AuthState.withCache, hr, hn, hl]
  have hne : authTagSize ≠ 0 := by decide
  by_cases hp : s.pending = false ∧ s.authenticated = false
  · refine ⟨?_, ?_, cache, ?_⟩ <;> simp [authHandlePacket, AuthState.withCache, hr, hl, hne, hp]
  by_cases hc : packet.payload.take authNonceSize = s.clientNonce
  swap
  · refine ⟨?_, ?_, cache, ?_⟩ <;>
      simp [authHandlePacket, AuthState.withCache, hr, hl, hne, hp, hc]
  cases he : hmacPrefixedNoncePair authProofPrefix s.key s.clientNonce s.serverNonce with
  | none =>
    refine ⟨?_, ?_, cache, ?_⟩ <;>
      simp [authHandlePacket, AuthState.withCache, hr, hl, hne, hp, hc, he]
  | some expected =>
    by_cases ht : packet.payload.drop authNonceSize = expected.take authTagSize <;>
    refine ⟨?_, ?_, cache, ?_⟩ <;>
      simp [authHandlePacket, AuthState.withCache, hr, hl, hne, hp, hc, he, ht]

/-- A cache after the session has reported `error` for `packet`. -/
def AuthState.storing (s : AuthState β) (packet : Packet β) (error : ProtocolError)
    (cache : Ring (ReplayEntry β) 8) : Ring (ReplayEntry β) 8 :=
  if s.signs packet.command then
    cache.insert (s.entryFor packet (responseFor error) (statusPayload error))
  else cache

theorem report_withCache (error : ProtocolError) : (d.withCache cache).report packet error =
    (d.report packet error).withCache (d.auth.storing packet error cache) := by
  have hs : (d.auth.withCache cache).signs packet.command = d.auth.signs packet.command := rfl
  simp only [Device.report, Device.withCache, AuthState.remember, AuthState.storing, hs]
  split <;> rfl

theorem replayCache_report (error : ProtocolError) : (d.report packet error).auth.replayCache =
    d.auth.storing packet error d.auth.replayCache := by
  simp only [Device.report, AuthState.remember, AuthState.storing]
  split <;> rfl

/-- The gate reads the cache through the lookup of an authenticated session only. -/
theorem gate_withCache (h : d.auth.required = true → d.auth.authenticated = true →
    (d.auth.withCache cache).lookup packet = d.auth.lookup packet) :
    (d.auth.withCache cache).gate packet = d.auth.gate packet := by
  have hu : authUnwrapPacket (d.auth.withCache cache) packet = authUnwrapPacket d.auth packet := rfl
  have hr : (d.auth.withCache cache).required = d.auth.required := rfl
  have ha : (d.auth.withCache cache).authenticated = d.auth.authenticated := rfl
  unfold AuthState.gate
  rw [hr, ha, hu]
  cases hr' : d.auth.required
  · rfl
  cases ha' : d.auth.authenticated
  · rfl
  rw [h hr' ha']

/-- Packets without a protected command are handled without the cache. -/
theorem handle_withCache (hg : packet.isGuarded = false) :
    ∃ cache', (d.withCache cache).handle esp packet =
      ((d.handle esp packet).1.withCache cache', (d.handle esp packet).2) := by
  by_cases hv : packet.version = protocolVersion
  swap
  · exact ⟨cache, by simp [Device.handle, commandsHandlePacket, hv]⟩
  have hp : authCommandIsProtected packet.command = false := by
    simpa [Packet.isGuarded, hv] using hg
  cases hc : Command.ofCode? packet.command with
  | none => exact ⟨cache, by simp [Device.handle, commandsHandlePacket, hv, hc]⟩
  | some c =>
    rw [← Command.code_of_ofCode? hc, authCommandIsProtected_code] at hp
    cases c with
    | auth =>
      obtain ⟨hval, hlog, cache', hstate⟩ := authHandlePacket_withCache cache esp packet d.auth
      refine ⟨cache', ?_⟩
      by_cases hok : (authHandlePacket esp packet).val d.auth = .ok <;>
        simp [Device.handle, commandsHandlePacket, Device.withCache, hv, hc, hval, hlog, hstate,
          hok]
    | getInfo =>
      refine ⟨cache, ?_⟩
      by_cases hlen : esp.infoPayload = [] <;>
        simp [Device.handle, commandsHandlePacket, hv, hc, hlen]
    | ping | ack | nack | info =>
      exact ⟨cache, by simp [Device.handle, commandsHandlePacket, hv, hc]⟩
    | _ => exact absurd hp (by decide)

/-- While the session goes on, a packet leaves the same in both caches. -/
def SameMove (d₁ : Device β) (cache₁ : Ring (ReplayEntry β) 8) : Prop :=
  d₁.auth.authenticated = true →
    (d.auth.stores packet = false ∧ d₁.auth.replayCache = d.auth.replayCache ∧ cache₁ = cache) ∨
    (d.auth.stores packet = true ∧ ∃ entry, entry.requestId = packet.requestId ∧
      d₁.auth.replayCache = d.auth.replayCache.insert entry ∧ cache₁ = cache.insert entry)

omit cache in
/-- What is reported for a request that the cache does not answer is stored, in any cache. -/
theorem storing_cases (hg : packet.isGuarded = true)
    (hl : ∀ entry, d.auth.gate packet ≠ .resend entry) (error : ProtocolError) :
    (d.auth.stores packet = false ∧ ∀ cache, d.auth.storing packet error cache = cache) ∨
      (d.auth.stores packet = true ∧ ∃ entry, entry.requestId = packet.requestId ∧
        ∀ cache, d.auth.storing packet error cache = cache.insert entry) := by
  obtain ⟨-, hp⟩ : packet.version = protocolVersion ∧
      authCommandIsProtected packet.command = true := by simpa [Packet.isGuarded] using hg
  unfold AuthState.storing
  by_cases hs : d.auth.signs packet.command = true
  · obtain ⟨⟨hr, ha⟩, -⟩ : (d.auth.required = true ∧ d.auth.authenticated = true) ∧ _ := by
      simpa [AuthState.signs] using hs
    have hd := lookup_of_not_resend hl hr ha
    refine .inr ⟨?_, _, rfl, fun _ => if_pos hs⟩
    simp only [AuthState.stores, hg, hr, ha, Bool.true_and]
  · refine .inl ⟨?_, fun _ => if_neg hs⟩
    simp only [AuthState.signs, hp, Bool.and_true, Bool.not_eq_true] at hs
    simp [AuthState.stores, Bool.and_assoc, hs]

theorem sameMove_storing (hg : packet.isGuarded = true)
    (hl : ∀ entry, d.auth.gate packet ≠ .resend entry) {d₁ : Device β} {error : ProtocolError}
    (h : d₁.auth.replayCache = d.auth.storing packet error d.auth.replayCache) :
    SameMove d cache packet d₁ (d.auth.storing packet error cache) := by
  intro _
  rcases storing_cases d packet hg hl error with ⟨hs, hsame⟩ | ⟨hs, entry, hid, hinsert⟩
  · exact .inl ⟨hs, h.trans (hsame _), hsame _⟩
  · exact .inr ⟨hs, entry, hid, h.trans (hinsert _), hinsert _⟩

/-- A packet that is no protected request leaves the caches as they are, or starts a session. -/
theorem sameMove_of_authStep (hg : packet.isGuarded = false) {d₁ : Device β}
    {cache₁ : Ring (ReplayEntry β) 8} (h : AuthStep d packet d₁.auth)
    (h' : AuthStep (d.withCache cache) packet (d₁.auth.withCache cache₁)) :
    SameMove d cache packet d₁ cache₁ := by
  have hkept : ∀ {d : Device β} {s : AuthState β}, AuthStep d packet s → s.authenticated = true →
      s.replayCache = d.auth.replayCache := by
    intro d s h ha
    cases h with
    | same | proved => rfl
    | stored _ hs => simp [AuthState.stores, hg] at hs
    | challenged | restarted => cases ha
  intro ha
  exact .inl ⟨by simp [AuthState.stores, hg], hkept h ha, hkept h' ha⟩

/-- **One packet, two caches.** With the same verdict the device does the same. -/
theorem step_withCache (h : packet.isGuarded = true → d.auth.required = true →
    d.auth.authenticated = true →
      (d.auth.withCache cache).lookup packet = d.auth.lookup packet) :
    ∃ cache', (d.withCache cache).step esp packet =
      ((d.step esp packet).1.withCache cache', (d.step esp packet).2) ∧
      SameMove d cache packet (d.step esp packet).1 cache' := by
  cases hg : packet.isGuarded
  · obtain ⟨cache', hh⟩ := handle_withCache d cache esp packet hg
    obtain ⟨cache₁, hstep⟩ : ∃ cache₁, (d.withCache cache).step esp packet =
        ((d.step esp packet).1.withCache cache₁, (d.step esp packet).2) := by
      by_cases hreboot : (d.handle esp packet).2.any Event.reboots = true
      · exact ⟨.empty 8, by simp [Device.step, hh, hreboot]; rfl⟩
      · exact ⟨cache', by simp [Device.step, hh, hreboot]⟩
    refine ⟨cache₁, hstep, sameMove_of_authStep d cache packet hg (step_auth d esp packet) ?_⟩
    have hauth := step_auth (d.withCache cache) esp packet
    rwa [hstep] at hauth
  obtain ⟨hv, c, hc, hp⟩ := exists_command_of_isGuarded hg
  have hgate := gate_withCache d cache packet (h hg)
  cases hd : d.auth.gate packet with
  | resend entry =>
    rw [hd] at hgate
    obtain ⟨-, -, hl⟩ := lookup_of_resend hd
    refine ⟨cache, by rw [step_of_resend esp hv hc hp hd, step_of_resend esp hv hc hp hgate], ?_⟩
    rw [step_of_resend esp hv hc hp hd]
    exact fun _ => .inl ⟨by simp [AuthState.stores, hl], rfl, rfl⟩
  | refuse error =>
    rw [hd] at hgate
    refine ⟨d.auth.storing packet error cache, ?_, ?_⟩
    · rw [step_of_refuse esp hv hc hp hd, step_of_refuse esp hv hc hp hgate, report_withCache]
      rfl
    · rw [step_of_refuse esp hv hc hp hd]
      exact sameMove_storing d cache packet hg (by simp [hd]) (replayCache_report d packet error)
  | run payload =>
    rw [hd] at hgate
    generalize ho : execute esp d.ota c packet.sequence payload = o
    have ho' : execute esp (d.withCache cache).ota c packet.sequence payload = o := ho
    have hreport := report_withCache { d with ota := o.ota } cache packet o.error
    rw [step_of_run esp hv hc hp hd ho, step_of_run (d := d.withCache cache) esp hv hc hp hgate ho']
    by_cases hreboot : o.after.any Event.reboots = true
    · refine ⟨.empty 8, ?_, ?_⟩
      · simp only [hreboot, if_true]
        change (((({ d with ota := o.ota } : Device β).withCache cache).report packet
          o.error).restarted, _) = _
        rw [hreport]
        rfl
      · simp only [hreboot, if_true]
        exact fun ha => by cases ha
    · refine ⟨d.auth.storing packet o.error cache, ?_, ?_⟩
      · simp only [hreboot]
        change ((({ d with ota := o.ota } : Device β).withCache cache).report packet o.error, _) = _
        rw [hreport]
        rfl
      · simp only [hreboot]
        exact sameMove_storing d cache packet hg (by simp [hd])
          (replayCache_report { d with ota := o.ota } packet o.error)

end WithCache

/-- A packet whose tag does not verify is refused or answered from the cache; nothing
but the cache changes and no command is executed. -/
theorem step_forged {d : Device β} {packet : Packet β} {e : ProtocolError} (esp : EspIdf β)
    (hg : packet.isGuarded = true) (hu : authUnwrapPacket d.auth packet = .error e) :
    (∃ cache', (d.step esp packet).1 = d.withCache cache' ∧
      ((d.auth.stores packet = false ∧ cache' = d.auth.replayCache) ∨
        (d.auth.stores packet = true ∧ ∃ entry, entry.requestId = packet.requestId ∧
          cache' = d.auth.replayCache.insert entry))) ∧
      executes (d.step esp packet).2 = false := by
  have hrun : ∀ payload, d.auth.gate packet ≠ .run payload := by
    intro payload h
    cases hr : d.auth.required
    · simp [authUnwrapPacket_of_not_required hr] at hu
    · simp [(lookup_of_run h hr).2.2] at hu
  obtain ⟨hv, c, hc, hp⟩ := exists_command_of_isGuarded hg
  cases hd : d.auth.gate packet with
  | resend entry =>
    obtain ⟨-, -, hl⟩ := lookup_of_resend hd
    rw [step_of_resend esp hv hc hp hd]
    exact ⟨⟨_, rfl, .inl ⟨by simp [AuthState.stores, hl], rfl⟩⟩, rfl⟩
  | refuse error =>
    rw [step_of_refuse esp hv hc hp hd]
    refine ⟨⟨d.auth.storing packet error d.auth.replayCache, ?_, ?_⟩, rfl⟩
    · simp only [Device.report, AuthState.remember, AuthState.storing, Device.withCache]
      split <;> rfl
    rcases storing_cases d packet hg (by simp [hd]) error
      with ⟨hs, hsame⟩ | ⟨hs, entry, hid, hinsert⟩
    · exact .inl ⟨hs, hsame _⟩
    · exact .inr ⟨hs, entry, hid, hinsert _⟩
  | run payload => exact absurd hd (hrun payload)

/-! ## Whole runs -/

/-- What reaches a device that an outsider can reach too. -/
inductive Delivery (β : Type)
  | genuine (x : Stimulus β)
  | forged (packet : Packet β) (esp : EspIdf β)

def Delivery.stimulus : Delivery β → Stimulus β
  | .genuine x => x
  | .forged packet esp => .packet packet esp

def Delivery.isGenuine : Delivery β → Bool
  | .genuine _ => true
  | .forged .. => false

omit [Alphabet β] in
@[simp] theorem filter_genuine (x : Stimulus β) (ys : List (Delivery β)) :
    (Delivery.genuine x :: ys).filter Delivery.isGenuine =
      .genuine x :: ys.filter Delivery.isGenuine := rfl
omit [Alphabet β] in
@[simp] theorem filter_forged (packet : Packet β) (esp : EspIdf β) (ys : List (Delivery β)) :
    (Delivery.forged packet esp :: ys).filter Delivery.isGenuine =
      ys.filter Delivery.isGenuine := rfl

/-- What the device does for each genuine delivery. -/
def Device.answers (d : Device β) : List (Delivery β) → List (List (Event β))
  | [] => []
  | .genuine x :: ys => (d.after x).2 :: (d.after x).1.answers ys
  | .forged packet esp :: ys => (d.step esp packet).1.answers ys

/-- The commands the device executes, for whichever delivery. -/
def Device.executions (d : Device β) (ys : List (Delivery β)) : List (Event β) :=
  (d.run (ys.map Delivery.stimulus)).2.filter Event.isOperate

/-- Every forged packet carries a protected command under a tag that does not verify. -/
def onlyForged (d : Device β) : List (Delivery β) → Bool
  | [] => true
  | .genuine x :: ys => onlyForged (d.after x).1 ys
  | .forged packet esp :: ys =>
      packet.isGuarded && !(authUnwrapPacket d.auth packet).isOk &&
        onlyForged (d.step esp packet).1 ys

/-! ## The requests in the cache -/

/-- The requests that have left a response in the cache, newest first, each marked if it is
genuine, after one more delivery. They are those of the session the device is in. -/
def Device.recorded (d : Device β) (trail : List (RequestId β × Bool)) (y : Delivery β) :
    List (RequestId β × Bool) :=
  if !(d.after y.stimulus).1.auth.authenticated then [] else
    match y.stimulus with
    | .packet packet _ =>
        if d.auth.stores packet then (packet.requestId, y.isGenuine) :: trail else trail
    | .reset => trail

/-- No request of the trail disturbs the lookup of `i`: no forged one with its command and
sequence number is live; the genuine ones with them that would be live without the forged ones
are all `i` or all other requests; and if there is one of these, one is live. -/
structure Undisturbed (trail : List (RequestId β × Bool)) (i : RequestId β) : Prop where
  forged : ∀ f ∈ trail.take authReplayCacheSize, f.2 = false → ¬f.1.shares i
  genuine : (∀ g ∈ (trail.filter Prod.snd).take authReplayCacheSize, g.1.shares i → g.1 = i) ∨
    ∀ g ∈ (trail.filter Prod.snd).take authReplayCacheSize, g.1.shares i → g.1 ≠ i
  live : (∃ g ∈ (trail.filter Prod.snd).take authReplayCacheSize, g.1.shares i) →
    ∃ g ∈ trail.take authReplayCacheSize, g.1.shares i

instance (trail : List (RequestId β × Bool)) (i : RequestId β) : Decidable (Undisturbed trail i) :=
  decidable_of_iff (_ ∧ _ ∧ _) ⟨fun h => ⟨h.1, h.2.1, h.2.2⟩, fun h => ⟨h.1, h.2, h.3⟩⟩

/-- Every genuine protected request finds its command and sequence number undisturbed. -/
def keepsApart (d : Device β) (trail : List (RequestId β × Bool)) : List (Delivery β) → Bool
  | [] => true
  | y :: ys =>
      (match y with
        | .genuine (.packet packet _) =>
            !packet.isGuarded || decide (Undisturbed trail packet.requestId)
        | _ => true) &&
        keepsApart (d.after y.stimulus).1 (d.recorded trail y) ys

/-- What has been inserted into the caches of the run with the forged packets and of the run
without them. -/
structure TwoCaches (log : List (ReplayEntry β × Bool)) (s : AuthState β)
    (cache : Ring (ReplayEntry β) 8) : Prop where
  all : cache.History (log.map Prod.fst)
  genuine : s.replayCache.History ((log.filter Prod.snd).map Prod.fst)
  distinct : (((log.filter Prod.snd).take 8).map fun e => e.1.requestId).Nodup
  idle : s.authenticated = false → log = []

/-- The requests of a log of responses. -/
def trailOf (log : List (ReplayEntry β × Bool)) : List (RequestId β × Bool) :=
  log.map fun e => (e.1.requestId, e.2)

section Lookup
variable {log : List (ReplayEntry β × Bool)} {s : AuthState β} {packet : Packet β}
  {entry : ReplayEntry β}

omit [Alphabet β] in
theorem filter_trailOf : (trailOf log).filter Prod.snd = trailOf (log.filter Prod.snd) := by
  simp only [trailOf, List.filter_map]
  rfl

omit [Alphabet β] in
theorem take_trailOf (n : ℕ) : (trailOf log).take n = trailOf (log.take n) := by
  simp [trailOf, List.map_take]

/-- If all live entries of a request are other requests, it is a conflict. -/
theorem lookup_eq_conflict (h : entry ∈ s.replayCache.entries)
    (hs : entry.requestId.shares packet.requestId)
    (hne : ∀ e ∈ s.replayCache.entries, e.requestId.shares packet.requestId →
      e.requestId ≠ packet.requestId) : s.lookup packet = .conflict := by
  cases hl : s.lookup packet with
  | fresh => exact absurd hs (lookup_eq_fresh_iff.mp hl entry h)
  | conflict => rfl
  | duplicate e =>
    obtain ⟨he, hc, hn, hd⟩ := mem_of_duplicate hl
    exact absurd (by simp [ReplayEntry.requestId, Packet.requestId, hc, hn, hd]) (hne e he ⟨hc, hn⟩)

/-- If the only live entry of a request is the request itself, it is a duplicate. -/
theorem lookup_eq_duplicate (h : entry ∈ s.replayCache.entries)
    (hid : entry.requestId = packet.requestId)
    (huniq : ∀ e ∈ s.replayCache.entries, e.requestId.shares packet.requestId → e = entry) :
    s.lookup packet = .duplicate entry := by
  cases hl : s.lookup packet with
  | fresh =>
    have hs : entry.requestId.shares packet.requestId := by rw [hid]; exact ⟨rfl, rfl⟩
    exact absurd hs (lookup_eq_fresh_iff.mp hl entry h)
  | conflict =>
    obtain ⟨e, he, hc, hn, hd⟩ := mem_of_conflict hl
    obtain rfl := huniq e he ⟨hc, hn⟩
    exact absurd (congrArg RequestId.digest hid) hd
  | duplicate e =>
    obtain ⟨he, hc, hn, -⟩ := mem_of_duplicate hl
    rw [huniq e he ⟨hc, hn⟩]

end Lookup

namespace TwoCaches
variable {log : List (ReplayEntry β × Bool)} {s : AuthState β} {cache : Ring (ReplayEntry β) 8}
  {packet : Packet β} {e : ReplayEntry β}

/-- A live entry under the number of an undisturbed request is a genuine one, and would be live
without the forged ones. -/
theorem genuine_of_live (h : TwoCaches log s cache)
    (hu : Undisturbed (trailOf log) packet.requestId) (he : e ∈ cache.entries)
    (hs : e.requestId.shares packet.requestId) : e ∈ s.replayCache.entries := by
  rw [h.all.mem_take, ← List.map_take, List.mem_map] at he
  obtain ⟨⟨e, b⟩, he, rfl⟩ := he
  cases b with
  | false =>
    refine absurd hs (hu.forged (e.requestId, false) ?_ rfl)
    rw [take_trailOf]
    exact List.mem_map.mpr ⟨_, he, rfl⟩
  | true =>
    rw [h.genuine.mem_take, ← List.map_take]
    exact List.mem_map.mpr ⟨(e, true), Ring.mem_take_filter rfl he, rfl⟩

omit [Alphabet β] in
/-- The entries that would be live without the forged ones, as requests of the trail. -/
theorem mem_trail (h : TwoCaches log s cache) (he : e ∈ s.replayCache.entries) :
    ∃ g ∈ ((trailOf log).filter Prod.snd).take authReplayCacheSize, g.1 = e.requestId := by
  rw [h.genuine.mem_take, ← List.map_take, List.mem_map] at he
  obtain ⟨x, hx, rfl⟩ := he
  refine ⟨(x.1.requestId, x.2), ?_, rfl⟩
  rw [filter_trailOf, take_trailOf]
  exact List.mem_map.mpr ⟨x, hx, rfl⟩

omit [Alphabet β] in
/-- Without the forged ones no request is live twice. -/
theorem eq_of_requestId (h : TwoCaches log s cache) {e' : ReplayEntry β}
    (he : e ∈ s.replayCache.entries) (he' : e' ∈ s.replayCache.entries)
    (hid : e.requestId = e'.requestId) : e = e' := by
  rw [h.genuine.mem_take, ← List.map_take, List.mem_map] at he he'
  obtain ⟨x, hx, rfl⟩ := he
  obtain ⟨x', hx', rfl⟩ := he'
  rw [List.inj_on_of_nodup_map h.distinct hx hx' hid]

/-- If something would be live without the forged ones, it is live. -/
theorem exists_live (h : TwoCaches log s cache)
    (hu : Undisturbed (trailOf log) packet.requestId) (he : e ∈ s.replayCache.entries)
    (hs : e.requestId.shares packet.requestId) :
    ∃ e' ∈ cache.entries, e'.requestId.shares packet.requestId := by
  obtain ⟨g, hg, hid⟩ := h.mem_trail he
  obtain ⟨f, hf, hfs⟩ := hu.live ⟨g, hg, hid ▸ hs⟩
  rw [take_trailOf] at hf
  obtain ⟨x, hx, rfl⟩ := List.mem_map.mp hf
  refine ⟨x.1, ?_, hfs⟩
  rw [h.all.mem_take, ← List.map_take]
  exact List.mem_map_of_mem hx

/-- **The caches agree** on every undisturbed request. -/
theorem lookup_eq (h : TwoCaches log s cache)
    (hu : Undisturbed (trailOf log) packet.requestId) :
    (s.withCache cache).lookup packet = s.lookup packet := by
  have hlive : ∀ e ∈ (s.withCache cache).replayCache.entries,
      e.requestId.shares packet.requestId → e ∈ s.replayCache.entries :=
    fun e he hs => h.genuine_of_live hu he hs
  cases hl : s.lookup packet with
  | fresh =>
    rw [lookup_eq_fresh_iff] at hl ⊢
    exact fun e he hs => hl e (hlive e he hs) hs
  | conflict =>
    obtain ⟨e, he, hc, hn, hd⟩ := mem_of_conflict hl
    have hother : ∀ e ∈ s.replayCache.entries, e.requestId.shares packet.requestId →
        e.requestId ≠ packet.requestId := by
      obtain hall | hnone := hu.genuine
      · obtain ⟨g, hg, hid⟩ := h.mem_trail he
        have hsame := hall g hg (hid ▸ ⟨hc, hn⟩)
        exact absurd (congrArg RequestId.digest (hid.symm.trans hsame)) hd
      · intro e he hs
        obtain ⟨g, hg, hid⟩ := h.mem_trail he
        exact hid ▸ hnone g hg (hid ▸ hs)
    obtain ⟨e', he', hs'⟩ := h.exists_live hu he ⟨hc, hn⟩
    exact lookup_eq_conflict he' hs' fun e he hs => hother e (hlive e he hs) hs
  | duplicate e =>
    obtain ⟨he, hc, hn, hd⟩ := mem_of_duplicate hl
    have hid : e.requestId = packet.requestId := by
      simp [ReplayEntry.requestId, Packet.requestId, hc, hn, hd]
    have hself : ∀ e' ∈ s.replayCache.entries, e'.requestId.shares packet.requestId → e' = e := by
      obtain hall | hnone := hu.genuine
      · intro e' he' hs'
        obtain ⟨g, hg, hgid⟩ := h.mem_trail he'
        refine h.eq_of_requestId he' he ?_
        rw [hid, ← hgid]
        exact hall g hg (hgid ▸ hs')
      · obtain ⟨g, hg, hgid⟩ := h.mem_trail he
        exact absurd (hgid.trans hid) (hnone g hg (hgid ▸ ⟨hc, hn⟩))
    obtain ⟨e', he', hs'⟩ := h.exists_live hu he ⟨hc, hn⟩
    obtain rfl := hself e' (hlive e' he' hs') hs'
    exact lookup_eq_duplicate he' hid fun e'' he'' hs'' => hself e'' (hlive e'' he'' hs'') hs''

/-- A request whose response is stored would not be live without the forged ones. -/
theorem not_mem_of_stores (h : TwoCaches log s cache)
    (hu : Undisturbed (trailOf log) packet.requestId) (hstores : s.stores packet = true) :
    packet.requestId ∉ ((log.filter Prod.snd).take 8).map fun e => e.1.requestId := by
  intro hmem
  obtain ⟨x, hx, hid⟩ := List.mem_map.mp hmem
  have he : x.1 ∈ s.replayCache.entries := by
    rw [h.genuine.mem_take, ← List.map_take]
    exact List.mem_map_of_mem hx
  have hs : x.1.requestId.shares packet.requestId := by rw [hid]; exact ⟨rfl, rfl⟩
  have hdup : s.lookup packet = .duplicate x.1 := by
    refine lookup_eq_duplicate he hid fun e he' hs' => h.eq_of_requestId he' he ?_
    obtain hall | hnone := hu.genuine
    · obtain ⟨g, hg, hgid⟩ := h.mem_trail he'
      rw [hid, ← hgid]
      exact hall g hg (hgid ▸ hs')
    · obtain ⟨g, hg, hgid⟩ := h.mem_trail he
      exact absurd (hgid.trans hid) (hnone g hg (hgid ▸ hs))
  simp [AuthState.stores, hdup] at hstores

end TwoCaches

/-! ## The two runs -/

section Simulated
variable {d : Device β} {cache : Ring (ReplayEntry β) 8} {log : List (ReplayEntry β × Bool)}

omit [Alphabet β] in
theorem TwoCaches.history_nil (h : TwoCaches log d.auth cache)
    (hd : d.auth.authenticated = false) :
    cache.History [] ∧ d.auth.replayCache.History [] := by
  obtain rfl := h.idle hd
  exact ⟨h.all, h.genuine⟩

/-- A genuine delivery keeps the two caches in step. -/
theorem TwoCaches.after_genuine (h : TwoCaches log d.auth cache) {x : Stimulus β}
    (hu : ∀ packet esp, x = .packet packet esp → packet.isGuarded = true →
      Undisturbed (trailOf log) packet.requestId) :
    ∃ cache', (d.withCache cache).after x = ((d.after x).1.withCache cache', (d.after x).2) ∧
      ∃ log', TwoCaches log' (d.after x).1.auth cache' ∧
        (d.withCache cache).recorded (trailOf log) (.genuine x) = trailOf log' := by
  cases x with
  | reset =>
    refine ⟨.empty 8, rfl, [], ⟨Ring.history_empty, Ring.history_empty, List.nodup_nil,
      fun _ => rfl⟩, rfl⟩
  | packet packet esp =>
    obtain ⟨cache', hstep, hmove⟩ := step_withCache d cache esp packet
      fun hg _ _ => h.lookup_eq (hu packet esp rfl hg)
    refine ⟨cache', hstep, ?_⟩
    have hafter : ((d.withCache cache).after (.packet packet esp)).1.auth.authenticated =
        (d.step esp packet).1.auth.authenticated := by
      rw [Device.after, hstep]
      rfl
    cases ha : (d.step esp packet).1.auth.authenticated
    · have hauth := step_auth d esp packet
      have hauth' := step_auth (d.withCache cache) esp packet
      rw [hstep] at hauth'
      exact ⟨[], ⟨hauth'.history_nil (fun hd => (h.history_nil hd).1) ha,
        hauth.history_nil (fun hd => (h.history_nil hd).2) ha, List.nodup_nil,
        fun _ => rfl⟩, by simp [Device.recorded, Delivery.stimulus, hafter, ha, trailOf]⟩
    have hstores : (d.withCache cache).auth.stores packet = d.auth.stores packet := by
      by_cases hg : packet.isGuarded = true
      · simp only [AuthState.stores]
        rw [show (d.withCache cache).auth = d.auth.withCache cache from rfl,
          h.lookup_eq (hu packet esp rfl hg)]
        rfl
      · simp [AuthState.stores, hg]
    rcases hmove ha with ⟨hkept, hcache, rfl⟩ | ⟨hstored, entry, hid, hcache, rfl⟩
    · refine ⟨log, ⟨h.all, hcache ▸ h.genuine, h.distinct, fun hn => ?_⟩, ?_⟩
      · exact absurd (ha.symm.trans hn) (by decide)
      · simp [Device.recorded, Delivery.stimulus, hafter, ha, hstores, hkept]
    · have hg : packet.isGuarded = true := by
        simp only [AuthState.stores, Bool.and_eq_true] at hstored
        exact hstored.1.1.1
      have hnew := h.not_mem_of_stores (hu packet esp rfl hg) hstored
      refine ⟨(entry, true) :: log, ⟨?_, ?_, ?_, fun hn => ?_⟩, ?_⟩
      · exact h.all.insert entry
      · rw [Device.after, hcache, List.filter_cons_of_pos rfl]
        exact h.genuine.insert entry
      · rw [List.filter_cons_of_pos rfl, List.take_succ_cons, List.map_cons, List.nodup_cons, hid]
        refine ⟨fun hmem => hnew ?_, ?_⟩
        · exact (List.map_subset _ (List.take_subset_take_left _ (by decide))) hmem
        · exact h.distinct.sublist ((List.take_sublist_take_left (by decide)).map _)
      · exact absurd (ha.symm.trans hn) (by decide)
      · simp [Device.recorded, Delivery.stimulus, Delivery.isGenuine, hafter, ha, hstores, hstored,
          trailOf, hid]

/-- A forged packet is an insertion into one cache only, or none. -/
theorem TwoCaches.after_forged (h : TwoCaches log d.auth cache) {packet : Packet β}
    {e : ProtocolError} (esp : EspIdf β) (hg : packet.isGuarded = true)
    (hu : authUnwrapPacket (d.withCache cache).auth packet = .error e) :
    ∃ cache', ((d.withCache cache).step esp packet).1 = d.withCache cache' ∧
      ∃ log', TwoCaches log' d.auth cache' ∧
        (d.withCache cache).recorded (trailOf log) (.forged packet esp) = trailOf log' := by
  obtain ⟨⟨cache', hstep, hmove⟩, -⟩ := step_forged esp hg hu
  refine ⟨cache', hstep, ?_⟩
  have hafter : ((d.withCache cache).after (.packet packet esp)).1.auth.authenticated =
      d.auth.authenticated := by
    rw [Device.after, hstep]
    rfl
  cases ha : d.auth.authenticated
  · have hauth := step_auth (d.withCache cache) esp packet
    rw [hstep] at hauth
    obtain ⟨hall, hgenuine⟩ := h.history_nil ha
    exact ⟨[], ⟨hauth.history_nil (fun _ => hall) ha, hgenuine, List.nodup_nil,
      fun _ => rfl⟩, by simp [Device.recorded, Delivery.stimulus, hafter, ha, trailOf]⟩
  rcases hmove with ⟨hkept, rfl⟩ | ⟨hstored, entry, hid, rfl⟩
  · exact ⟨log, h, by simp [Device.recorded, Delivery.stimulus, hafter, ha, hkept]⟩
  · refine ⟨(entry, false) :: log, ⟨h.all.insert entry, h.genuine, h.distinct, fun hn => ?_⟩, ?_⟩
    · exact absurd (ha.symm.trans hn) (by decide)
    · simp [Device.recorded, Delivery.stimulus, Delivery.isGenuine, hafter, ha, hstored, trailOf,
        hid]

end Simulated

theorem executions_cons (d : Device β) (y : Delivery β) (ys : List (Delivery β)) :
    d.executions (y :: ys) =
      (d.after y.stimulus).2.filter Event.isOperate ++ (d.after y.stimulus).1.executions ys := by
  simp [Device.executions, Device.run]

/-- The runs with and without the forged packets, from devices that differ in the cache. -/
theorem forged_packets_simulated (ys : List (Delivery β)) :
    ∀ {d : Device β} {cache : Ring (ReplayEntry β) 8} {log : List (ReplayEntry β × Bool)},
      TwoCaches log d.auth cache → onlyForged (d.withCache cache) ys = true →
      keepsApart (d.withCache cache) (trailOf log) ys = true →
      (d.withCache cache).answers ys = d.answers (ys.filter Delivery.isGenuine) ∧
        (d.withCache cache).executions ys = d.executions (ys.filter Delivery.isGenuine) := by
  induction ys with
  | nil => intros; exact ⟨rfl, rfl⟩
  | cons y ys ih =>
    intro d cache log h hf hk
    simp only [keepsApart, Bool.and_eq_true] at hk
    cases y with
    | genuine x =>
      have hu : ∀ packet esp, x = .packet packet esp → packet.isGuarded = true →
          Undisturbed (trailOf log) packet.requestId := by
        rintro packet esp rfl hg
        simpa [hg] using hk.1
      obtain ⟨cache', hx, log', hlog', htrail⟩ := h.after_genuine hu
      have hk' := hk.2
      rw [htrail, Delivery.stimulus, hx] at hk'
      simp only [onlyForged, hx] at hf
      obtain ⟨ha, he⟩ := ih hlog' hf hk'
      constructor
      · simp [Device.answers, hx, ha]
      · simp [executions_cons, Delivery.stimulus, hx, he]
    | forged packet esp =>
      simp only [onlyForged, Bool.and_eq_true, Bool.not_eq_true'] at hf
      obtain ⟨⟨hg, hu⟩, hf⟩ := hf
      obtain ⟨e, hu⟩ : ∃ e, authUnwrapPacket (d.withCache cache).auth packet = .error e := by
        cases h : authUnwrapPacket (d.withCache cache).auth packet with
        | error e => exact ⟨e, rfl⟩
        | ok payload => simp [h, Except.isOk, Except.toBool] at hu
      obtain ⟨cache', hstep, log', hlog', htrail⟩ := h.after_forged esp hg hu
      have hk' := hk.2
      rw [htrail, Delivery.stimulus, Device.after, hstep] at hk'
      rw [hstep] at hf
      obtain ⟨ha, he⟩ := ih hlog' hf hk'
      constructor
      · simp [Device.answers, hstep, ha]
      · have hnone : ((d.withCache cache).step esp packet).2.filter Event.isOperate = [] := by
          simpa [executes, List.filter_eq_nil_iff] using (step_forged esp hg hu).2
        simp [executions_cons, Delivery.stimulus, Device.after, hnone, hstep, he]

/-- **Forged packets are inert while they keep apart.** If no forged packet disturbs the number
of a genuine request, the device executes the same commands and does the same for every genuine
delivery as without the forged packets. -/
theorem forged_packets_inert {config : OtaLinkConfig β} {d : Device β} {ys : List (Delivery β)}
    (hstart : otaLinkStartWithConfig config = some d) (hforged : onlyForged d ys = true)
    (hapart : keepsApart d [] ys = true) :
    d.answers ys = d.answers (ys.filter Delivery.isGenuine) ∧
      d.executions ys = d.executions (ys.filter Delivery.isGenuine) := by
  have hempty : d.auth.replayCache.History [] := by
    rw [← restarted_otaLinkStartWithConfig hstart]
    exact Ring.history_empty
  exact @forged_packets_simulated β _ ys d d.auth.replayCache []
    ⟨hempty, hempty, List.nodup_nil, fun _ => rfl⟩ hforged hapart

/-! ### A forged packet that reuses a sequence number -/

/-- A session in which a packet without a tag arrives ahead of the genuine `OTA_BEGIN`,
under its command and sequence number. -/
def overtaken : List (Delivery Octet) :=
  handshake.map .genuine ++
    [.forged ⟨protocolVersion, Command.otaBegin.code, 3, []⟩ sampleEsp,
      .genuine (.packet (taggedRequest .otaBegin 3 sampleBegin) sampleEsp)]

/-- One packet without a tag makes the device refuse the genuine request. -/
theorem forged_packets_interfere :
    ¬∀ (config : OtaLinkConfig Octet) (d : Device Octet) (ys : List (Delivery Octet)),
      otaLinkStartWithConfig config = some d → onlyForged d ys = true →
      d.answers ys = d.answers (ys.filter Delivery.isGenuine) ∧
        d.executions ys = d.executions (ys.filter Delivery.isGenuine) := by
  intro h
  have := (h ⟨some (pskOctets 1), true⟩ lockedDevice overtaken rfl (by decide)).2
  exact absurd this (by decide +kernel)

/-- A session in which seven packets without a tag, under numbers of their own, arrive between a
request and its retry. -/
def apart : List (Delivery Octet) :=
  handshake.map .genuine ++
    .genuine (.packet (taggedRequest .otaBegin 3 sampleBegin) sampleEsp) ::
    ((List.range 7).map fun i =>
      .forged ⟨protocolVersion, Command.otaBegin.code, UInt16.ofNat (99 + i), []⟩ sampleEsp) ++
    [.genuine (.packet (taggedRequest .otaBegin 3 sampleBegin) sampleEsp)]

theorem forged_packets_inert_apart :
    lockedDevice.answers apart = lockedDevice.answers (apart.filter Delivery.isGenuine) ∧
      lockedDevice.executions apart =
        lockedDevice.executions (apart.filter Delivery.isGenuine) :=
  @forged_packets_inert Octet _ ⟨some (pskOctets 1), true⟩ lockedDevice apart rfl
    (by decide +kernel) (by decide +kernel)

end OtaLink
