import OtaLink.Ageing

/-!
# Fresh answers in long sessions

The sequence counter of the client wraps after 65536 packets, and the replay cache of the
device ages by the responses it stores, which are those to protected requests only. So a
session of many pings and few protected calls can come back to a command and sequence number
that the cache still holds, and the device answers the new call with the old response.

Nothing else goes wrong. If a number that comes round again is renewed, that is, if enough
protected calls have been answered since it was last used, neither the cache nor the link holds
anything under it, and the call gets an answer of its own.

## Main definitions

* `Calls` — the calls of a client in a session, and their log.
* `FreshCall` — what a call may expect of its answer.
* `Keeping`, `Calls.keeping` — what client and device keep from call to call.
* `fresh_answers` — a call under a renewed number may expect it.
-/

namespace OtaLink
open Lib

variable {β : Type} [Alphabet β]

/-! ## Calls in a session -/

/-- The calls of an authenticated client, one after another, however each of them ends, with
their log. Each protected call satisfies `Condition` when it is made. -/
inductive Calls (cfg : HostConfig β) (Condition : List CallRecord → Command → UInt16 → Prop)
    (s : HostState β × Link (Packet β) (World β)) :
    List CallRecord → HostState β × Link (Packet β) (World β) → Prop
  | start : Calls cfg Condition s [] s
  | call {log t L c payload r t' L'} (h : Calls cfg Condition s log (t, L))
      (ha : t.authenticated = true) (hc : c.isProtected = true ∨ c = .ping ∨ c = .getInfo)
      (hcond : c.isProtected = true → Condition log c (t.sequence + 1))
      (hr : lossyEnv.Reaches (request cfg c payload t, L) (.ret (r, t'), L')) :
      Calls cfg Condition s (t.record t' c r.isOk :: log) (t', L')

/-- Client and device have agreed on a session. -/
structure Agreed (cfg : HostConfig β) (key : List β) (t : HostState β)
    (L : Link (Packet β) (World β)) : Prop where
  authKey : cfg.authKey ≠ none
  authenticated : t.authenticated = true
  sessionKey : t.sessionKey = some key
  held : Holding key L.server.device.auth
  requests : ∀ q ∈ L.requests, q.isChallenge = false
  trace : L.server.trace = []

/-- A call from this state gets a fresh answer: while the session lasts, the first of its
packets that arrives is executed on the state the device is then in, and every response under
its sequence number, and so the one the client accepts, was computed for it. -/
structure FreshCall (cfg : HostConfig β) (c : Command) (payload : List β) (t : HostState β)
    (L : Link (Packet β) (World β)) : Prop where
  executed {p L'} (hr : lossyEnv.Reaches (request cfg c payload t, L) (p, L'))
    (halive : ¬Restarted L'.server.trace) {q : Packet β} (hq : q ∈ L'.requests)
    (hn : q.sequence = t.sequence + 1)
    (hfirst : .receive q ∉ L'.server.trace.drop L.server.trace.length) :
    L'.server.device.auth.gate q = .run payload
  computed {p L'} (hr : lossyEnv.Reaches (request cfg c payload t, L) (p, L')) {q}
    (hq : q ∈ L'.replies) (hn : q.response.sequence = t.sequence + 1) :
    Computed L.server L'.server (callPacket cfg t c (t.sequence + 1) payload) q.response
  accepted {r t' L'} (hr : lossyEnv.Reaches (request cfg c payload t, L) (.ret (.ok r, t'), L'))
    (hn : t'.sequence = t.sequence + 1) : ∃ r₀, r = cfg.strip c r₀ ∧
      Computed L.server L'.server (callPacket cfg t c (t.sequence + 1) payload) r₀

section Calls
variable {cfg : HostConfig β} {c : Command} {payload key : List β} {t u : HostState β}
  {L L₀ : Link (Packet β) (World β)}

/-- What a client with a session and its device keep from call to call. -/
structure Keeping (key : List β) (t : HostState β) (L : Link (Packet β) (World β)) : Prop where
  kept : Kept key L
  knows : Knows key t L
  hasKey : t.HasKey

omit [Alphabet β] in
/-- The key under which the client sends its next protected call. -/
theorem Keeping.exists_key (h : Keeping key t L) (ha : t.authenticated = true) :
    ∃ k, t.sessionKey = some k ∧ Kept k L := by
  obtain ⟨k, hk⟩ := Option.ne_none_iff_exists'.mp (h.hasKey ha)
  refine ⟨k, hk, ?_⟩
  rcases h.knows with hr | hkey
  · exact .inl hr
  · rw [hkey ha, Option.some.injEq] at hk
    exact hk ▸ h.kept

theorem Knows.move (h : Knows key t L) {L' : Link (Packet β) (World β)}
    (hmove : lossyEnv.rely L L') : Knows key t L' := by
  obtain ⟨xs, hxs⟩ := exists_run_of_move hmove
  rw [Knows, hxs]
  exact h.imp_left fun h => h.append _

theorem FreshEnd.move {w₀ : World β} {m r : Packet β} (h : FreshEnd cfg c w₀ m r t L)
    {L' : Link (Packet β) (World β)} (hmove : lossyEnv.rely L L') :
    FreshEnd cfg c w₀ m r t L' := by
  intro hn
  obtain ⟨r₀, hcomputed, hr⟩ := h hn
  obtain ⟨xs, hxs⟩ := exists_run_of_move hmove
  exact ⟨r₀, hxs ▸ hcomputed.run xs, hr⟩

/-- A protected call under the condition, on its way and at its end. -/
theorem Keeping.during (h : Keeping key t L) (hkey : cfg.authKey ≠ none)
    (ha : t.authenticated = true) (hc : c.isProtected = true)
    (hnew : Unaliased c (t.sequence + 1) L) {p} {L' : Link (Packet β) (World β)}
    (hr : lossyEnv.Reaches (request cfg c payload t, L) (p, L')) :
    ∃ k, callPacket cfg t c (t.sequence + 1) payload = tagged k c (t.sequence + 1) payload ∧
      Belongs k L.server (tagged k c (t.sequence + 1) payload) L' ∧
      (¬Restarted L.server.trace → k = key) ∧
      ∀ r t', p = .ret (r, t') → Knows k t' L' ∧ ∀ r', r = .ok r' →
        FreshEnd cfg c L.server (tagged k c (t.sequence + 1) payload) r' t' L' := by
  obtain ⟨k, hk, hkept⟩ := h.exists_key ha
  have hg : cfg.guards c = true := by
    simp [HostConfig.guards, hc, Option.isSome_iff_ne_none.mpr hkey]
  refine ⟨k, callPacket_guarded hg hk _, ?_⟩
  generalize hm : tagged k c (t.sequence + 1) payload = m
  have hspec := @request_belongs β _ cfg t c payload k L.server hg ha hk m hm.symm
  have hst : ∀ {K K'}, lossyEnv.rely K K' → Belongs k L.server m K → Belongs k L.server m K' :=
    fun hmove h => h.move hm.symm hc hmove
  have hok : ∀ (r : Packet β) (v : HostState β), lossyEnv.Stable fun K => Belongs k L.server m K ∧
      FreshEnd cfg c L.server m r v K ∧ Knows k v K :=
    fun r v K K' hmove h => ⟨hst hmove h.1, h.2.1.move hmove, h.2.2.move hmove⟩
  have herr : ∀ (_ : HostError) (v : HostState β), lossyEnv.Stable fun K =>
      Belongs k L.server m K ∧ Knows k v K :=
    fun _ v K K' hmove h => ⟨hst hmove h.1, h.2.move hmove⟩
  have hstart : t = t ∧ Belongs k L.server m L := ⟨rfl, hm ▸ hnew.belongs hkept⟩
  refine ⟨?_, fun halive => ?_, ?_⟩
  · exact hspec.reaches_inv hok herr (fun _ _ _ h => h.1) (fun _ _ _ h => h.1) hstart hr
  · have := h.knows.resolve_left halive ha
    rw [hk, Option.some.injEq] at this
    exact this
  · rintro r t' rfl
    have hend := hspec.reaches hok herr hstart hr
    cases r with
    | ok r =>
      refine ⟨hend.2.2, ?_⟩
      rintro _ ⟨⟩
      exact hend.2.1
    | error e => exact ⟨hend.2, fun _ h => by cases h⟩

/-- **A call under the condition gets a fresh answer.** -/
theorem Keeping.fresh (h : Keeping key t L) (hkey : cfg.authKey ≠ none)
    (ha : t.authenticated = true) (hc : c.isProtected = true)
    (hnew : Unaliased c (t.sequence + 1) L) : FreshCall cfg c payload t L where
  executed {p L'} hr halive {q} hq hn hfirst := by
    obtain ⟨k, -, hb, -⟩ := h.during hkey ha hc hnew hr
    obtain ⟨rfl, hl⟩ := hb.requests q hq hn
    exact hb.gate rfl hc hl halive hfirst
  computed {p L'} hr {q} hq hn := by
    obtain ⟨k, hcall, hb, -⟩ := h.during hkey ha hc hnew hr
    rw [hcall]
    exact (hb.replies q hq hn).1
  accepted {r t' L'} hr hn := by
    obtain ⟨k, hcall, -, -, hend⟩ := h.during hkey ha hc hnew hr
    obtain ⟨r₀, hcomputed, hr₀⟩ := (hend _ _ rfl).2 r rfl hn
    exact ⟨r₀, hr₀, hcall ▸ hcomputed⟩

/-- **One more call** of the session. -/
theorem Keeping.call (h : Keeping key t L) (hkey : cfg.authKey ≠ none)
    (ha : t.authenticated = true) (hc : c.isProtected = true ∨ c = .ping ∨ c = .getInfo)
    (hcond : c.isProtected = true → Unaliased c (t.sequence + 1) L)
    {r : Except HostError (Packet β)} {t' : HostState β} {L' : Link (Packet β) (World β)}
    (hr : lossyEnv.Reaches (request cfg c payload t, L) (.ret (r, t'), L')) :
    Keeping key t' L' := by
  have hhas : t'.HasKey := hasKey_request.of_reaches h.hasKey hr
  by_cases hrestarted : Restarted L.server.trace
  · -- After a restart there is nothing left to keep.
    obtain ⟨xs, hxs⟩ := exists_run_of_reaches hr
    have : Restarted L'.server.trace := by
      rw [hxs]
      exact hrestarted.append _
    exact ⟨.inl this, .inl this, hhas⟩
  rcases hc with hc | hc
  · obtain ⟨k, -, hb, hkeys, hend⟩ := h.during hkey ha hc (hcond hc) hr
    obtain rfl := hkeys hrestarted
    exact ⟨hb.kept, (hend _ _ rfl).1, hhas⟩
  · have hspec := @request_kept β _ cfg t c payload key hc
    have hend := hspec.reaches (fun _ _ _ _ hmove h => ⟨h.1, h.2.move hmove⟩)
      (fun _ _ _ _ hmove h => ⟨h.1, h.2.move hmove⟩) ⟨rfl, h.kept⟩ hr
    have hend' : t' = t.at (t.sequence + 1) ∧ Kept key L' := by
      cases r <;> exact hend
    obtain ⟨rfl, hkept⟩ := hend'
    exact ⟨hkept, .inr fun _ => h.knows.resolve_left hrestarted ha, hhas⟩

/-- **One more call** leaves everything accounted for. -/
theorem Keeping.accounted {log : List CallRecord} (h : Keeping key t L)
    (haccounted : ∀ c S, Accounted L₀ log c S L) (hkey : cfg.authKey ≠ none)
    (ha : t.authenticated = true) (hc : c.isProtected = true ∨ c = .ping ∨ c = .getInfo)
    (hnew : c.isProtected = true → Unaliased c (t.sequence + 1) L)
    {r : Except HostError (Packet β)} {t' : HostState β} {L' : Link (Packet β) (World β)}
    (hr : lossyEnv.Reaches (request cfg c payload t, L) (.ret (r, t'), L')) (c' : Command)
    (S : UInt16 → Prop) : Accounted L₀ (t.record t' c r.isOk :: log) c' S L' := by
  have hst : ∀ (log : List CallRecord) c, lossyEnv.Stable (Accounted L₀ log c unused) :=
    fun _ _ _ _ hmove h => h.move hmove
  have hend : Accounted L₀ (t.record t' c r.isOk :: log) c unused L' := by
    rcases hc with hc | hc
    · obtain ⟨k, hk, -⟩ := h.exists_key ha
      have hg : cfg.guards c = true := by
        simp [HostConfig.guards, hc, Option.isSome_iff_ne_none.mpr hkey]
      have hspec := (@request_accounted β _ cfg t c payload k L₀ log hg ha hk _ rfl).reaches
        (fun _ _ => hst _ _) (fun _ _ => hst _ _)
        ⟨rfl, (haccounted c unused).passing (hnew hc) rfl rfl⟩ hr
      cases r <;> exact hspec
    · have hspec := (@request_accounted_open β _ cfg t c payload L₀ log hc).reaches
        (fun _ _ => hst _ _) (fun _ _ => hst _ _) ⟨rfl, haccounted c _⟩ hr
      cases r <;> exact hspec
  exact hend.between c' S

/-- **The session is kept** over any number of calls, and all that is left is accounted for. -/
theorem Calls.keeping {log : List CallRecord} {s s' : HostState β × Link (Packet β) (World β)}
    (h : Calls cfg (Renewed s.2) s log s') (hkey : cfg.authKey ≠ none) (hs : Keeping key s.1 s.2)
    (haccounted : ∀ c S, Accounted s.2 [] c S s.2) :
    Keeping key s'.1 s'.2 ∧ ∀ c S, Accounted s.2 log c S s'.2 := by
  induction h with
  | start => exact ⟨hs, haccounted⟩
  | call _ ha hc hcond hr ih =>
    have hnew := fun hp => (ih.2 _ unused).unaliased (hcond hp)
    exact ⟨ih.1.call hkey ha hc hnew hr, ih.1.accounted ih.2 hkey ha hc hnew hr⟩

end Calls

omit [Alphabet β] in
/-- At the start only what is there is accounted for. -/
theorem Agreed.accounted {cfg : HostConfig β} {key : List β} {u : HostState β}
    {L₀ : Link (Packet β) (World β)} (h : Agreed cfg key u L₀) (c : Command) (S : UInt16 → Prop) :
    Accounted L₀ [] c S L₀ where
  required := h.held.required
  idle hn := absurd (h.held.authenticated.symm.trans hn) (by decide)
  requests q hq := .inr (within_nil (.inl ⟨q, hq, rfl⟩) 0)
  guarded q hq _ := .inr (within_nil (.inl ⟨q, hq, rfl, rfl⟩) 0)
  replies q hq := .inr (within_nil (.inr ⟨q, hq, rfl⟩) 0)
  entries k e he := .inr (within_nil
    (.inr ⟨e, Ring.mem_entries_iff_ago.mpr ⟨k, Ring.lt_of_ago he, he⟩, rfl, rfl⟩) k)

/-- **Fresh answers.** In a session of any length, each protected call gets a fresh answer if
the numbers of its protected calls are renewed: whenever one comes round again, a protected call
has been answered since it was last used, and eight have been since it was last used for the same
command. -/
theorem fresh_answers {cfg : HostConfig β} {key : List β} {u t : HostState β}
    {L₀ L : Link (Packet β) (World β)} {log : List CallRecord} (hstart : Agreed cfg key u L₀)
    (hcalls : Calls cfg (Renewed L₀) (u, L₀) log (t, L)) (ha : t.authenticated = true)
    {c : Command} (hc : c.isProtected = true) (hnew : Renewed L₀ log c (t.sequence + 1))
    (payload : List β) : FreshCall cfg c payload t L := by
  have hkeeping : Keeping key u L₀ := ⟨.inr ⟨hstart.held, hstart.requests⟩,
    .inr fun _ => hstart.sessionKey, fun _ => by simp [hstart.sessionKey]⟩
  obtain ⟨hkept, haccounted⟩ := hcalls.keeping (s := (u, L₀)) hstart.authKey hkeeping
    hstart.accounted
  exact hkept.fresh hstart.authKey ha hc ((haccounted c unused).unaliased hnew)

/-! ### A counter that has wrapped -/

section Pings
variable {cfg : HostConfig β} {L : Link (Packet β) (World β)} {t : HostState β}

/-- One ping of a client with a session. -/
theorem reaches_ping (hretries : 0 < cfg.retries) (hL : L.Empty) : ∃ L', L'.Empty ∧
    lossyEnv.Reaches (request cfg .ping [] t, L)
      (.ret (.ok (ackFrame (t.sequence + 1)), t.at (t.sequence + 1)), L') ∧
    L'.server = ⟨L.server.device, L.server.trace ++
      [.receive (frame .ping (t.sequence + 1) []), .send (ackFrame (t.sequence + 1))]⟩ := by
  have hstep := step_ping L.server.device (.succeeding ⟨0, 0⟩ []) (t.sequence + 1)
  have hserve := @serve_reliable β _ (fun _ => ⟨List.replicate 16 (ofByte 0), rfl⟩)
    (fun _ _ => .succeeding ⟨0, 0⟩ []) L.server _ _ (by rw [hstep]; rfl)
  rw [step_world hstep] at hserve
  exact reaches_of_reliable hL
    (request_gives_open (by simp [HostConfig.guards, Command.isProtected])
    hretries (by simp) (by simp) hserve rfl)

/-- One protected call whose response is authenticated. -/
theorem reaches_tagged {key : List β} {c : Command} {payload : List β} {error : ProtocolError}
    {esp : EspIdf β} (hg : cfg.guards c = true) (hretries : 0 < cfg.retries)
    (ha : t.authenticated = true) (hk : t.sessionKey = some key)
    (hc : c ≠ .reboot ∧ c ≠ .rollback) (hl : payload.length + authTagSize ≤ protocolMaxPayload)
    (he : error ≠ .authRequired) (hL : L.Empty)
    (hsent : sent (L.server.device.step esp (tagged key c (t.sequence + 1) payload)).2 =
      [signed key c (t.sequence + 1) error]) : ∃ r L', L'.Empty ∧
    lossyEnv.Reaches (request cfg c payload t, L) (.ret (.ok r, t.at (t.sequence + 1)), L') ∧
    L'.server = L.server.step esp (tagged key c (t.sequence + 1) payload) := by
  have hserve := @serve_reliable β _ (fun _ => ⟨List.replicate 16 (ofByte 0), rfl⟩)
    (fun _ _ => esp) L.server _ _ hsent
  have hgives := request_gives hg hretries ha hk hl hserve rfl (isAuthRequired_of_ne he _ _ _) rfl
  rw [HostState.finished, if_neg (by simp [hc.1, hc.2])] at hgives
  obtain ⟨L', hempty, hr, hserver⟩ := reaches_of_reliable hL hgives
  exact ⟨_, L', hempty, hr, hserver⟩

/-- Any number of pings. -/
theorem calls_pings {Condition : List CallRecord → Command → UInt16 → Prop}
    {s : HostState β × Link (Packet β) (World β)} {log : List CallRecord}
    (hretries : 0 < cfg.retries)
    (h : Calls cfg Condition s log (t, L)) (ha : t.authenticated = true) (hL : L.Empty) (k : ℕ) :
    ∃ pings L', Calls cfg Condition s (pings ++ log) (t.at (t.sequence + UInt16.ofNat k), L') ∧
      pings.length = k ∧
      (∀ r ∈ pings, ∃ i < k, r = ⟨.ping, t.sequence + UInt16.ofNat i + 1, false, true⟩) ∧
      L'.Empty ∧ L'.server.device = L.server.device ∧
      (Restarted L'.server.trace → Restarted L.server.trace) := by
  induction k with
  | zero => exact ⟨[], L, by simpa [HostState.at] using h, rfl, by simp, hL, rfl, id⟩
  | succ k ih =>
    obtain ⟨pings, L₁, hcalls, hlength, hpings, hempty, hdevice, halive⟩ := ih
    obtain ⟨L₂, hempty', hr, hserver⟩ := @reaches_ping β _ cfg L₁
      (t.at (t.sequence + UInt16.ofNat k)) hretries hempty
    refine ⟨⟨.ping, t.sequence + UInt16.ofNat k + 1, false, true⟩ :: pings, L₂, ?_,
      by simp [hlength], ?_, hempty', by rw [hserver]; exact hdevice, fun h => halive ?_⟩
    · have hk : t.sequence + UInt16.ofNat (k + 1) = t.sequence + UInt16.ofNat k + 1 := by
        rw [UInt16.add_assoc]
        congr 1
        simp [UInt16.ofNat_add]
      rw [hk]
      have := hcalls.call ha (.inr (.inl rfl)) (fun hc => by cases hc) hr
      simpa [HostState.record, Except.isOk, Except.toBool] using this
    · intro r hr
      rcases List.mem_cons.mp hr with rfl | hr
      · exact ⟨k, Nat.lt_succ_self k, rfl⟩
      · obtain ⟨i, hi, rfl⟩ := hpings r hr
        exact ⟨i, by omega, rfl⟩
    · rw [hserver] at h
      obtain ⟨e, he, hrestart⟩ := h
      rcases List.mem_append.mp he with he | he
      · exact ⟨e, he, hrestart⟩
      · simp only [List.mem_cons, List.not_mem_nil, or_false] at he
        rcases he with rfl | rfl <;> simp [Event.reboots] at hrestart

end Pings

/-- The key of the sample session. -/
def sampleKey : List Octet := sessionKeyOf (pskOctets 1) sampleClientNonce sampleServerNonce

/-- The worlds of the sample session: at its start, after an `OTA_ABORT` that has nothing to
abort, and after an `OTA_BEGIN`. -/
def atStart : World Octet := ⟨sampleSession, []⟩
def afterAbort : World Octet := atStart.step sampleEsp (tagged sampleKey .otaAbort 3 [])
def afterBegin : World Octet := afterAbort.step sampleEsp (tagged sampleKey .otaBegin 4 sampleBegin)

theorem agreed_sample : Agreed sampleHost sampleKey sampleMember (.quiet atStart) where
  authKey := by decide
  authenticated := rfl
  sessionKey := rfl
  held := ⟨by decide, by decide, by decide +kernel⟩
  requests := by simp [Link.quiet]
  trace := rfl

/-- An `OTA_ABORT`, an `OTA_BEGIN` and 65534 pings bring the counter back to where it was
before them. -/
theorem calls_wrapped : ∃ log L, Calls sampleHost (fun _ _ _ => True)
    (sampleMember, .quiet atStart) log (sampleMember.at 2, L) ∧
    L.server.device = afterBegin.device ∧ ¬Restarted L.server.trace := by
  have habort : sent (atStart.device.step sampleEsp (tagged sampleKey .otaAbort 3 [])).2 =
      [signed sampleKey .otaAbort 3 .otaNotStarted] := by decide +kernel
  have hbegin : sent (afterAbort.device.step sampleEsp
      (tagged sampleKey .otaBegin 4 sampleBegin)).2 = [signed sampleKey .otaBegin 4 .ok] := by
    decide +kernel
  -- The two protected calls.
  obtain ⟨r₁, L₁, hempty₁, hr₁, hserver₁⟩ := @reaches_tagged Octet _ sampleHost
    (Link.quiet atStart) sampleMember sampleKey .otaAbort [] .otaNotStarted sampleEsp rfl
    (by decide) rfl rfl (by decide) (by decide) (by decide) ⟨rfl, rfl⟩ habort
  change L₁.server = afterAbort at hserver₁
  rw [← hserver₁] at hbegin
  obtain ⟨r₂, L₂, hempty₂, hr₂, hserver₂⟩ := @reaches_tagged Octet _ sampleHost
    L₁ (sampleMember.at 3) sampleKey .otaBegin sampleBegin .ok sampleEsp rfl
    (by decide) rfl rfl (by decide) (by decide) (by decide) hempty₁ hbegin
  rw [hserver₁] at hserver₂
  change L₂.server = afterBegin at hserver₂
  have hcalls := ((@Calls.start Octet _ sampleHost (fun _ _ _ => True) _).call rfl
    (.inl rfl) (fun _ => trivial) hr₁).call rfl (.inl rfl) (fun _ => trivial) hr₂
  -- The pings.
  obtain ⟨pings, L₃, hcalls₃, -, -, -, hdevice, halive⟩ :=
    calls_pings (by decide) hcalls rfl hempty₂ 65534
  refine ⟨_, L₃, hcalls₃, hdevice.trans (by rw [hserver₂]), fun hrestarted => ?_⟩
  have hrestarted := halive hrestarted
  rw [hserver₂] at hrestarted
  revert hrestarted
  unfold Restarted
  decide +kernel

/-- After an `OTA_ABORT`, an `OTA_BEGIN` and 65534 pings the counter has wrapped, and the next
`OTA_ABORT` is not executed: the device resends the refusal of the first. -/
theorem fresh_answers_wrapped :
    ¬∀ (cfg : HostConfig Octet) (key : List Octet) (u t : HostState Octet)
      (L₀ L : Link (Packet Octet) (World Octet)) (log : List CallRecord) (c : Command)
      (payload : List Octet), Agreed cfg key u L₀ →
      Calls cfg (fun _ _ _ => True) (u, L₀) log (t, L) →
      t.authenticated = true → c.isProtected = true → FreshCall cfg c payload t L := by
  intro h
  obtain ⟨log, L, hcalls, hdevice, halive⟩ := calls_wrapped
  have hfresh := h _ _ _ _ _ _ log .otaAbort [] agreed_sample hcalls rfl rfl
  obtain ⟨p, hp⟩ : ∃ p, request sampleHost .otaAbort [] (sampleMember.at 2) =
    .send (tagged sampleKey .otaAbort 3 []) p := ⟨_, rfl⟩
  have hreach : lossyEnv.Reaches (request sampleHost .otaAbort [] (sampleMember.at 2), L)
      (p, { L with requests := L.requests ++ [tagged sampleKey .otaAbort 3 []] }) := by
    rw [hp]
    exact .single (.send rfl)
  have hrun := hfresh.executed hreach halive
    (List.mem_append_right _ (List.mem_singleton.mpr rfl)) rfl (by simp)
  have hlookup := (lookup_of_run hrun (by rw [hdevice]; decide +kernel)).2.1
  rw [hdevice] at hlookup
  have hold : afterBegin.device.auth.lookup (tagged sampleKey .otaAbort 3 []) ≠ .fresh := by
    decide +kernel
  exact hold hlookup

/-! ### A counter that has wrapped, after nine protected calls -/

omit [Alphabet β] in
/-- A number that no call has used is new where nothing is at the start. -/
theorem renewed_of_unused {w : World β} (hw : w.device.auth.replayCache.entries = [])
    {log : List CallRecord} {c : Command} {n : UInt16} (h : ∀ r ∈ log, r.uses n = false) :
    Renewed (.quiet w) log c n where
  link := by
    rintro (⟨r, hr, hn⟩ | ⟨q, hq, -⟩ | ⟨q, hq, -⟩)
    · simp [h r hr] at hn
    · simp [Link.quiet] at hq
    · simp [Link.quiet] at hq
  cache := by
    rintro (⟨r, hr, hn⟩ | ⟨q, hq, -⟩ | ⟨e, he, -⟩)
    · simp [CallRecord.usesFor, h r hr] at hn
    · simp [Link.quiet] at hq
    · simp [Link.quiet, hw] at he

/-- Calls that neither satisfy `p` nor age do not count. -/
theorem answeredSince_append {p : CallRecord → Bool} {others log : List CallRecord}
    (h : ∀ r ∈ others, p r = false ∧ r.ages = false) :
    answeredSince (others ++ log) p = answeredSince log p := by
  induction others with
  | nil => rfl
  | cons r others ih =>
    obtain ⟨⟨hp, hages⟩, hothers⟩ := List.forall_mem_cons.mp h
    rw [List.cons_append, answeredSince_cons, ih hothers]
    simp [hp, hages]

/-- The world after so many `OTA_ABORT`s that have nothing to abort, and their log. -/
def afterAborts : ℕ → World Octet
  | 0 => atStart
  | k + 1 => (afterAborts k).step sampleEsp (tagged sampleKey .otaAbort (2 + UInt16.ofNat k + 1) [])

def abortLog : ℕ → List CallRecord
  | 0 => []
  | k + 1 => ⟨.otaAbort, 2 + UInt16.ofNat k + 1, false, true⟩ :: abortLog k

theorem calls_aborts {k : ℕ} (hk : k ≤ 9) : ∃ L, Calls sampleHost (Renewed (.quiet atStart))
    (sampleMember, .quiet atStart) (abortLog k) (sampleMember.at (2 + UInt16.ofNat k), L) ∧
    L.Empty ∧ L.server = afterAborts k := by
  induction k with
  | zero => exact ⟨_, .start, ⟨rfl, rfl⟩, rfl⟩
  | succ k ih =>
    obtain ⟨L, hcalls, hempty, hserver⟩ := ih (by omega)
    have hsent : ∀ i < 9, sent ((afterAborts i).device.step sampleEsp
        (tagged sampleKey .otaAbort (2 + UInt16.ofNat i + 1) [])).2 =
        [signed sampleKey .otaAbort (2 + UInt16.ofNat i + 1) .otaNotStarted] := by decide +kernel
    have hunused : ∀ i < 9, ∀ r ∈ abortLog i, r.uses (2 + UInt16.ofNat i + 1) = false := by decide
    have hsent := hsent k (by omega)
    rw [← hserver] at hsent
    obtain ⟨r, L', hempty', hr, hserver'⟩ := @reaches_tagged Octet _ sampleHost L
      (sampleMember.at (2 + UInt16.ofNat k)) sampleKey .otaAbort [] .otaNotStarted sampleEsp rfl
      (by decide) rfl rfl (by decide) (by decide) (by decide) hempty hsent
    refine ⟨L', ?_, hempty', by rw [hserver', hserver]; rfl⟩
    have hnext : 2 + UInt16.ofNat (k + 1) = 2 + UInt16.ofNat k + 1 := by
      rw [UInt16.add_assoc]
      congr 1
      simp [UInt16.ofNat_add]
    rw [hnext]
    have := hcalls.call rfl (.inl rfl)
      (fun _ => renewed_of_unused (by decide +kernel) (hunused k (by omega))) hr
    simpa [HostState.record, Except.isOk, Except.toBool, abortLog] using this

/-- Nine `OTA_ABORT`s and 65527 pings bring the counter back to where it was before them. The
next `OTA_ABORT` is the packet of the first, octet for octet, and it gets an answer of its own:
eight have been answered in between. -/
theorem fresh_answers_aged : ∃ log L, Calls sampleHost (Renewed (.quiet atStart))
    (sampleMember, .quiet atStart) log (sampleMember.at 2, L) ∧ log.length = 65536 ∧
    FreshCall sampleHost .otaAbort [] (sampleMember.at 2) L := by
  obtain ⟨L, hcalls, hempty, -⟩ := calls_aborts (k := 9) (by omega)
  obtain ⟨pings, L', hcalls', hlength, hpings, -⟩ :=
    calls_pings (by decide) hcalls rfl hempty 65527
  refine ⟨pings ++ abortLog 9, L', hcalls', by simp [hlength, abortLog], ?_⟩
  have hother : ∀ r ∈ pings, r.uses 3 = false ∧ r.ages = false := by
    intro r hr
    obtain ⟨i, hi, rfl⟩ := hpings r hr
    refine ⟨?_, rfl⟩
    have hne : (3 : UInt16) ≠ 2 + UInt16.ofNat 9 + UInt16.ofNat i + 1 := by
      intro h
      have := congrArg UInt16.toNat h
      simp only [UInt16.toNat_add, UInt16.toNat_ofNat', UInt16.toNat_ofNat] at this
      omega
    simpa [CallRecord.uses] using hne
  refine fresh_answers agreed_sample hcalls' rfl rfl ⟨fun _ => ?_, fun _ => ?_⟩ []
  · change 1 ≤ answeredSince (pings ++ abortLog 9) (·.uses 3)
    rw [answeredSince_append hother]
    decide
  · change 8 ≤ answeredSince (pings ++ abortLog 9) (·.usesFor Command.otaAbort.code 3)
    rw [answeredSince_append fun r hr => ⟨by simp [CallRecord.usesFor, (hother r hr).1],
      (hother r hr).2⟩]
    decide

end OtaLink
