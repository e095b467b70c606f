import OtaLink.Link
import OtaLink.Octets
import OtaLink.Reliable
import OtaLink.Replay

/-!
# Recovery of a session

Client and device may have lost track of each other: the client holds a session that the
device has replaced or forgotten, or the device has one that the client does not know. On a
link without losses the next protected call finds out and leads one handshake. Whatever the
device refuses, signed or not, begins with the code that makes the client authenticate
again; whatever it signs otherwise carries the tag of the client's own session.

## Main definitions

* `HostState.Reachable` — the records a client may have after any history.
* `SoundCache` — what the replay cache of a device holds after any history.
* `reliable` — the device on the other side of a link without losses.
* `session_heals` — the next protected call ends with a verified response.
-/

namespace OtaLink
open Lib

variable {β : Type} [Alphabet β]

/-! ## The client after any history -/

/-- The records of a client, whatever the other side has done during its calls. -/
inductive HostState.Reachable (cfg : HostConfig β) : HostState β → Prop
  | opened (n : UInt16) : Reachable cfg (.opened n)
  | authenticated {t t' : HostState β} {σ : Type} {E : Env Ask (Answer β) (Packet β) σ} {s s' : σ}
      {r : Except HostError Unit} (h : Reachable cfg t)
      (hr : E.Reaches (authenticate cfg t, s) (.ret (r, t'), s')) : Reachable cfg t'
  | requested {t t' : HostState β} {σ : Type} {E : Env Ask (Answer β) (Packet β) σ} {s s' : σ}
      {c : Command} {payload : List β} {r : Except HostError (Packet β)} (h : Reachable cfg t)
      (hr : E.Reaches (request cfg c payload t, s) (.ret (r, t'), s')) : Reachable cfg t'

/-- A client that believes to be authenticated has a session key. -/
def HostState.HasKey (t : HostState β) : Prop := t.authenticated = true → t.sessionKey ≠ none

section Client
variable {σ : Type} {E : Env Ask (Answer β) (Packet β) σ} {cfg : HostConfig β}
  {J : HostState β → Prop}

/-- Everything that ends in a record with `J`, from a record with `J`. -/
abbrev Keeps {α : Type} (E : Env Ask (Answer β) (Packet β) σ) (J : HostState β → Prop)
    (x : HostTask β α) : Prop :=
  Task.Spec E (fun _ => True) (fun t _ => J t) x (fun _ t _ => J t) (fun _ t _ => J t)

omit [Alphabet β] in
theorem keeps_requestPacket (m : Packet β) : Keeps E J (requestPacket cfg m) := by
  refine Task.Spec.bind (R := fun _ t _ => J t) ?_ fun r => ?_
  · exact Task.Spec.exchange (W := fun _ t _ => J t) (V := fun _ t _ => J t)
      (fun _ _ _ _ _ h => h) (fun _ _ _ _ _ h => h) (fun _ _ _ _ => trivial)
      (fun _ _ _ _ => trivial) (fun _ _ _ _ h _ => h) (fun _ _ _ _ h _ => h)
      (fun _ _ _ _ _ h _ => h) (fun _ _ h => h) cfg.retries
  · cases r with
    | some r => exact Task.Spec.pure fun _ _ h => h
    | none => exact Task.Spec.raise fun _ _ h => h

omit [Alphabet β] in
theorem keeps_nextSequence (hJ : ∀ t n, J t → J (t.at n)) : Keeps E J nextSequence := by
  refine nextSequence_spec.consequence (fun _ _ h => h) ?_ (fun _ _ _ h => h)
  rintro n t s ⟨t₀, h, rfl, rfl⟩
  exact hJ t₀ _ h

omit [Alphabet β] in
theorem keeps_buildPacket (c : Command) (n : UInt16) (payload : List β) :
    Keeps E J (buildPacket c n payload) :=
  (buildPacket_spec fun _ _ h _ => h).consequence (fun _ _ h => h) (fun _ _ _ h => h.1)
    (fun _ _ _ h => h)

omit [Alphabet β] in
theorem keeps_requestUnprotected (hJ : ∀ t n, J t → J (t.at n)) (c : Command) (payload : List β) :
    Keeps E J (requestUnprotected cfg c payload) :=
  Task.Spec.bind (keeps_nextSequence hJ) fun _ =>
    Task.Spec.bind (keeps_buildPacket c _ payload) fun m => keeps_requestPacket m

theorem keeps_ensureAck (m : Packet β) (context : Context) : Keeps E J (ensureAck m context) :=
  (ensureAck_spec fun _ _ _ h _ => h).consequence (fun _ _ h => h) (fun _ _ _ h => h.1)
    (fun _ _ _ h => h)

theorem hasKey_authenticate : Keeps E HostState.HasKey (authenticate cfg) := by
  rw [authenticate_eq]
  cases cfg.authKey with
  | none => exact Task.Spec.pure fun _ _ h => h
  | some key =>
    refine Task.Spec.read_bind fun t₀ => Task.Spec.ite (fun _ => ?_) fun _ => ?_
    · exact Task.Spec.pure fun _ _ h => h.1 ▸ h.2
    refine Task.Spec.bind (R := fun _ t _ => HostState.HasKey t) ?_ fun nonce => ?_
    · exact Task.Spec.ask (fun _ _ _ _ h => h) (fun _ _ _ => trivial) fun _ _ _ _ h _ => h.1 ▸ h.2
    refine Task.Spec.bind (keeps_requestUnprotected (fun _ _ h => h) _ _) fun challenge => ?_
    refine Task.Spec.ite (fun _ => Task.Spec.raise fun _ _ h => h) fun _ => ?_
    refine Task.Spec.bind (keeps_ensureAck _ _) fun _ => ?_
    refine Task.Spec.ite (fun _ => Task.Spec.raise fun _ _ h => h) fun _ => ?_
    have hkey : ∀ t : HostState β, t.sessionKey ≠ none → t.HasKey := fun _ h _ => h
    refine Task.Spec.update_bind ?_
    refine (Task.Spec.bind (R := fun _ t _ => t.sessionKey ≠ none)
      ((keeps_requestUnprotected (J := fun t => t.sessionKey ≠ none) (fun _ _ h => h) _
        _).consequence (fun _ _ h => h) (fun _ _ _ h => h) fun _ t _ h => hkey t h)
        fun response => ?_).pre ?_
    · refine Task.Spec.bind (R := fun _ t _ => t.sessionKey ≠ none) ?_ fun _ => ?_
      · exact (keeps_ensureAck (J := fun t => t.sessionKey ≠ none) _ _).consequence
          (fun _ _ h => h) (fun _ _ _ h => h) fun _ t _ h => hkey t h
      · exact Task.Spec.update fun t _ h => hkey _ h
    · rintro t s ⟨t₁, rfl, -⟩
      simp

theorem hasKey_requestOnce {c : Command} {payload : List β} {again : Option (HostTask β (Packet β))}
    (hagain : ∀ task, again = some task → Keeps E HostState.HasKey task) :
    Keeps E HostState.HasKey (requestOnce cfg c payload again) := by
  have hfinish : ∀ n r, Keeps E HostState.HasKey (finishRequest cfg c n r) := by
    intro n r
    refine (finishRequest_spec fun _ _ _ h _ _ _ => h).consequence (fun _ _ h => h) ?_
      (fun _ _ _ h => h)
    rintro _ t s ⟨t₀, h, -, -, rfl | ⟨-, rfl⟩⟩
    · exact h
    · exact fun ha => by cases ha
  refine Task.Spec.bind (keeps_nextSequence fun _ _ h => h) fun n => ?_
  refine Task.Spec.bind (R := fun _ t _ => HostState.HasKey t) ?_ fun pp => ?_
  · exact (authenticatedPayload_spec fun _ _ _ h _ => h).consequence (fun _ _ h => h)
      (fun _ _ _ h => h.1) (fun _ _ _ h => h)
  refine Task.Spec.bind (keeps_buildPacket c n pp) fun m => ?_
  refine Task.Spec.bind (keeps_requestPacket m) fun r => ?_
  cases again with
  | none => exact hfinish n r
  | some task => exact Task.Spec.ite (fun _ => hagain task rfl) fun _ => hfinish n r

theorem hasKey_request {c : Command} {payload : List β} :
    Keeps E HostState.HasKey (request cfg c payload) := by
  have hauth : Keeps E HostState.HasKey (authenticateFor cfg c) :=
    Task.Spec.ite (fun _ => hasKey_authenticate) fun _ => Task.Spec.pure fun _ _ h => h
  refine Task.Spec.bind hauth fun _ => hasKey_requestOnce ?_
  rintro task ⟨⟩
  refine Task.Spec.bind (R := fun _ t _ => HostState.HasKey t) ?_ fun _ =>
    Task.Spec.bind hasKey_authenticate fun _ => hasKey_requestOnce fun _ h => by cases h
  refine clearAuthentication_spec.consequence (fun _ _ h => h) ?_ (fun _ _ _ h => h)
  rintro _ t s ⟨t₀, -, rfl⟩ ha
  cases ha

omit [Alphabet β] in
/-- What a task keeps holds of the record it ends with. -/
theorem Keeps.of_reaches {α : Type} {x : HostTask β α} (hx : Keeps E J x) {t t' : HostState β}
    {s s' : σ} {r : Except HostError α} (h : J t) (hr : E.Reaches (x t, s) (.ret (r, t'), s')) :
    J t' := by
  have hend := hx.reaches (fun _ _ _ _ _ h => h) (fun _ _ _ _ _ h => h) h hr
  cases r <;> exact hend

theorem HostState.Reachable.hasKey {t : HostState β} (h : HostState.Reachable cfg t) :
    t.HasKey := by
  induction h with
  | opened n => exact fun ha => by cases ha
  | authenticated _ hr ih => exact hasKey_authenticate.of_reaches ih hr
  | requested _ hr ih => exact hasKey_request.of_reaches ih hr

end Client

/-! ## The device after any history -/

/-- The entry stores the response of the session to some request, which carries the tag of
the session unless the response demands one. -/
def AuthState.Stored (s : AuthState β) (entry : ReplayEntry β) : Prop :=
  ∃ (m : Packet β) (error : ProtocolError),
    entry = s.entryFor m (responseFor error) (statusPayload error) ∧
      (error ≠ .authRequired → ∃ payload,
        m.payload = payload ++ requestTag s.sessionKey m.command m.sequence payload)

/-- Every entry of the cache is of the session. -/
def SoundCache (s : AuthState β) : Prop := ∀ entry ∈ s.replayCache.entries, s.Stored entry

section Device
variable {d : Device β} {esp : EspIdf β} {packet : Packet β}

theorem soundCache_empty {s : AuthState β} (h : s.replayCache = .empty 8) : SoundCache s := by
  intro entry hentry
  simp [h] at hentry

theorem soundCache_report (h : SoundCache d.auth) {error : ProtocolError}
    (hm : d.auth.signs packet.command = true → error ≠ .authRequired → ∃ payload,
      packet.payload = payload ++
        requestTag d.auth.sessionKey packet.command packet.sequence payload) :
    SoundCache (d.auth.remember packet (responseFor error) (statusPayload error)) := by
  by_cases hs : d.auth.signs packet.command = true
  · rw [AuthState.remember, if_pos hs]
    intro entry hentry
    rcases Ring.mem_entries_insert hentry with rfl | hentry
    · exact ⟨packet, error, rfl, hm hs⟩
    · exact h entry hentry
  · rwa [AuthState.remember, if_neg hs]

theorem soundCache_step (h : SoundCache d.auth) : SoundCache (d.step esp packet).1.auth := by
  have hstep := step_cases d esp packet
  generalize d.step esp packet = r at hstep
  cases hstep with
  | status | info | proof | resend => exact h
  | challenge => exact soundCache_empty rfl
  | refuse _ _ _ _ hg =>
    obtain rfl := error_of_refuse hg
    exact soundCache_report h fun _ hne => absurd rfl hne
  | @run c _ _ _ payload hg o =>
    dsimp only
    split
    · exact soundCache_empty rfl
    · refine soundCache_report h fun hs _ => ⟨payload, ?_⟩
      have hrequired : d.auth.required = true := by
        simp only [AuthState.signs, Bool.and_eq_true] at hs
        exact hs.1.1
      exact ((authUnwrapPacket_eq_ok hs).mp (lookup_of_run hg hrequired).2.2).1

theorem soundCache_run (h : SoundCache d.auth) (xs : List (Stimulus β)) :
    SoundCache (d.run xs).1.auth := by
  refine Device.run_induction (I := fun d _ => SoundCache d.auth) xs h fun d _ x _ h => ?_
  cases x with
  | packet packet esp => exact soundCache_step h
  | reset => exact soundCache_empty rfl

theorem required_run (d : Device β) (xs : List (Stimulus β)) :
    (d.run xs).1.auth.required = d.auth.required ∧ (d.run xs).1.auth.key = d.auth.key := by
  have h : (d.run xs).1.restarted = d.restarted :=
    Device.run_induction (I := fun d' _ => d'.restarted = d.restarted) xs rfl
      fun d' _ x _ h => by
        cases x with
        | packet packet esp => exact (restarted_step d' esp packet).trans h
        | reset => exact h
  have hrequired : (d.run xs).1.restarted.auth.required = d.restarted.auth.required := by rw [h]
  have hkey : (d.run xs).1.restarted.auth.key = d.restarted.auth.key := by rw [h]
  exact ⟨hrequired, hkey⟩

end Device

/-! ## One request -/

/-- A refusal makes the client authenticate again, signed or not. -/
theorem isAuthRequired_reply (d : Device β) (m : Packet β) :
    isAuthRequired (d.reply m .authRequired) = true := by
  rw [Device.reply, AuthState.response]
  split <;> simp [isAuthRequired, frame, statusPayload, responseFor]

/-- Any other response does not. -/
theorem isAuthRequired_of_ne {error : ProtocolError} (h : error ≠ .authRequired) (c : Command)
    (n : UInt16) (tag : List β) :
    isAuthRequired (frame c n (statusPayload error ++ tag)) = false := by
  have hcode : (ofByte error.code : β) ≠ ofByte ProtocolError.authRequired.code := by
    intro heq
    have := congrArg toByte heq
    simp only [Alphabet.toByte_ofByte, ProtocolError.code_inj] at this
    exact h this
  simp [isAuthRequired, frame, statusPayload, hcode]

/-- A request of command `c`, tagged with `key`. -/
def tagged (key : List β) (c : Command) (n : UInt16) (payload : List β) : Packet β :=
  frame c n (payload ++ requestTag key c.code n payload)

theorem callPacket_guarded {cfg : HostConfig β} {u : HostState β} {c : Command}
    {payload key : List β} (hg : cfg.guards c = true) (hk : u.sessionKey = some key)
    (n : UInt16) : callPacket cfg u c n payload = tagged key c n payload := by
  simp [callPacket, HostConfig.tagFor, hg, hk, tagged]

theorem callPacket_open {cfg : HostConfig β} {u : HostState β} {c : Command} {payload : List β}
    (hg : cfg.guards c = false) (n : UInt16) :
    callPacket cfg u c n payload = frame c n payload := by
  simp [callPacket, HostConfig.tagFor, hg]

/-- The response to such a request that reports `error`, signed with `key`. -/
def signed (key : List β) (c : Command) (n : UInt16) (error : ProtocolError) : Packet β :=
  frame (responseFor error) n (statusPayload error ++
    responseTag key c.code (responseFor error).code n (statusPayload error))

section Symbolic
variable {key key' payload payload' : List Octet} {c : Command} {n : UInt16} {d : Device Octet}

/-- The tag of a request determines its key. -/
theorem key_of_requestTag {c : UInt8}
    (h : payload ++ requestTag key c n payload = payload' ++ requestTag key' c n payload') :
    key = key' ∧ payload = payload' := by
  obtain ⟨hpayload, htag⟩ := List.append_inj' h (by simp)
  exact ⟨((Sym.take_mac_inj (by decide)).mp htag).1, hpayload⟩

/-- The digest of a request determines its payload. -/
theorem payload_of_digest {m m' : Packet Octet} (hc : m.command = m'.command)
    (hn : m.sequence = m'.sequence) (h : computeRequestDigest m = computeRequestDigest m') :
    m.payload = m'.payload := by
  have hinput : requestInput m.command m.sequence m.payload =
      requestInput m'.command m'.sequence m'.payload := Sym.sha_inj.mp h
  rw [hc, hn] at hinput
  simpa [requestInput] using hinput

/-- **One tagged request.** The device demands a new session, or it answers under the key of
the tag, which is then its own. -/
theorem answer_tagged (hsound : SoundCache d.auth) (hr : d.auth.required = true)
    (hp : c.isProtected = true) (esp : EspIdf Octet) :
    ∃ r, sent (d.step esp (tagged key c n payload)).2 = [r] ∧ r.sequence = n ∧
      (isAuthRequired r = true ∨
        ∃ error, error ≠ .authRequired ∧ r = signed key c n error) := by
  obtain ⟨r, hsent, hseq⟩ := sent_handle d esp (tagged key c n payload)
  rw [← sent_step] at hsent
  refine ⟨r, hsent, hseq, ?_⟩
  have hv : (tagged key c n payload).version = protocolVersion := rfl
  have hc : (tagged key c n payload).command = c.code := rfl
  cases hg : d.auth.gate (tagged key c n payload) with
  | refuse error =>
    obtain rfl := error_of_refuse hg
    rw [step_of_refuse esp hv hc hp hg] at hsent
    obtain rfl : d.reply _ .authRequired = r := by simpa [Event.sent?] using hsent
    exact .inl (isAuthRequired_reply d _)
  | resend entry =>
    obtain ⟨-, -, hl⟩ := lookup_of_resend hg
    obtain ⟨hentry, hcommand, hsequence, hdigest⟩ := mem_of_duplicate hl
    rw [step_of_resend esp hv hc hp hg] at hsent
    obtain rfl : entry.frame n = r := by simpa [Event.sent?, tagged, frame] using hsent
    obtain ⟨m, error, rfl, hm⟩ := hsound entry hentry
    have hpay := payload_of_digest hcommand hsequence hdigest
    have hmc : m.command = c.code := hcommand
    have hmn : m.sequence = n := hsequence
    have hframe : (d.auth.entryFor m (responseFor error) (statusPayload error)).frame n =
        signed d.auth.sessionKey c n error := by
      simp [ReplayEntry.frame, AuthState.entryFor, signed, frame, hmc, hmn]
    rw [hframe]
    by_cases herror : error = .authRequired
    · subst herror
      exact .inl (by simp [isAuthRequired, signed, frame, statusPayload, responseFor])
    · obtain ⟨body, hbody⟩ := hm herror
      rw [hpay, hmc, hmn] at hbody
      obtain ⟨rfl, -⟩ := key_of_requestTag hbody
      exact .inr ⟨error, herror, rfl⟩
  | run body =>
    rw [sent_step_of_run esp hv hc hp hg] at hsent
    obtain rfl := List.singleton_inj.mp hsent
    obtain ⟨ha, -, hu⟩ := lookup_of_run hg hr
    have hs : d.auth.signs (tagged key c n payload).command = true := by
      simp [AuthState.signs, hr, ha, hc, hp]
    obtain ⟨rfl, -⟩ := key_of_requestTag ((authUnwrapPacket_eq_ok hs).mp hu).1
    refine .inr ⟨_, execute_ne_authRequired esp d.ota c n body, ?_⟩
    rw [Device.reply, AuthState.response, if_pos hs]
    rfl

end Symbolic

/-- The first request of a session is executed. -/
theorem answer_fresh {d : Device β} {c : Command} {n : UInt16} {payload : List β}
    (hr : d.auth.required = true) (ha : d.auth.authenticated = true)
    (hcache : d.auth.replayCache = .empty 8) (hp : c.isProtected = true)
    (hl : payload.length + authTagSize ≤ protocolMaxPayload) (esp : EspIdf β) :
    ∃ error, error ≠ .authRequired ∧
      sent (d.step esp (tagged d.auth.sessionKey c n payload)).2 =
        [signed d.auth.sessionKey c n error] := by
  have hs : d.auth.signs (tagged d.auth.sessionKey c n payload).command = true := by
    simp [AuthState.signs, hr, ha, tagged, frame, hp]
  have hu : authUnwrapPacket d.auth (tagged d.auth.sessionKey c n payload) = .ok payload := by
    refine (authUnwrapPacket_eq_ok hs).mpr ⟨rfl, ?_⟩
    simp only [hmacMaxDataSize, authTagSize, protocolMaxPayload] at hl ⊢
    omega
  have hfresh : d.auth.lookup (tagged d.auth.sessionKey c n payload) = .fresh :=
    lookup_eq_fresh_iff.mpr (by simp [hcache])
  have hg : d.auth.gate (tagged d.auth.sessionKey c n payload) = .run payload := by
    simp [AuthState.gate, hr, ha, hfresh, hu]
  refine ⟨_, execute_ne_authRequired esp d.ota c n payload, ?_⟩
  rw [sent_step_of_run esp rfl rfl hp hg, Device.reply, AuthState.response, if_pos hs]
  rfl

/-! ## The next call -/

/-- The device on the other side of a link without losses. Its platform and the client's
source of nonces may depend on everything so far. -/
def reliable (nonce : World β → Answer β .urandom) (esp : World β → Packet β → EspIdf β) :
    HostPartner β (World β) where
  ask w | .urandom => (nonce w, w)
  serve w m := (sent (w.device.step (esp w m) m).2).head?.map fun r => (r, w.step (esp w m) m)

/-- The device receives a challenge. -/
def Event.isChallenge : Event β → Bool
  | .receive m => m.isChallenge
  | _ => false

/-- How many challenges a device has received. -/
def challenges (events : List (Event β)) : ℕ := events.countP Event.isChallenge

theorem challenges_step {m : Packet β} (h : m.isChallenge = false) (d : Device β) (e : EspIdf β) :
    challenges (d.step e m).2 = 0 := by
  refine List.countP_eq_zero.mpr fun x hx => ?_
  cases x with
  | receive p =>
    rw [receive_of_mem_step hx]
    simp [Event.isChallenge, h]
  | _ => simp [Event.isChallenge]

section Heals
variable {nonce : World β → Answer β .urandom} {esp : World β → Packet β → EspIdf β} {w : World β}

theorem serve_reliable {m r : Packet β} (h : sent (w.device.step (esp w m) m).2 = [r]) :
    (reliable nonce esp).serve w m = some (r, w.step (esp w m) m) := by
  simp [reliable, h]

theorem step_world {w : World β} {e : EspIdf β} {m : Packet β} {d : Device β}
    {events : List (Event β)} (h : w.device.step e m = (d, events)) :
    w.step e m = ⟨d, w.trace ++ events⟩ := by
  rw [World.step, h]

/-- A challenge is answered and begins a session. -/
theorem step_challenge {d : Device β} (hr : d.auth.required = true) (n : UInt16)
    {clientNonce : List β} (hc : clientNonce.length = authNonceSize) (e : EspIdf β) :
    d.step e (frame .auth n clientNonce) =
      ({ d with auth := d.auth.challenged clientNonce e.fillRandom hc e.length_fillRandom },
      [.receive (frame .auth n clientNonce), .send (frame .ack n (statusPayload .ok ++
        e.fillRandom ++ deviceProofOf d.auth.key clientNonce e.fillRandom))]) := by
  exact step_of_send (@handle_challenge β _ d e (frame .auth n clientNonce) rfl rfl hr hc)

/-- The proof of the session is accepted. -/
theorem step_accept {d : Device β} (hr : d.auth.required = true) (hp : d.auth.pending = true)
    (n : UInt16) (proof : List β) (hproof : proof = d.auth.clientNonce ++
      authProofOf d.auth.key d.auth.clientNonce d.auth.serverNonce) (e : EspIdf β) :
    d.step e (frame .auth n proof) =
      (d.proved, [.receive (frame .auth n proof), .send (ackFrame n)]) := by
  exact step_of_send (@handle_proof β _ d e (frame .auth n proof) rfl rfl hr (.inl hp) hproof)

/-- A session without any requests, which the client knows. -/
structure Fresh (u : HostState β) (w : World β) : Prop where
  sessionKey : u.sessionKey = some w.device.auth.sessionKey
  required : w.device.auth.required = true
  authenticated : w.device.auth.authenticated = true
  replayCache : w.device.auth.replayCache = .empty 8

/-- The handshake succeeds, whatever the device was doing. -/
theorem authenticate_reliable {cfg : HostConfig β} (hkey : cfg.authKey = some w.device.auth.key)
    (hretries : 0 < cfg.retries) (hr : w.device.auth.required = true) {u : HostState β}
    (hu : u.authenticated = false) :
    ∃ u' w', (authenticate cfg).Gives (reliable nonce esp) u w (.ok ()) u' w' ∧ Fresh u' w' ∧
      challenges w'.trace ≤ challenges w.trace + 1 ∧ u'.authenticated = true ∧
      w'.device.ota = w.device.ota := by
  generalize hnonce : nonce w = answer
  obtain ⟨clientNonce, hc⟩ := answer
  -- The challenge.
  generalize hm : (frame .auth (u.sequence + 1) clientNonce : Packet β) = m
  have hstep := step_challenge hr (u.sequence + 1) hc (esp w m)
  rw [hm] at hstep
  have hserve : (reliable nonce esp).serve w m = _ := serve_reliable (by rw [hstep]; rfl)
  have hw : w.step (esp w m) m = _ := step_world hstep
  generalize w.step (esp w m) m = w₁ at hserve hw
  -- The proof.
  generalize hproof : clientNonce ++ authProofOf w.device.auth.key clientNonce
    (esp w m).fillRandom = proof
  generalize hm' : (frame .auth (u.sequence + 1 + 1) proof : Packet β) = m'
  have hstep' := step_accept (d := w₁.device) (by rw [hw]; exact hr) (by rw [hw]; rfl)
    (u.sequence + 1 + 1) proof (by rw [hw, ← hproof]; subst hm; rfl) (esp w₁ m')
  rw [hm'] at hstep'
  have hserve' : (reliable nonce esp).serve w₁ m' = _ := serve_reliable (by rw [hstep']; rfl)
  have hw' : w₁.step (esp w₁ m') m' = _ := step_world hstep'
  generalize w₁.step (esp w₁ m') m' = w₂ at hserve' hw'
  refine ⟨_, w₂, authenticate_gives hkey hretries hu hc (esp w m).length_fillRandom
    (by rw [← hnonce]; rfl) (by rw [hm]; exact hserve) (by rw [hproof, hm']; exact hserve'),
    ⟨?_, ?_, ?_, ?_⟩, ?_, rfl, by rw [hw', hw]; rfl⟩
  · rw [hw', hw]
    subst hm
    rfl
  · rw [hw', hw]
    exact hr
  · rw [hw']
    rfl
  · rw [hw', hw]
    rfl
  · have hlast : m'.isChallenge = false := by
      rw [← hm', ← hproof]
      simp [Packet.isChallenge, frame, hc, authNonceSize]
    rw [hw', hw]
    cases hb : m.isChallenge <;>
      simp [challenges, Event.isChallenge, hlast, hb]

theorem sent_last {w : World β} {e : EspIdf β} {m r : Packet β}
    (h : sent (w.device.step e m).2 = [r]) : (sent (w.step e m).trace).getLast? = some r := by
  simp [World.step, h]

/-- A protected request is not a challenge. -/
theorem challenges_tagged {key : List β} {c : Command} (hp : c.isProtected = true) (n : UInt16)
    (payload : List β) (w : World β) (e : EspIdf β) :
    challenges (w.step e (tagged key c n payload)).trace = challenges w.trace := by
  have hchallenge : (tagged key c n payload).isChallenge = false := by
    cases c <;> first | rfl | exact absurd hp (by decide)
  have h := challenges_step hchallenge w.device e
  rw [challenges] at h
  rw [World.step, challenges, List.countP_append, h, Nat.add_zero, challenges]

/-- The packet of the device that verified response `r` to `c` was made of. -/
def withTag (key : List β) (c : Command) (r : Packet β) : Packet β :=
  { r with payload := r.payload ++ responseTag key c.code r.command r.sequence r.payload }

/-- **A verified response.** The call ends with what the device has sent last, without its
tag, which was made with the key of the client; `n` challenges have arrived until then. -/
def Heals (p : HostPartner β (World β)) (x : HostTask β (Packet β)) (c : Command)
    (u : HostState β) (w : World β) (n : ℕ) : Prop :=
  ∃ (r : Packet β) (u' : HostState β) (w' : World β) (key : List β),
    x.Gives p u w (.ok r) (u'.finished c r) w' ∧ u'.sessionKey = some key ∧
      (sent w'.trace).getLast? = some (withTag key c r) ∧
      challenges w'.trace ≤ n

/-- A request of a session that has just begun ends the call. -/
theorem requestOnce_fresh {cfg : HostConfig β} {c : Command} {payload : List β} {u : HostState β}
    {again : Option (HostTask β (Packet β))} (h : Fresh u w) (hg : cfg.guards c = true)
    (hp : c.isProtected = true) (hretries : 0 < cfg.retries)
    (hl : payload.length + authTagSize ≤ protocolMaxPayload) :
    Heals (reliable nonce esp) (requestOnce cfg c payload again) c u w (challenges w.trace) := by
  obtain ⟨error, herror, hsent⟩ := answer_fresh (n := u.sequence + 1) h.required h.authenticated
    h.replayCache hp hl (esp w (tagged w.device.auth.sessionKey c (u.sequence + 1) payload))
  have hgives : (requestOnce cfg c payload again).Gives (reliable nonce esp) u w
      (.ok (frame (responseFor error) (u.sequence + 1) (statusPayload error))) _ _ :=
    requestOnce_gives hg hretries h.sessionKey hl (serve_reliable hsent) rfl
      (fun _ => isAuthRequired_of_ne herror _ _ _) rfl
  exact ⟨_, u.at (u.sequence + 1), _, _, hgives, h.sessionKey, sent_last hsent,
    Nat.le_of_eq (challenges_tagged hp _ _ _ _)⟩

/-- A handshake and the request after it. -/
theorem authenticate_then {cfg : HostConfig β} {c : Command} {payload : List β} {u : HostState β}
    {again : Option (HostTask β (Packet β))} (hkey : cfg.authKey = some w.device.auth.key)
    (hr : w.device.auth.required = true) (hu : u.authenticated = false)
    (hg : cfg.guards c = true) (hp : c.isProtected = true) (hretries : 0 < cfg.retries)
    (hl : payload.length + authTagSize ≤ protocolMaxPayload) :
    Heals (reliable nonce esp) (do authenticate cfg; requestOnce cfg c payload again) c u w
      (challenges w.trace + 1) := by
  obtain ⟨u', w', hauth, hfresh, hle, -⟩ :=
    @authenticate_reliable β _ nonce esp w cfg hkey hretries hr
    u hu
  obtain ⟨r, u'', w'', key, hgives, hsk, hlast, hle'⟩ := @requestOnce_fresh β _ nonce esp w' cfg c
    payload u' again hfresh hg hp hretries hl
  exact ⟨r, u'', w'', key, Task.Gives.bind hauth hgives, hsk, hlast, Nat.le_trans hle' hle⟩

end Heals

/-- The next protected call of a client that holds a session key or does not believe to be
authenticated, with a device whose cache is sound. -/
theorem request_heals {nonce : World Octet → Answer Octet .urandom}
    {esp : World Octet → Packet Octet → EspIdf Octet} {w : World Octet} {cfg : HostConfig Octet}
    {c : Command} {payload : List Octet} {t : HostState Octet} (ht : t.HasKey)
    (hsound : SoundCache w.device.auth) (hkey : cfg.authKey = some w.device.auth.key)
    (hr : w.device.auth.required = true) (hp : c.isProtected = true) (hretries : 0 < cfg.retries)
    (hl : payload.length + authTagSize ≤ protocolMaxPayload) :
    Heals (reliable nonce esp) (request cfg c payload) c t w (challenges w.trace + 1) := by
  have hg : cfg.guards c = true := by simp [HostConfig.guards, hkey, hp]
  unfold request authenticateFor
  rw [if_pos hg]
  by_cases ha : t.authenticated = true
  swap
  · exact authenticate_then hkey hr (by simpa using ha) hg hp hretries hl
  obtain ⟨key, hk⟩ := Option.ne_none_iff_exists'.mp (ht ha)
  have hskip : (authenticate cfg).Gives (reliable nonce esp) t w (.ok ()) t w :=
    authenticate_gives_authenticated ha
  obtain ⟨r, hsent, hseq, hanswer⟩ :=
    @answer_tagged key payload c (t.sequence + 1) w.device hsound hr
    hp (esp w (tagged key c (t.sequence + 1) payload))
  have hserve : (reliable nonce esp).serve w (tagged key c (t.sequence + 1) payload) = _ :=
    serve_reliable hsent
  rcases hanswer with hr' | ⟨error, herror, rfl⟩
  · -- The device demands a session, and gets one.
    have hdevice := required_run w.device [.packet (tagged key c (t.sequence + 1) payload)
      (esp w (tagged key c (t.sequence + 1) payload))]
    obtain ⟨r', u', w', key', hgives, hsk, hlast, hle⟩ := @authenticate_then Octet _ nonce esp
      (w.step (esp w _) (tagged key c (t.sequence + 1) payload)) cfg c payload
      { t.at (t.sequence + 1) with sessionKey := none, authenticated := false } none
      (by rw [hkey]; exact congrArg some hdevice.2.symm) (hdevice.1.trans hr) rfl hg hp hretries hl
    rw [challenges_tagged hp] at hle
    exact ⟨r', u', w', key', Task.Gives.bind hskip (requestOnce_again hg hretries hk hl hserve hseq
      hr' (Task.Gives.update_bind hgives)), hsk, hlast, hle⟩
  · -- The device shares the session of the client.
    refine ⟨frame (responseFor error) (t.sequence + 1) (statusPayload error), t.at (t.sequence + 1),
      _, key, Task.Gives.bind hskip ?_, hk, sent_last hsent,
      Nat.le_trans (Nat.le_of_eq (challenges_tagged hp _ _ _ _)) (Nat.le_succ _)⟩
    exact requestOnce_gives hg hretries hk hl hserve rfl
      (fun _ => isAuthRequired_of_ne herror _ _ _) rfl

/-- **Self-healing.** Whatever has happened to a client and to a device that requires
authentication under the same key, on a link without losses the next protected call returns
a response of the device whose tag was made with the key of the client's session, after at
most one handshake. -/
theorem session_heals {config : OtaLinkConfig Octet} {d₀ : Device Octet}
    (h₀ : otaLinkStartWithConfig config = some d₀) (hrequire : config.requireAuthentication = true)
    {cfg : HostConfig Octet} (hkey : cfg.authKey = config.authKey) (hretries : 0 < cfg.retries)
    (xs : List (Stimulus Octet)) {t : HostState Octet} (ht : HostState.Reachable cfg t)
    (nonce : World Octet → Answer Octet .urandom)
    (esp : World Octet → Packet Octet → EspIdf Octet) {c : Command} (hp : c.isProtected = true)
    {payload : List Octet} (hl : payload.length ≤ protocolMaxPayload - authTagSize) :
    Heals (reliable nonce esp) (request cfg c payload) c t ⟨(d₀.run xs).1, []⟩ 1 := by
  obtain ⟨hr, hk, -⟩ := otaLinkStartWithConfig_required h₀ hrequire
  obtain ⟨hreq, hkeys⟩ := required_run d₀ xs
  have hstart : SoundCache d₀.auth := by
    rw [← restarted_otaLinkStartWithConfig h₀]
    exact soundCache_empty rfl
  have hmin : authTagSize ≤ protocolMaxPayload := by decide
  exact request_heals ht.hasKey (soundCache_run hstart xs) (by rw [hkey, hk, hkeys])
    (hreq.trans hr) hp hretries (by omega)

/-- A client just opened, and a device that holds the session of an earlier handshake. -/
theorem session_heals_abort :
    Heals (reliable (fun _ => ⟨sampleClientNonce, length_sampleClientNonce⟩) fun _ _ => sampleEsp)
      (request ⟨2, some (pskOctets 1)⟩ .otaAbort []) .otaAbort (.opened 0)
      ⟨(lockedDevice.run handshake).1, []⟩ 1 :=
  @session_heals ⟨some (pskOctets 1), true⟩ lockedDevice rfl rfl _ rfl (by decide) handshake _
    (.opened 0) _ _ _ rfl _ (by decide)

end OtaLink
