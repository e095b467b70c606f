import OtaLink.Consecutive
import OtaLink.LateResponse

/-!
# Lost acknowledgments with a key

In a session the device answers a copy of the last request from its cache, so any response may be
lost, also those to `OTA_BEGIN`, `OTA_END` and `OTA_ABORT`, whose second execution would be
refused. An update of a client with the key of the device then succeeds in every run in which
each request is answered within the retries and the device handles each challenge once.

## Main definitions

* `Policy.keyed` — these runs.
* `Attends` — the device is in the session, and copies of the last packet change nothing.
* `exchange_tagged` — one protected request is executed once and acknowledged.
* `keyed_update_succeeds` — no loss makes the update fail.
-/

namespace OtaLink
open Lib

variable {β : Type} [Alphabet β]

/-- Each request is answered within the retries of the client, and no copy of a challenge reaches
the device after the first; anything else may be lost, and come late. -/
def Policy.keyed (cfg : HostConfig β) : Policy (Packet β) (World β) :=
  { Policy.prompt with expire := fun n => decide (n + 1 < cfg.retries) }

/-- What stays true while the device only answers copies. -/
def Lasting (P : World β → Prop) : Prop :=
  ∀ w events, P w → P ⟨w.device, w.trace ++ events⟩

/-- The device is in the session with this key, the requests were numbered up to that of `o`, and
copies of `o` change nothing. -/
structure Attends (key : List β) (P : World β → Prop) (o : Packet β) (w : World β) : Prop where
  held : Holding key w.device.auth
  upTo : UpTo o.sequence w.device.auth
  settled : ∀ esp, (w.device.step esp o).1 = w.device
  holds : P w

/-- Moreover, every copy of `m` gets the response `r`, as those in `mine` did. -/
structure Echoes (key : List β) (P : World β → Prop) (m r : Packet β)
    (mine : List (Reply (Packet β) (World β))) (w : World β) : Prop where
  attends : Attends key P m w
  answer : ∀ esp, sent (w.device.step esp m).2 = [r]
  replies : ∀ q ∈ mine, q.response = r

section Serves
variable {key : List β} {P : World β → Prop} {o m r r' : Packet β} {w w' : World β}
  {allowed : EspIdf β → Bool} {mine : List (Reply (Packet β) (World β))}

theorem Attends.serves (h : Attends key P o w) (hP : Lasting P)
    (hs : (deviceServer false allowed).Serves w o r w') :
    w'.device = w.device ∧ Attends key P o w' := by
  obtain ⟨esp, -, -, rfl⟩ := serves_iff.mp hs
  have hstep : w.step esp o = ⟨w.device, w.trace ++ (w.device.step esp o).2⟩ := by
    rw [World.step, h.settled esp]
  rw [hstep]
  exact ⟨rfl, h.held, h.upTo, h.settled, hP _ _ h.holds⟩

/-- A copy is answered as the first. -/
theorem Echoes.serves (h : Echoes key P m r mine w) (hP : Lasting P)
    (hs : (deviceServer false allowed).Serves w m r' w') :
    Echoes key P m r (mine ++ [⟨m, r', w⟩]) w' := by
  obtain ⟨hdevice, hattends⟩ := h.attends.serves hP hs
  obtain ⟨esp, -, hsent, -⟩ := serves_iff.mp hs
  refine ⟨hattends, fun esp => hdevice ▸ h.answer esp, fun q hq => ?_⟩
  rcases List.mem_append.mp hq with hq | hq
  · exact h.replies q hq
  · rw [List.mem_singleton.mp hq]
    rw [h.answer esp] at hsent
    exact (List.cons.inj hsent).1.symm

theorem Echoes.lose {xs ys : List (Reply (Packet β) (World β))} {x : Reply (Packet β) (World β)}
    (h : Echoes key P m r (xs ++ x :: ys) w) : Echoes key P m r (xs ++ ys) w :=
  ⟨h.attends, h.answer, fun q hq => h.replies q (by simp at hq ⊢; tauto)⟩

end Serves

section Exchange
variable {f key payload : List β} {cfg : HostConfig β} {P Next : World β → Prop} {c : Command}
  {o : Packet β}

/-- **The exchange of a protected request.** The first copy is executed, and all copies are
acknowledged. -/
theorem exchange_tagged (hP : Lasting P) (hNext : Lasting Next) (hp : c.isProtected = true)
    (hc : c ≠ .reboot ∧ c ≠ .rollback) (hl : payload.length + authTagSize ≤ protocolMaxPayload)
    (hrun : ∀ w esp, esp.takes f = true → P w →
      (execute esp w.device.ota c (o.sequence + 1) payload).error = .ok ∧ ∀ d events,
        d.ota = (execute esp w.device.ota c (o.sequence + 1) payload).ota →
        (execute esp w.device.ota c (o.sequence + 1) payload).before ⊆ events →
        Next ⟨d, w.trace ++ events⟩) :
    Exchange Packet.sequence (deviceServer false (EspIdf.takes f)) (Policy.keyed cfg) o
      (tagged key c (o.sequence + 1) payload) (Attends key P o)
      (Echoes key Next (tagged key c (o.sequence + 1) payload)
        (signed key c (o.sequence + 1) .ok)) where
  tag_ne := sequence_ne _
  old h _ hs := (h.serves hP hs).2
  tick _ ht := not_tick ht
  first {w r w'} h _ hs := by
    obtain ⟨esp, he, hsent, rfl⟩ := serves_iff.mp hs
    obtain ⟨hok, hnext⟩ := hrun w esp he h.holds
    obtain ⟨d', hstep, hota, hheld, hupTo, hcopy⟩ := h.held.step_next h.upTo hp hc hl esp rfl
    rw [hok] at hstep hcopy
    have hw := step_world hstep
    have hdevice : (w.step esp (tagged key c (o.sequence + 1) payload)).device = d' := by rw [hw]
    have hanswer : ∀ esp, sent (d'.step esp (tagged key c (o.sequence + 1) payload)).2 =
        [signed key c (o.sequence + 1) .ok] := by
      intro esp
      rw [hcopy esp]
      simp [Event.sent?]
    refine ⟨⟨?_, ?_, ?_, ?_⟩, ?_, ?_⟩
    · rwa [hdevice]
    · rwa [hdevice]
    · rw [hdevice]
      intro esp
      rw [hcopy esp]
    · rw [hw]
      exact hnext _ _ hota fun e he => by simp [he]
    · rwa [hdevice]
    · intro q hq
      rw [List.mem_singleton.mp hq]
      rw [hstep] at hsent
      have hcalls := sent_of_isCall (isCall_of_execute esp w.device.ota payload c (o.sequence + 1))
      simpa [hcalls, Event.sent?] using hsent.symm
  again h _ hs := h.serves hNext hs
  tick' _ ht := not_tick ht
  lose h _ := h.lose

end Exchange

/-! ## The client -/

section Client
variable {f : List β} {cfg : HostConfig β}

/-- The client's side of such a link. -/
abbrev keyedEnv (f : List β) (cfg : HostConfig β) :
    Env Ask (Answer β) (Packet β) (Link (Packet β) (World β)) :=
  linkEnv false (EspIdf.takes f) (Policy.keyed cfg)

omit [Alphabet β] in
theorem not_givesUp [Alphabet β] (hretries : 0 < cfg.retries) :
    ¬GivesUp (Policy.keyed cfg) cfg := by
  intro hgives
  have h := hgives (cfg.retries - 1) (by omega)
  simp [Policy.keyed] at h
  omega

/-- The client has the session of the device, which is such that `P`. -/
def Attending (P : World β → Prop) (t : HostState β) (L : Link (Packet β) (World β)) : Prop :=
  ∃ (key : List β) (u : HostState β) (o : Packet β), u.authenticated = true ∧
    u.sessionKey = some key ∧ t = u.at o.sequence ∧ Idle Packet.sequence o L ∧
    Attends key P o L.server

end Client

/-! ## The handshake -/

/-- No OTA session is open on the device. -/
def Vacant (w : World β) : Prop := w.device.ota.active = false

/-- The device has the key, and has not received a packet with this number. -/
structure Awaiting (psk : List β) (n : UInt16) (w : World β) : Prop where
  required : w.device.auth.required = true
  key : w.device.auth.key = psk
  vacant : Vacant w
  unseen : ∀ q, .receive q ∈ w.trace → q.sequence ≠ n

/-- The device has drawn the second nonce, and waits for the proof. -/
structure Challenged (psk clientNonce serverNonce : List β) (w : World β) : Prop where
  required : w.device.auth.required = true
  key : w.device.auth.key = psk
  pending : w.device.auth.pending = true
  sessionKey : w.device.auth.sessionKey = sessionKeyOf psk clientNonce serverNonce
  clientNonce : w.device.auth.clientNonce = clientNonce
  serverNonce : w.device.auth.serverNonce = serverNonce
  replayCache : w.device.auth.replayCache = .empty 8
  vacant : Vacant w

/-- The response to a challenge. -/
def challengeReply (psk clientNonce serverNonce : List β) (n : UInt16) : Packet β :=
  frame .ack n (statusPayload .ok ++ serverNonce ++ deviceProofOf psk clientNonce serverNonce)

/-- The device has received the challenge, and all responses to it on the link carry its nonce. -/
def ChallengedOnce (psk clientNonce : List β) (n : UInt16)
    (mine : List (Reply (Packet β) (World β))) (w : World β) : Prop :=
  .receive (frame .auth n clientNonce) ∈ w.trace ∧ ∃ serverNonce,
    serverNonce.length = authNonceSize ∧ Challenged psk clientNonce serverNonce w ∧
    ∀ q ∈ mine, q.response = challengeReply psk clientNonce serverNonce n

/-- What the client reads in the response. -/
theorem challengeReply_payload {psk clientNonce serverNonce : List β} {n : UInt16}
    (hs : serverNonce.length = authNonceSize) :
    (challengeReply psk clientNonce serverNonce n).payload.length =
        1 + authNonceSize + authTagSize ∧
      ((challengeReply psk clientNonce serverNonce n).payload.drop 1).take authNonceSize =
        serverNonce ∧
      (challengeReply psk clientNonce serverNonce n).payload.drop (1 + authNonceSize) =
        deviceProofOf psk clientNonce serverNonce := by
  have hpayload : (challengeReply psk clientNonce serverNonce n).payload =
      ofByte ProtocolError.ok.code :: (serverNonce ++ deviceProofOf psk clientNonce serverNonce) :=
    rfl
  rw [hpayload]
  refine ⟨?_, ?_, ?_⟩
  · simp only [List.length_cons, List.length_append, hs, length_deviceProofOf, authTagSize]
    omega
  · rw [List.drop_one, List.tail_cons, ← hs, List.take_left]
  · rw [Nat.add_comm, List.drop_succ_cons, ← hs, List.drop_left]

@[simp] theorem ensureAck_challengeReply (psk clientNonce serverNonce : List β) (n : UInt16)
    (context : Context) :
    ensureAck (challengeReply psk clientNonce serverNonce n) context = pure () := by
  simp [ensureAck, challengeReply, frame, statusPayload]

section Handshake
variable {f psk clientNonce serverNonce : List β} {cfg : HostConfig β} {old : Packet β}
  {n : UInt16}

/-- Where a ping is in flight, nothing changes. -/
theorem Awaiting.serves_ping {w w' : World β} {r : Packet β} {allowed : EspIdf β → Bool}
    (h : Awaiting psk (n + 1) w)
    (hs : (deviceServer false allowed).Serves w (frame .ping n []) r w') :
    Awaiting psk (n + 1) w' := by
  obtain ⟨esp, -, -, rfl⟩ := serves_iff.mp hs
  rw [step_world (step_ping w.device esp n)]
  refine ⟨h.required, h.key, h.vacant, fun q hq => ?_⟩
  rcases List.mem_append.mp hq with hq | hq
  · exact h.unseen q hq
  · obtain rfl : q = frame .ping n [] := by simpa using hq
    exact sequence_ne n

theorem challenge_keyed (hn : clientNonce.length = authNonceSize) :
    Exchange Packet.sequence (deviceServer false (EspIdf.takes f)) (Policy.keyed cfg)
      (frame .ping n []) (frame .auth (n + 1) clientNonce) (Awaiting psk (n + 1))
      (ChallengedOnce psk clientNonce (n + 1)) where
  tag_ne := sequence_ne n
  old h _ hs := h.serves_ping hs
  tick _ ht := not_tick ht
  first {w r w'} h _ hs := by
    obtain ⟨esp, -, hsent, rfl⟩ := serves_iff.mp hs
    have hstep := step_challenge h.required (n + 1) hn esp
    rw [step_world hstep]
    rw [hstep] at hsent
    refine ⟨by simp, esp.fillRandom, esp.length_fillRandom, ⟨h.required, h.key, rfl, ?_, rfl, rfl,
      rfl, h.vacant⟩, fun q hq => ?_⟩
    · rw [← h.key]
      rfl
    · rw [List.mem_singleton.mp hq]
      rw [challengeReply, ← h.key]
      simpa [Event.sent?] using hsent.symm
  again h hp _ := by
    rw [show (Policy.keyed cfg).deliver = Policy.prompt.deliver from rfl,
      deliver_of_received hn h.1] at hp
    cases hp
  tick' _ ht := not_tick ht
  lose h _ := ⟨h.1, h.2.imp fun sn h => ⟨h.1, h.2.1, fun q hq =>
    h.2.2 q (by simp at hq ⊢; tauto)⟩⟩

theorem proof_keyed (hn : clientNonce.length = authNonceSize) :
    Exchange Packet.sequence (deviceServer false (EspIdf.takes f)) (Policy.keyed cfg)
      (frame .auth n clientNonce)
      (frame .auth (n + 1) (clientNonce ++ authProofOf psk clientNonce serverNonce))
      (fun w => .receive (frame .auth n clientNonce) ∈ w.trace ∧
        Challenged psk clientNonce serverNonce w)
      (Echoes (sessionKeyOf psk clientNonce serverNonce) Vacant
        (frame .auth (n + 1) (clientNonce ++ authProofOf psk clientNonce serverNonce))
        (ackFrame (n + 1))) where
  tag_ne := sequence_ne n
  old h hp _ := by
    rw [show (Policy.keyed cfg).deliver = Policy.prompt.deliver from rfl,
      deliver_of_received hn h.1] at hp
    cases hp
  tick _ ht := not_tick ht
  first {w r w'} h _ hs := by
    obtain ⟨-, h⟩ := h
    obtain ⟨esp, -, hsent, rfl⟩ := serves_iff.mp hs
    generalize hproof : clientNonce ++ authProofOf psk clientNonce serverNonce = proof at hsent ⊢
    have hpay : proof = w.device.auth.clientNonce ++ authProofOf w.device.auth.key
        w.device.auth.clientNonce w.device.auth.serverNonce := by
      rw [h.key, h.clientNonce, h.serverNonce, hproof]
    have hstep := step_accept h.required h.pending (n + 1) proof hpay esp
    -- A copy of the proof is accepted again.
    have hcopy : ∀ esp, w.device.proved.step esp (frame .auth (n + 1) proof) = (w.device.proved,
        [.receive (frame .auth (n + 1) proof), .send (ackFrame (n + 1))]) := fun esp =>
      step_of_send (@handle_proof β _ w.device.proved esp (frame .auth (n + 1) proof) rfl rfl
        h.required (.inr rfl) hpay)
    rw [step_world hstep]
    rw [hstep] at hsent
    refine ⟨⟨⟨h.required, rfl, h.sessionKey⟩, upTo_empty h.replayCache _, fun esp => ?_, h.vacant⟩,
      fun esp => ?_, fun q hq => ?_⟩
    · rw [hcopy esp]
    · rw [hcopy esp]
      simp [Event.sent?]
    · rw [List.mem_singleton.mp hq]
      simpa [Event.sent?] using hsent.symm
  again h _ hs := h.serves (fun _ _ h => h) hs
  tick' _ ht := not_tick ht
  lose h _ := h.lose

/-- The proof is accepted, and begins the session. -/
theorem prove_keyed (hn : clientNonce.length = authNonceSize) (hretries : 0 < cfg.retries)
    (v : HostState β) :
    Task.Spec (keyedEnv f cfg) (fun _ => True)
      (fun t L => t = v.at n ∧ Idle Packet.sequence (frame .auth n clientNonce) L ∧
        .receive (frame .auth n clientNonce) ∈ L.server.trace ∧
        Challenged psk clientNonce serverNonce L.server)
      (do
        let response ← requestUnprotected cfg .auth
          (clientNonce ++ authProofOf psk clientNonce serverNonce)
        ensureAck response .authProof
        Task.update fun t => { t with authenticated := true })
      (fun _ t L => ∃ o : Packet β, t = { v.at o.sequence with authenticated := true } ∧
        Idle Packet.sequence o L ∧
        Attends (sessionKeyOf psk clientNonce serverNonce) Vacant o L.server)
      (fun _ _ _ => False) := by
  have hlen : (clientNonce ++ authProofOf psk clientNonce serverNonce).length ≤
      protocolMaxPayload := by
    rw [List.length_append, hn, length_authProofOf]
    decide
  refine Task.Spec.bind (requestUnprotected_link v hlen (@proof_keyed _ _ _ _ _ serverNonce _ n hn)
    (fun _ _ => trivial) fun _ _ hgives => absurd hgives (not_givesUp hretries)) fun response => ?_
  rintro t L ⟨rfl, -, q, rfl, htaken⟩
  rw [htaken.after.replies q List.mem_cons_self, ensureAck_ackFrame]
  exact ⟨_, rfl, htaken.idle, htaken.after.attends⟩

/-- **The handshake succeeds.** -/
theorem authenticate_keyed (hkey : cfg.authKey = some psk) (hretries : 0 < cfg.retries)
    {u : HostState β} (hu : u.authenticated = false) :
    Task.Spec (keyedEnv f cfg) (fun _ => True)
      (fun t L => t = u ∧ Idle Packet.sequence (frame .ping u.sequence []) L ∧
        Awaiting psk (u.sequence + 1) L.server) (authenticate cfg)
      (fun _ => Attending Vacant) (fun _ _ _ => False) := by
  rw [authenticate_eq]
  rw [hkey]
  refine Task.Spec.read_bind fun t₀ => Task.Spec.ite (fun ha => ?_) fun _ => ?_
  · rintro t L ⟨-, rfl, -⟩
    rw [hu] at ha
    cases ha
  have hask : Task.Spec (keyedEnv f cfg) (fun _ => True)
      (fun t L => t = t₀ ∧ t₀ = u ∧ Idle Packet.sequence (frame .ping u.sequence []) L ∧
        Awaiting psk (u.sequence + 1) L.server)
      (Task.ask Ask.urandom) (fun (_ : Answer β .urandom) t L => t = u.at u.sequence ∧
        Idle Packet.sequence (frame .ping u.sequence []) L ∧
        Awaiting psk (u.sequence + 1) L.server) (fun (_ : HostError) _ _ => False) := by
    refine Task.Spec.ask ?_ (fun _ _ _ => trivial) ?_
    · rintro t L L' hmove ⟨ht, hu, hidle, h⟩
      obtain ⟨hidle', h'⟩ := hidle.move (fun (h : Awaiting psk (u.sequence + 1) _) _ hs =>
        h.serves_ping hs) (fun _ ht => not_tick ht) sequence_of_serves h hmove
      exact ⟨ht, hu, hidle', h'⟩
    · rintro t L a L' ⟨rfl, rfl, h⟩ rfl
      exact ⟨rfl, h⟩
  refine Task.Spec.bind hask ?_
  rintro ⟨clientNonce, hn⟩
  refine Task.Spec.bind (requestUnprotected_link u (by rw [hn]; decide) (challenge_keyed hn)
    (fun _ _ => trivial) fun _ _ hgives => absurd hgives (not_givesUp hretries)) fun challenge => ?_
  -- The device holds the nonce that the response carries.
  refine Task.Spec.pre (P := fun t L => ∃ serverNonce, serverNonce.length = authNonceSize ∧
    challenge = challengeReply psk clientNonce serverNonce (u.sequence + 1) ∧
    t = u.at (u.sequence + 1) ∧ Idle Packet.sequence (frame .auth (u.sequence + 1) clientNonce) L ∧
    .receive (frame .auth (u.sequence + 1) clientNonce) ∈ L.server.trace ∧
    Challenged psk clientNonce serverNonce L.server) ?_ ?_
  swap
  · rintro t L ⟨rfl, -, q, rfl, htaken⟩
    obtain ⟨hreceived, serverNonce, hs, hdrawn, hreplies⟩ := htaken.after
    exact ⟨serverNonce, hs, hreplies q List.mem_cons_self, rfl, htaken.idle, hreceived, hdrawn⟩
  rintro t L ⟨serverNonce, hs, rfl, rfl, hidle, hreceived, hdrawn⟩
  obtain ⟨hlen, hnonce, hproof⟩ := @challengeReply_payload _ _ psk clientNonce
    serverNonce (u.sequence + 1) hs
  have hack : (challengeReply psk clientNonce serverNonce (u.sequence + 1)).command =
    Command.ack.code := rfl
  have hprove := @prove_keyed β _ f psk clientNonce serverNonce cfg (u.sequence + 1) hn hretries
    { u with sessionKey := some (sessionKeyOf psk clientNonce serverNonce) }
  have hupdate : Task.Spec (keyedEnv f cfg) (fun _ => True)
      (fun t L => t = u.at (u.sequence + 1) ∧
        Idle Packet.sequence (frame .auth (u.sequence + 1) clientNonce) L ∧
        .receive (frame .auth (u.sequence + 1) clientNonce) ∈ L.server.trace ∧
        Challenged psk clientNonce serverNonce L.server)
      (Task.update (fun t : HostState β =>
        { t with sessionKey := some (sessionKeyOf psk clientNonce serverNonce) }) >>= fun _ => do
          let response ← requestUnprotected cfg .auth
            (clientNonce ++ authProofOf psk clientNonce serverNonce)
          ensureAck response .authProof
          Task.update fun t => { t with authenticated := true })
      (fun _ => Attending Vacant) (fun _ _ _ => False) := by
    refine Task.Spec.update_bind (hprove.consequence ?_ ?_ fun _ _ _ h => h)
    · rintro t L ⟨_, rfl, rfl, h⟩
      exact ⟨rfl, h⟩
    · rintro _ t L ⟨o, rfl, hidle, hattends⟩
      exact ⟨_, { u with
        sessionKey := some (sessionKeyOf psk clientNonce serverNonce)
        authenticated := true }, o, rfl, rfl, rfl, hidle, hattends⟩
  rw [if_neg (by simp [hlen, hack])]
  simp only [hnonce, hproof, ensureAck_challengeReply, ne_eq, not_true_eq_false, if_false]
  exact hupdate _ _ ⟨rfl, hidle, hreceived, hdrawn⟩

end Handshake
/-! ## A call -/

section Call
variable {f key payload : List β} {cfg : HostConfig β} {P Next : World β → Prop} {c : Command}
  {o : Packet β}

/-- The verified response to an executed request. -/
theorem strip_signed (hg : cfg.guards c = true) (n : UInt16) :
    cfg.strip c (signed key c n .ok) = ackFrame n := by
  have htake : (statusPayload .ok ++ responseTag key c.code (responseFor .ok).code n
      (statusPayload .ok) : List β).take
        ((statusPayload .ok ++ responseTag key c.code (responseFor .ok).code n
          (statusPayload .ok) : List β).length - authTagSize) = statusPayload .ok := by
    simp [authTagSize]
  rw [HostConfig.strip, if_pos hg]
  exact congrArg (frame .ack n) htake

/-- **A request in the session** is acknowledged. -/
theorem requestOnce_keyed_spec (hretries : 0 < cfg.retries) (hg : cfg.guards c = true)
    (hc : c ≠ .reboot ∧ c ≠ .rollback) (hl : payload.length + authTagSize ≤ protocolMaxPayload)
    (again : Option (HostTask β (Packet β))) {u : HostState β} (hk : u.sessionKey = some key)
    (H : Exchange Packet.sequence (deviceServer false (EspIdf.takes f)) (Policy.keyed cfg) o
      (tagged key c (o.sequence + 1) payload) (Attends key P o)
      (Echoes key Next (tagged key c (o.sequence + 1) payload)
        (signed key c (o.sequence + 1) .ok))) :
    Task.Spec (keyedEnv f cfg) (fun _ => True)
      (fun t L => t = u.at o.sequence ∧ Idle Packet.sequence o L ∧ Attends key P o L.server)
      (requestOnce cfg c payload again)
      (fun r t L => r = ackFrame (o.sequence + 1) ∧ t = u.at (o.sequence + 1) ∧
        Idle Packet.sequence (tagged key c (o.sequence + 1) payload) L ∧
        Attends key Next (tagged key c (o.sequence + 1) payload) L.server)
      (fun _ _ _ => False) := by
  have hcall : callPacket cfg u c (o.sequence + 1) payload =
      tagged key c (o.sequence + 1) payload := callPacket_guarded hg hk _
  refine requestOnce_rule u (n := o.sequence) (A := Accepted (Policy.keyed cfg)
    (tagged key c (o.sequence + 1) payload) (Echoes key Next
      (tagged key c (o.sequence + 1) payload) (signed key c (o.sequence + 1) .ok)))
    (by rw [if_pos hg]; exact hl) ?_ ?_ ?_ ?_ ?_
  · intro _ hnone
    rw [hk] at hnone
    cases hnone
  · intro _
    rw [hcall]
    exact requestPacket_link _ H (fun _ _ => trivial) fun _ _ hgives =>
      absurd hgives (not_givesUp hretries)
  · rintro - e r L ⟨-, q, rfl, htaken⟩ hv -
    rw [htaken.after.replies q List.mem_cons_self] at hv
    refine hv fun _ => ⟨key, hk, ?_⟩
    rw [strip_signed hg]
    rfl
  · rintro task - r - hr
    refine Task.Spec.pre (P := fun _ _ => False) (fun _ _ h => h.elim) ?_
    rintro t L ⟨-, -, q, rfl, htaken⟩
    rw [htaken.after.replies q List.mem_cons_self] at hr
    simp [isAuthRequired, signed, frame, responseFor] at hr
  · rintro r t L ht ⟨-, q, rfl, htaken⟩ -
    have hresponse := htaken.after.replies q List.mem_cons_self
    refine ⟨by rw [hresponse, strip_signed hg], ?_, htaken.idle, htaken.after.attends⟩
    rcases ht with rfl | ⟨hreboot, -⟩
    · rfl
    · exact absurd hreboot (by simp [hc.1, hc.2])

/-- A command that the device executes succeeds, after a handshake or without one. -/
theorem runCommand_keyed (hretries : 0 < cfg.retries) (hg : cfg.guards c = true)
    (hc : c ≠ .reboot ∧ c ≠ .rollback) (hl : payload.length + authTagSize ≤ protocolMaxPayload)
    (context : Context) {Pre : HostState β → Link (Packet β) (World β) → Prop}
    (hauth : Task.Spec (keyedEnv f cfg) (fun _ => True) Pre (authenticate cfg)
      (fun _ => Attending P) (fun _ _ _ => False)) (hP : Lasting P) (hNext : Lasting Next)
    (hrun : ∀ n w esp, esp.takes f = true → P w →
      (execute esp w.device.ota c n payload).error = .ok ∧ ∀ d events,
        d.ota = (execute esp w.device.ota c n payload).ota →
        (execute esp w.device.ota c n payload).before ⊆ events → Next ⟨d, w.trace ++ events⟩) :
    Task.Spec (keyedEnv f cfg) (fun _ => True) Pre (runCommand cfg c payload context)
      (fun _ => Attending Next) (fun _ _ _ => False) := by
  have hp : c.isProtected = true := by
    simp only [HostConfig.guards, Bool.and_eq_true] at hg
    exact hg.2
  have honce : ∀ again, Task.Spec (keyedEnv f cfg) (fun _ => True) (Attending P)
      (requestOnce cfg c payload again) (fun r t L => ∃ n, r = ackFrame n ∧ Attending Next t L)
      (fun _ _ _ => False) := by
    rintro again t L ⟨key, u, o, hu, hk, rfl, hidle, hattends⟩
    have hspec := requestOnce_keyed_spec hretries hg hc hl again hk
      (exchange_tagged (f := f) (o := o) hP hNext hp hc hl fun w esp => hrun _ w esp)
    have hend : Task.Spec (keyedEnv f cfg) (fun _ => True)
        (fun t L => t = u.at o.sequence ∧ Idle Packet.sequence o L ∧ Attends key P o L.server)
        (requestOnce cfg c payload again) (fun r t L => ∃ n, r = ackFrame n ∧ Attending Next t L)
        (fun _ _ _ => False) := by
      refine hspec.consequence (fun _ _ h => h) ?_ (fun _ _ _ h => h)
      rintro r t L ⟨rfl, rfl, hidle, hattends⟩
      exact ⟨_, rfl, key, u, _, hu, hk, rfl, hidle, hattends⟩
    exact hend _ _ ⟨rfl, hidle, hattends⟩
  have hrequest : Task.Spec (keyedEnv f cfg) (fun _ => True) Pre (request cfg c payload)
      (fun r t L => ∃ n, r = ackFrame n ∧ Attending Next t L) (fun _ _ _ => False) := by
    unfold request authenticateFor
    rw [if_pos hg]
    exact Task.Spec.bind hauth fun _ => honce _
  refine Task.Spec.bind (hrequest.handle fun _ _ _ h => h.elim) fun r => ?_
  rintro t L ⟨n, rfl, hattending⟩
  rw [ensureAck_ackFrame]
  exact hattending

/-- A client that has a session does not authenticate. -/
theorem authenticate_attending : Task.Spec (keyedEnv f cfg) (fun _ => True) (Attending P)
    (authenticate cfg) (fun _ => Attending P) (fun _ _ _ => False) := by
  rintro t L ⟨key, u, o, hu, hk, rfl, hidle, hattends⟩
  have hspec := @authenticate_authenticated β _ _ (keyedEnv f cfg) (fun _ => True) cfg
    (u.at o.sequence) (fun L => Idle Packet.sequence o L ∧ Attends key P o L.server) hu
  refine hspec.consequence (fun _ _ h => h) ?_ (fun _ _ _ h => h) _ _ ⟨rfl, hidle, hattends⟩
  rintro _ t L ⟨rfl, hidle, hattends⟩
  exact ⟨key, u, o, hu, hk, rfl, hidle, hattends⟩

end Call

/-! ## The update -/

section Update
variable {f psk : List β} {cfg : HostConfig β} (hkey : cfg.authKey = some psk)
  (hretries : 0 < cfg.retries) (hmin : 32 ≤ f.length) (hmax : f.length < 2 ^ 32)

/-- The device has taken the first `off` octets of the file. -/
def TakenUpTo (f : List β) (off : ℕ) (w : World β) : Prop := Receiving f off w.device.ota

omit [Alphabet β] in
theorem lasting_takenUpTo (off : ℕ) : Lasting (TakenUpTo f off) := fun _ _ h => h

omit [Alphabet β] in
theorem lasting_switched : Lasting (@Switched β) :=
  fun _ _ ⟨p, hp⟩ => ⟨p, List.mem_append_left _ hp⟩

include hkey hretries hmax

omit [Alphabet β] hretries hmax in
theorem guards_keyed {c : Command} (hp : c.isProtected = true) : cfg.guards c = true := by
  simp [HostConfig.guards, hkey, hp]

include hmin in
theorem runUpdateBegin_keyed {u : HostState β} (hu : u.authenticated = false) :
    Task.Spec (keyedEnv f cfg) (fun _ => True)
      (fun t L => t = u ∧ Idle Packet.sequence (frame .ping u.sequence []) L ∧
        Awaiting psk (u.sequence + 1) L.server)
      (runUpdateBegin cfg f) (fun _ => Attending (TakenUpTo f 0)) (fun _ _ _ => False) := by
  have hpayload : (buildOtaBeginPayload f.length (f.drop (f.length - 32)) : HostTask β (List β)) =
      pure (announcement f) := by
    rw [buildOtaBeginPayload, if_neg (by rw [List.length_drop]; omega)]
    rfl
  have hlen : (announcement f).length + authTagSize ≤ protocolMaxPayload := by
    simp only [announcement, List.length_append, length_le32, List.length_drop, authTagSize,
      protocolMaxPayload]
    omega
  unfold runUpdateBegin
  rw [if_neg (by omega), hpayload]
  exact runCommand_keyed hretries (guards_keyed hkey rfl) (by decide) hlen .otaBegin
    (authenticate_keyed hkey hretries hu) (fun _ _ h => h) (lasting_takenUpTo 0)
    fun n w esp he hv => by
      obtain ⟨hok, hrec⟩ := execute_begin (n := n) he hv hmin hmax
      exact ⟨hok, fun d _ hd _ => by rw [TakenUpTo, hd]; exact hrec⟩

/-- The loop sends the rest of the file. -/
theorem sendChunks_keyed (fuel : ℕ) : ∀ chunkNumber off, f.length < fuel + off → off ≤ f.length →
    chunkNumber ≤ off → Task.Spec (keyedEnv f cfg) (fun _ => True) (Attending (TakenUpTo f off))
      (sendChunks cfg fuel chunkNumber off (f.drop off)) (fun _ => Attending (TakenUpTo f f.length))
      (fun _ _ _ => False) := by
  induction fuel with
  | zero => omega
  | succ fuel ih =>
    intro chunkNumber off hfuel hoff hnumber
    have hsize : maxOtaChunkDataSize cfg = 1000 := by simp [maxOtaChunkDataSize, hkey]
    generalize hchunk : (f.drop off).take 1000 = chunk
    have hlen : chunk.length = min 1000 (f.length - off) := by
      rw [← hchunk, List.length_take, List.length_drop]
    simp only [sendChunks, hsize, hchunk]
    refine Task.Spec.ite (fun hnil => ?_) fun hne => ?_
    · have hend : off = f.length := by
        rw [hnil, List.length_nil] at hlen
        omega
      exact Task.Spec.pure fun t L h => hend ▸ h
    · have hpos := List.length_pos_iff.mpr hne
      have hpayload : (buildOtaDataPayload chunkNumber off chunk : HostTask β (List β)) =
          pure (le32 chunkNumber ++ le32 off ++ chunk) := by
        rw [buildOtaDataPayload, if_neg (by omega), if_neg (by omega), if_neg (by omega)]
      rw [hpayload, drop_chunk, hchunk]
      change Task.Spec _ _ _ (do
        runCommand cfg .otaData (le32 chunkNumber ++ le32 off ++ chunk) (.otaData chunkNumber off)
        sendChunks cfg fuel (chunkNumber + 1) (off + chunk.length) (f.drop (off + chunk.length)))
          _ _
      refine Task.Spec.bind (runCommand_keyed hretries (guards_keyed hkey rfl) (by decide) ?_ _
        authenticate_attending (lasting_takenUpTo off) (lasting_takenUpTo (off + chunk.length)) ?_)
        fun _ => ih (chunkNumber + 1) (off + chunk.length) (by omega) (by omega) (by omega)
      · simp only [List.length_append, length_le32, protocolMaxPayload, authTagSize]
        omega
      · intro n w esp he hrec
        have hchunk : chunk.length ≤ otaMaxChunkDataSize := by
          rw [otaMaxChunkDataSize]
          omega
        obtain ⟨hok, hota⟩ := execute_data n chunkNumber he hrec hne hchunk (by omega) hmax
        refine ⟨hok, fun d _ hd _ => ?_⟩
        rw [TakenUpTo, hd, hota]
        exact hrec.wrote (by omega) hmax

omit hmax in
theorem runUpdateEnd_keyed : Task.Spec (keyedEnv f cfg) (fun _ => True)
    (Attending (TakenUpTo f f.length)) (runUpdateEnd cfg) (fun _ => Attending Switched)
    (fun _ _ _ => False) := by
  refine runCommand_keyed hretries (guards_keyed hkey rfl) (by decide)
    (by simp [authTagSize, protocolMaxPayload]) .otaEnd
    authenticate_attending (lasting_takenUpTo f.length) lasting_switched fun n w esp he hrec => ?_
  obtain ⟨hok, -, hboot⟩ := execute_end (n := n) he hrec
  obtain ⟨p, hp⟩ := Option.ne_none_iff_exists'.mp hrec.partition
  rw [hp] at hboot
  exact ⟨hok, fun d events _ hevents => ⟨p, List.mem_append_right _ (hevents hboot)⟩⟩

end Update

/-- **Lost acknowledgments do not matter in a session.** Whatever response is lost or late, as long
as each request is answered within the retries and the device handles each challenge once, an
update of a client with the key of the device ends in success, with the boot partition switched. -/
theorem keyed_update_succeeds {cfg : HostConfig β} {d : Device β} {f : List β}
    (hkey : cfg.authKey = some d.auth.key) (hr : d.auth.required = true)
    (hs : d.ota.active = false) (hretries : 0 < cfg.retries) (hmin : 32 ≤ f.length)
    (hmax : f.length < 2 ^ 32) (n : UInt16) {r : Except HostError Unit} {t : HostState β}
    {L : Link (Packet β) (World β)}
    (h : (keyedEnv f cfg).Reaches (cmdUpdate cfg f (.opened n), .quiet ⟨d, []⟩) (.ret (r, t), L)) :
    r = .ok () ∧ Switched L.server := by
  have hspec : Task.Spec (keyedEnv f cfg) (fun _ => True)
      (fun t L => t = .opened n ∧ Idle Packet.sequence (frame .ping n []) L ∧
        Awaiting d.auth.key (n + 1) L.server)
      (cmdUpdate cfg f) (fun _ _ L => Switched L.server) (fun _ _ _ => False) := by
    refine Task.Spec.bind (runUpdateBegin_keyed hkey hretries hmin hmax rfl) fun _ => ?_
    refine Task.Spec.bind (sendChunks_keyed hkey hretries hmax (f.length + 1) 0 0 (by omega)
      (by omega) le_rfl) fun _ => ?_
    refine (runUpdateEnd_keyed hkey hretries).consequence (fun _ _ h => h) ?_ fun _ _ _ h => h
    rintro _ t L ⟨key, u, o, -, -, -, -, hattends⟩
    exact hattends.holds
  have hstart : Awaiting d.auth.key (n + 1) (⟨d, []⟩ : World β) :=
    ⟨hr, rfl, hs, fun q hq => by simp at hq⟩
  have hend := hspec.reaches (fun _ _ L L' hmove hswitched => ?_) (fun _ _ _ _ _ h => h)
    ⟨rfl, Idle.quiet _ _, hstart⟩ h
  · cases r with
    | ok => exact ⟨rfl, hend⟩
    | error e => exact hend.elim
  · cases hmove with
    | deliver _ hserve =>
      obtain ⟨esp, -, -, rfl⟩ := serves_iff.mp hserve
      exact hswitched.imp fun _ hp => List.mem_append_left _ hp
    | loseRequest => exact hswitched
    | loseReply => exact hswitched
    | tick ht => exact not_tick ht

/-- The responses to the `OTA_BEGIN` and to the `OTA_END` are lost. -/
theorem keyed_update_succeeds_lostOnce : ∃ t L,
    (keyedEnv sampleImage sampleHost).Reaches
      (cmdUpdate sampleHost sampleImage (.opened 0), .quiet ⟨lockedDevice, []⟩)
      (.ret (.ok (), t), L) ∧ Switched L.server := by
  obtain ⟨⟨p, L⟩, hr, hp⟩ := exists_reaches_of_play (deviceServer false (EspIdf.takes sampleImage))
    (Policy.keyed sampleHost) sampleAnswer
    (.proceed :: roundTrip ++ roundTrip ++ lostOnce ++ roundTrip ++ lostOnce)
    (cmdUpdate sampleHost sampleImage (.opened 0), .quiet ⟨lockedDevice, []⟩)
    (fun c => reportsSuccess c.1) (by decide +kernel)
  match p, hp with
  | .ret (.ok (), t), _ =>
    exact ⟨t, L, hr, (keyed_update_succeeds rfl rfl rfl (by decide) (by decide) (by decide) 0 hr).2⟩

end OtaLink
