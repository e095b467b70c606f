import OtaLink.AtMostOnce

/-!
# A handshake with late responses

The client sends a challenge again when its timer expires, and takes the first response
under its sequence number. The device draws a new nonce for every copy, and keeps the last.
So when the first response is late and not lost, the client computes its proof for a nonce
that the device has already replaced, and the device rejects it.

As long as no copy of the challenge reaches the device, the nonce of the client is the one
the device holds, and copies of the proof do no harm: the device acknowledges each of them.

## Main definitions

* `Current` — every proof on its way is the one the device waits for.
* `Policy.prompt` — the runs in which the device handles each challenge once.
* `handshake_prompt` — in these runs no proof is rejected.
-/

namespace OtaLink
open Lib

variable {β : Type} [Alphabet β]

omit [Alphabet β] in
/-- A packet that proves that the client holds the key. -/
def Packet.isProof (packet : Packet β) : Bool :=
  packet.command == Command.auth.code && packet.payload.length == authNonceSize + authTagSize

/-- Every proof on its way was computed for the nonces the device holds. -/
def Current (L : Link (Packet β) (World β)) : Prop :=
  ∀ q ∈ L.requests, q.isProof = true → q.payload = L.server.device.auth.clientNonce ++
    authProofOf L.server.device.auth.key L.server.device.auth.clientNonce
      L.server.device.auth.serverNonce

/-- No copy of a challenge reaches the device after the first. -/
def Policy.prompt : Policy (Packet β) (World β) where
  deliver w q := !(q.isChallenge && w.trace.contains (.receive q))
  lose _ := true
  accept _ _ := true
  expire _ := true

/-- The device waits for the proof of this nonce pair, or has accepted it. -/
structure Awaits (key clientNonce serverNonce : List β) (s : AuthState β) : Prop where
  key : s.key = key
  required : s.required = true
  live : s.pending = true ∨ s.authenticated = true
  client : s.clientNonce = clientNonce
  server : s.serverNonce = serverNonce

/-! ## What the device does -/

section Serves
variable {w w' : World β} {q r : Packet β} {key nonce serverNonce : List β} {n : UInt16}
  {allowed : EspIdf β → Bool}

theorem key_of_serves (hs : (deviceServer false allowed).Serves w q r w') :
    w'.device.auth.key = w.device.auth.key := by
  obtain ⟨esp, -, -, rfl⟩ := serves_iff.mp hs
  exact congrArg (fun d => d.auth.key) (restarted_step w.device esp q)

theorem mem_trace_of_serves (hs : (deviceServer false allowed).Serves w q r w') (p : Packet β) :
    .receive p ∈ w'.trace ↔ .receive p ∈ w.trace ∨ p = q := by
  obtain ⟨esp, -, -, rfl⟩ := serves_iff.mp hs
  simp only [World.step, List.mem_append]
  refine or_congr_right ⟨receive_of_mem_step, ?_⟩
  rintro rfl
  exact List.mem_cons_self

/-- A device that answers a challenge with an ACK has sent the nonce it now holds. -/
theorem awaits_of_serves (hn : nonce.length = authNonceSize)
    (hs : (deviceServer false allowed).Serves w (frame .auth n nonce) r w')
    (hack : r.command = Command.ack.code) :
    Awaits w.device.auth.key nonce ((r.payload.drop 1).take authNonceSize) w'.device.auth := by
  obtain ⟨esp, -, hsent, rfl⟩ := serves_iff.mp hs
  rw [sent_step] at hsent
  have hh := handle_cases w.device esp (frame .auth n nonce)
  generalize he : w.device.handle esp (frame .auth n nonce) = x at hh hsent
  cases hh with
  | status error hping =>
    obtain rfl : _ = r := by simpa [Event.sent?] using hsent
    have herror : error ≠ .ok := fun h => absurd (hping h) (show Command.auth.code ≠ _ by decide)
    rw [responseFor_of_ne herror] at hack
    exact absurd hack (show Command.nack.code ≠ _ by decide)
  | info hc => exact absurd hc (show Command.auth.code ≠ _ by decide)
  | challenge _ hr =>
    have hstep : (w.step esp (frame .auth n nonce)).device =
        w.device.challenged esp (frame .auth n nonce) hn := by
      rw [World.step, step_of_send he]
    rw [hstep]
    obtain rfl : _ = r := by simpa [Event.sent?] using hsent
    refine ⟨rfl, hr, .inl rfl, rfl, ?_⟩
    exact (List.take_left' esp.length_fillRandom).symm
  | proof _ _ _ hpay =>
    have hlen := congrArg List.length hpay
    simp [frame, hn, authNonceSize] at hlen
  | guarded c _ hc hp =>
    have hprotected := authCommandIsProtected_code c
    rw [← show Command.auth.code = c.code from hc, hp] at hprotected
    exact absurd hprotected (by decide)

/-- The proof of the pair is acknowledged, also when it comes again. -/
theorem ack_of_serves (h : Awaits key nonce serverNonce w.device.auth)
    (hs : (deviceServer false allowed).Serves w
      (frame .auth n (nonce ++ authProofOf key nonce serverNonce)) r w') :
    r = ackFrame n ∧ Awaits key nonce serverNonce w'.device.auth := by
  obtain ⟨esp, -, hsent, rfl⟩ := serves_iff.mp hs
  rw [sent_step] at hsent
  have hh := @handle_proof β _ w.device esp
    (frame .auth n (nonce ++ authProofOf key nonce serverNonce))
    rfl rfl h.required h.live (by rw [h.key, h.client, h.server]; rfl)
  rw [hh] at hsent
  have hstep : (w.step esp (frame .auth n (nonce ++ authProofOf key nonce serverNonce))).device =
      w.device.proved := by
    rw [World.step, step_of_send hh]
  rw [hstep]
  obtain rfl : _ = r := by simpa [Event.sent?] using hsent
  exact ⟨rfl, h.key, h.required, .inr rfl, h.client, h.server⟩

end Serves

/-! ## The two exchanges -/

section Exchanges
variable {key nonce serverNonce : List β} {n : UInt16} {old : Packet β}
  {allowed : EspIdf β → Bool}

/-- A device that has answered a challenge does not receive a copy of it. -/
theorem deliver_of_received {w : World β} (hn : nonce.length = authNonceSize)
    (h : .receive (frame .auth n nonce) ∈ w.trace) :
    Policy.prompt.deliver w (frame .auth n nonce) = false := by
  have hchallenge : (frame .auth n nonce).isChallenge = true := by
    simp [Packet.isChallenge, frame, hn]
  simp [Policy.prompt, hchallenge, h]

/-- The challenge is new to the device. -/
def NewChallenge (key : List β) (m : Packet β) (w : World β) : Prop :=
  w.device.auth.key = key ∧ .receive m ∉ w.trace

/-- The device has answered the challenge once, and not moved on. -/
def HandledOnce (key nonce : List β) (m : Packet β) (mine : List (Reply (Packet β) (World β)))
    (w : World β) : Prop :=
  .receive m ∈ w.trace ∧ ∀ x ∈ mine, x.response.command = Command.ack.code →
    Awaits key nonce ((x.response.payload.drop 1).take authNonceSize) w.device.auth

/-- Every answer to the proof is an acknowledgment. -/
def Acknowledged (key nonce serverNonce : List β) (n : UInt16)
    (mine : List (Reply (Packet β) (World β))) (w : World β) : Prop :=
  Awaits key nonce serverNonce w.device.auth ∧ ∀ x ∈ mine, x.response = ackFrame n

theorem challenge_exchange (hn : nonce.length = authNonceSize) (hold : old.sequence + 1 = n) :
    Exchange Packet.sequence (deviceServer false allowed) Policy.prompt old (frame .auth n nonce)
      (NewChallenge key (frame .auth n nonce)) (HandledOnce key nonce (frame .auth n nonce)) where
  tag_ne := by
    show old.sequence ≠ n
    rw [← hold]
    exact sequence_ne _
  old := by
    rintro w r w' ⟨hk, hnew⟩ - hs
    refine ⟨(key_of_serves hs).trans hk, fun h => ?_⟩
    rcases (mem_trace_of_serves hs _).mp h with h | h
    · exact hnew h
    · have hseq : n = old.sequence := congrArg Packet.sequence h
      exact sequence_ne old.sequence (hseq.symm.trans hold.symm)
  tick := fun _ ht => absurd (tick_iff.mp ht).1 (by simp)
  first := by
    rintro w r w' ⟨rfl, -⟩ - hs
    refine ⟨(mem_trace_of_serves hs _).mpr (.inr rfl), fun x hx => ?_⟩
    rw [List.mem_singleton.mp hx]
    exact awaits_of_serves hn hs
  again := by
    rintro mine w r w' ⟨hreceived, -⟩ hp -
    rw [deliver_of_received hn hreceived] at hp
    cases hp
  tick' := fun _ ht => absurd (tick_iff.mp ht).1 (by simp)
  lose := by
    rintro xs r ys w ⟨hreceived, h⟩ -
    exact ⟨hreceived, fun x hx => h x (by simp_all; tauto)⟩

theorem proof_exchange (hn : nonce.length = authNonceSize) :
    Exchange Packet.sequence (deviceServer false allowed) Policy.prompt (frame .auth n nonce)
      (frame .auth (n + 1) (nonce ++ authProofOf key nonce serverNonce))
      (fun w => .receive (frame .auth n nonce) ∈ w.trace ∧
        Awaits key nonce serverNonce w.device.auth)
      (Acknowledged key nonce serverNonce (n + 1)) where
  tag_ne := sequence_ne n
  old := by
    rintro w r w' ⟨hreceived, -⟩ hp -
    rw [deliver_of_received hn hreceived] at hp
    cases hp
  tick := fun _ ht => absurd (tick_iff.mp ht).1 (by simp)
  first := by
    rintro w r w' ⟨-, h⟩ - hs
    obtain ⟨hr, h'⟩ := ack_of_serves h hs
    refine ⟨h', fun x hx => ?_⟩
    rw [List.mem_singleton.mp hx]
    exact hr
  again := by
    rintro mine w r w' ⟨h, hmine⟩ - hs
    obtain ⟨hr, h'⟩ := ack_of_serves h hs
    refine ⟨h', fun x hx => ?_⟩
    rcases List.mem_append.mp hx with hx | hx
    · exact hmine x hx
    · rw [List.mem_singleton.mp hx]
      exact hr
  tick' := fun _ ht => absurd (tick_iff.mp ht).1 (by simp)
  lose := by
    rintro xs r ys w ⟨h, hmine⟩ -
    exact ⟨h, fun x hx => hmine x (by simp_all; tauto)⟩

omit [Alphabet β] in
/-- A challenge is not a proof. -/
theorem isProof_challenge (hn : nonce.length = authNonceSize) :
    (frame .auth n nonce).isProof = false := by
  simp [Packet.isProof, frame, hn, authNonceSize, authTagSize]

/-- While the challenge is in flight there is no proof on the link. -/
theorem current_of_challenge (hn : nonce.length = authNonceSize) (hold : old.isProof = false)
    {Before : World β → Prop} {After : List (Reply (Packet β) (World β)) → World β → Prop}
    {L : Link (Packet β) (World β)}
    (h : Flight Packet.sequence old (frame .auth n nonce) Before After L) : Current L := by
  obtain ⟨-, -, -, -, -, ⟨-, -, xs, ys, hreq, hxs, hys⟩ | ⟨hreq, -⟩⟩ := h
  · intro q hq hproof
    rw [hreq] at hq
    rcases List.mem_append.mp hq with hq | hq
    · rw [hxs q hq, hold] at hproof
      cases hproof
    · rw [hys q hq, isProof_challenge hn] at hproof
      cases hproof
  · intro q hq hproof
    rw [hreq q hq, isProof_challenge hn] at hproof
    cases hproof

theorem Awaits.proof {s : AuthState β} (h : Awaits key nonce serverNonce s) :
    nonce ++ authProofOf key nonce serverNonce =
      s.clientNonce ++ authProofOf s.key s.clientNonce s.serverNonce := by
  rw [h.key, h.client, h.server]

/-- While the proof is in flight the device holds the nonces it was computed for. -/
theorem current_of_proof (hn : nonce.length = authNonceSize) {L : Link (Packet β) (World β)}
    (h : Flight Packet.sequence (frame .auth n nonce)
      (frame .auth (n + 1) (nonce ++ authProofOf key nonce serverNonce))
      (fun w => .receive (frame .auth n nonce) ∈ w.trace ∧
        Awaits key nonce serverNonce w.device.auth)
      (Acknowledged key nonce serverNonce (n + 1)) L) : Current L := by
  obtain ⟨-, -, -, -, -, ⟨-, ⟨-, h⟩, xs, ys, hreq, hxs, hys⟩ | ⟨hreq, ⟨h, -⟩⟩⟩ := h
  · intro q hq hproof
    rw [hreq] at hq
    rcases List.mem_append.mp hq with hq | hq
    · rw [hxs q hq, isProof_challenge hn] at hproof
      cases hproof
    · rw [hys q hq]
      exact h.proof
  · intro q hq _
    rw [hreq q hq]
    exact h.proof

end Exchanges

/-! ## The handshake -/

section Handshake
variable {cfg : HostConfig β}

/-- The client of a prompt link. -/
abbrev promptEnv : Env Ask (Answer β) (Packet β) (Link (Packet β) (World β)) :=
  linkEnv false (fun _ => true) Policy.prompt

/-- How a handshake may fail: not by a rejected proof. -/
def NotRejected (e : HostError) (_ : HostState β) (L : Link (Packet β) (World β)) : Prop :=
  e ≠ .rejected .authProof ∧ promptEnv.Always Current L

/-- Nothing happens on a quiet link. -/
theorem not_move_quiet {w : World β} {L : Link (Packet β) (World β)}
    (h : Link.Move (deviceServer false fun _ => true) Policy.prompt (.quiet w) L) : False := by
  generalize hq : Link.quiet w = K at h
  cases h with
  | tick ht => exact absurd (tick_iff.mp ht).1 (by simp)
  | _ => simp [Link.quiet] at hq

theorem always_quiet (w : World β) : promptEnv.Always Current (.quiet w) :=
  Env.Stable.always (P := fun L => L = .quiet w)
    (fun _ _ hmove h => (not_move_quiet (h ▸ hmove)).elim) rfl |>.mono
    fun L h => by subst h; simp [Current, Link.quiet]

/-- Between the challenge and the proof no proof is on its way. -/
theorem notRejected_of_challenge {key nonce : List β} (hn : nonce.length = authNonceSize)
    {old challenge : Packet β} {e : HostError} {t : HostState β}
    {L : Link (Packet β) (World β)} (he : e ≠ .rejected .authProof)
    (h : Accepted Policy.prompt (frame .auth (old.sequence + 1) nonce)
      (HandledOnce key nonce (frame .auth (old.sequence + 1) nonce)) challenge L) :
    NotRejected e t L := by
  obtain ⟨-, q, -, htaken⟩ := h
  have hchallenge := @challenge_exchange β _ key nonce _ old (fun _ => true) hn rfl
  refine ⟨he, htaken.always hchallenge sequence_of_serves fun L h m hm hproof => ?_⟩
  rw [h.idle.requests m hm, isProof_challenge hn] at hproof
  cases hproof

/-- The proof for the nonces that the device holds is not rejected. -/
theorem proof_prompt {key nonce serverNonce : List β} (hn : nonce.length = authNonceSize)
    (v : HostState β) (n : UInt16) :
    Task.Spec promptEnv Current
      (fun t L => t = v.at n ∧ Idle Packet.sequence (frame .auth n nonce) L ∧
        .receive (frame .auth n nonce) ∈ L.server.trace ∧
        Awaits key nonce serverNonce L.server.device.auth)
      (do
        let response ← requestUnprotected cfg .auth (nonce ++ authProofOf key nonce serverNonce)
        ensureAck response .authProof
        Task.update fun t => { t with authenticated := true })
      (fun _ _ L => promptEnv.Always Current L) NotRejected := by
  have hproof := @proof_exchange β _ key nonce serverNonce n (fun _ => true) hn
  have hlen : (nonce ++ authProofOf key nonce serverNonce).length ≤ protocolMaxPayload := by
    rw [List.length_append, hn, length_authProofOf]
    decide
  refine Task.Spec.bind (requestUnprotected_link v hlen hproof (fun L => current_of_proof hn) ?_)
    fun response => ?_
  · exact fun t L _ h => ⟨by simp, h.always hproof sequence_of_serves fun L => current_of_proof hn⟩
  · rintro t L ⟨rfl, -, q, rfl, htaken⟩
    have hack : q.response = ackFrame (n + 1) := htaken.after.2 q List.mem_cons_self
    rw [hack, ensureAck_ackFrame]
    refine htaken.always hproof sequence_of_serves fun L h m hm _ => ?_
    rw [h.idle.requests m hm]
    exact h.after.1.proof

theorem authenticate_prompt {key : List β} (hkey : cfg.authKey = some key) (u : HostState β) :
    Task.Spec promptEnv Current
      (fun t L => t = u ∧ ∃ d : Device β, d.auth.key = key ∧ L = .quiet ⟨d, []⟩) (authenticate cfg)
      (fun _ _ L => promptEnv.Always Current L) NotRejected := by
  rw [authenticate_eq]
  rw [hkey]
  refine Task.Spec.read_bind fun t₀ => Task.Spec.ite (fun _ => ?_) (fun _ => ?_)
  · refine Task.Spec.pure ?_
    rintro t L ⟨rfl, rfl, d, -, rfl⟩
    exact always_quiet _
  -- The nonce is drawn before anything is sent.
  have hask : Task.Spec promptEnv Current
      (fun t L => t = t₀ ∧ t₀ = u ∧ ∃ d : Device β, d.auth.key = key ∧ L = .quiet ⟨d, []⟩)
      (Task.ask Ask.urandom) (fun (_ : Answer β .urandom) t L => t = u ∧
        ∃ d : Device β, d.auth.key = key ∧ L = .quiet ⟨d, []⟩) NotRejected := by
    refine Task.Spec.ask ?_ ?_ ?_
    · rintro t L L' hmove ⟨-, -, d, -, rfl⟩
      exact (not_move_quiet hmove).elim
    · rintro t L ⟨-, -, d, -, rfl⟩
      exact (always_quiet _).now
    · rintro t L a L' ⟨rfl, rfl, h⟩ rfl
      exact ⟨rfl, h⟩
  refine Task.Spec.bind hask ?_
  rintro ⟨nonce, hn⟩
  -- A packet that has never been sent stands for the one before the challenge.
  obtain ⟨old, hold, hseq⟩ : ∃ old : Packet β, old.isProof = false ∧ old.sequence = u.sequence :=
    ⟨frame .ping u.sequence [], by simp [Packet.isProof, frame, authNonceSize], rfl⟩
  have hchallenge := @challenge_exchange β _ key nonce _ old (fun _ => true) hn rfl
  refine (Task.Spec.bind (requestUnprotected_link u (by rw [hn]; decide) hchallenge
    (fun L => current_of_challenge hn hold) ?_) fun challenge => ?_).pre ?_
  · exact fun t L _ h => ⟨by simp, h.always hchallenge sequence_of_serves
      fun L => current_of_challenge hn hold⟩
  swap
  · rintro t L ⟨rfl, d, hd, rfl⟩
    refine ⟨?_, Idle.quiet old _, hd, List.not_mem_nil⟩
    rw [hseq]
    rfl
  refine Task.Spec.ite (fun _ => Task.Spec.raise fun t L h =>
    notRejected_of_challenge hn (by simp) h.2) fun _ => ?_
  refine Task.Spec.bind (ensureAck_rule fun e t L h he =>
    notRejected_of_challenge hn ?_ h.2) fun _ => ?_
  · rcases he with rfl | rfl | rfl <;> simp
  refine Task.Spec.ite (fun _ => Task.Spec.raise fun t L h =>
    notRejected_of_challenge hn (by simp) h.1.2) fun _ => ?_
  let k := sessionKeyOf key nonce ((challenge.payload.drop 1).take authNonceSize)
  refine Task.Spec.update_bind
    ((proof_prompt hn { u with sessionKey := some k } (old.sequence + 1)).pre ?_)
  rintro t L ⟨t₁, rfl, ⟨rfl, -, q, rfl, htaken⟩, hack⟩
  obtain ⟨hreceived, hmine⟩ := htaken.after
  exact ⟨rfl, htaken.idle, hreceived, hmine q List.mem_cons_self hack⟩

/-- **A prompt handshake.** In every run in which no copy of a challenge reaches the device
after the first, every proof on its way was computed for the nonces the device holds, and
the handshake does not end with a rejected proof. -/
theorem handshake_prompt {d : Device β} (hkey : cfg.authKey = some d.auth.key) {u : HostState β}
    {p : Prog Ask (Answer β) (Packet β) (Except HostError Unit × HostState β)}
    {L : Link (Packet β) (World β)}
    (h : promptEnv.Reaches (authenticate cfg u, .quiet ⟨d, []⟩) (p, L)) :
    Current L ∧ ∀ t, p ≠ .ret (.error (.rejected .authProof), t) := by
  have hspec := authenticate_prompt hkey u
  have hstart : u = u ∧ ∃ d' : Device β, d'.auth.key = d.auth.key ∧
      Link.quiet (M := Packet β) (⟨d, []⟩ : World β) = .quiet ⟨d', []⟩ := ⟨rfl, d, rfl, rfl⟩
  constructor
  · exact hspec.reaches_inv (fun _ _ _ _ hs h => h.step hs)
      (fun _ _ _ _ hs h => ⟨h.1, h.2.step hs⟩) (fun _ _ _ h => h.now) (fun _ _ _ h => h.2.now)
      hstart h
  · rintro t rfl
    exact (hspec.reaches (fun _ _ _ _ hs h => h.step hs)
      (fun _ _ _ _ hs h => ⟨h.1, h.2.step hs⟩) hstart h).1 rfl

end Handshake

/-! ### A late response -/

/-- The platform of the sample, with other random numbers. -/
def otherEsp : EspIdf Octet :=
  { sampleEsp with
    fillRandom := octets (List.replicate 16 7)
    length_fillRandom := rfl }

/-- The response to the challenge is late: the client has sent a copy, and the device has
answered it too, when the client reads the first. Nothing is lost. -/
def lateResponse : List (Choice (EspIdf Octet)) :=
  [.proceed, .proceed, .deliver sampleEsp, .expire, .proceed, .deliver otherEsp, .proceed] ++
    roundTrip

/-- The handshake has ended with a rejected proof, and every packet has been answered. -/
def proofRejected : Prog Ask (Answer β) (Packet β) (Except HostError Unit × HostState β) ×
    Link (Packet β) (World β) → Bool
  | (.ret (.error e, _), L) => e == .rejected .authProof && L.requests.isEmpty
  | _ => false

/-- On a link that loses nothing and answers every packet, the device rejects the proof of a
client that shares its key. -/
theorem handshake_late :
    ¬∀ (cfg : HostConfig Octet) (d : Device Octet) (u : HostState Octet)
      (answer : ∀ q, Answer Octet q) (xs : List (Choice (EspIdf Octet)))
      (r : Except HostError Unit) (t : HostState Octet) (L : Link (Packet Octet) (World Octet)),
      cfg.authKey = some d.auth.key → (∀ x ∈ xs, x.loses = false) →
      play (deviceServer false fun _ => true) (.free _ _) answer xs
        (authenticate cfg u, .quiet ⟨d, []⟩) = some (.ret (r, t), L) → L.requests = [] →
      r ≠ .error (.rejected .authProof) := by
  intro h
  have hend : (play (deviceServer false fun _ => true) (.free _ _) sampleAnswer lateResponse
      (authenticate sampleHost sampleClient, .quiet ⟨lockedDevice, []⟩)).any proofRejected =
        true := by
    decide +kernel
  cases hplay : play (deviceServer false fun _ => true) (.free _ _) sampleAnswer lateResponse
      (authenticate sampleHost sampleClient, .quiet ⟨lockedDevice, []⟩) with
  | none => simp [hplay] at hend
  | some c =>
    rw [hplay, Option.any_some] at hend
    match c, hend with
    | (.ret (.error e, t), L), hend =>
      simp only [proofRejected, Bool.and_eq_true, beq_iff_eq, List.isEmpty_iff] at hend
      exact h sampleHost lockedDevice sampleClient sampleAnswer lateResponse _ t L rfl (by decide)
        hplay hend.2 (by rw [hend.1])

/-- The challenge is answered in time, and the response to the proof is late. -/
theorem handshake_prompt_lateAck :
    ∃ c, play (deviceServer false fun _ => true) Policy.prompt sampleAnswer
        (.proceed :: roundTrip ++ [.proceed, .deliver sampleEsp, .expire, .proceed])
        (authenticate sampleHost sampleClient, .quiet ⟨lockedDevice, []⟩) = some c ∧
          Current c.2 := by
  obtain ⟨⟨p, L⟩, hplay⟩ := Option.isSome_iff_exists.mp
    (show (play (deviceServer false fun _ => true) Policy.prompt sampleAnswer
      (.proceed :: roundTrip ++ [.proceed, .deliver sampleEsp, .expire, .proceed])
      (authenticate sampleHost sampleClient, .quiet ⟨lockedDevice, []⟩)).isSome = true
      by decide +kernel)
  exact ⟨_, hplay, (handshake_prompt rfl (reaches_of_play hplay)).1⟩

end OtaLink
