import OtaLink.Host
import OtaLink.Lib.Partner

/-!
# The client on a link without losses

Every packet is answered before the timer of the client expires. What a call does is then a
computation: one rule for the handshake and one for each way a pass of `request` can go.

## Main definitions

* `HostPartner` — what answers the client.
* `authenticate_gives` — a handshake that the other side answers as it should.
* `requestOnce_again`, `requestOnce_gives` — one pass of `request`.
-/

namespace OtaLink
open Lib

variable {β σ : Type} [Alphabet β]

/-- What answers the client. -/
abbrev HostPartner (β σ : Type) := Partner Ask (Answer β) (Packet β) σ

section Packets
variable {p : HostPartner β σ} {cfg : HostConfig β} {t : HostState β} {s s' : σ} {m r : Packet β}

omit [Alphabet β] in
theorem nextSequence_gives : (nextSequence : HostTask β UInt16).Gives p t s (.ok (t.sequence + 1))
    (t.at (t.sequence + 1)) s :=
  Task.Gives.update_bind (Task.Gives.read_bind (Task.Gives.pure _))

omit [Alphabet β] in
theorem buildPacket_gives {c : Command} {n : UInt16} {payload : List β}
    (hl : payload.length ≤ protocolMaxPayload) :
    (buildPacket c n payload).Gives p t s (.ok (frame c n payload)) t s := by
  rw [buildPacket, if_neg (by omega)]
  exact Task.Gives.pure _

omit [Alphabet β] in
/-- A response under the sequence number of the packet is taken. -/
theorem requestPacket_gives (hretries : 0 < cfg.retries) (hserve : p.serve s m = some (r, s'))
    (hseq : r.sequence = m.sequence) : (requestPacket cfg m).Gives p t s (.ok r) t s' :=
  Task.Gives.bind (Task.Gives.exchange hretries hserve (by simpa using hseq)) (Task.Gives.pure r)

omit [Alphabet β] in
theorem requestUnprotected_gives (hretries : 0 < cfg.retries) {c : Command} {payload : List β}
    (hl : payload.length ≤ protocolMaxPayload)
    (hserve : p.serve s (frame c (t.sequence + 1) payload) = some (r, s'))
    (hseq : r.sequence = t.sequence + 1) :
    (requestUnprotected cfg c payload).Gives p t s (.ok r) (t.at (t.sequence + 1)) s' :=
  Task.Gives.bind nextSequence_gives <| Task.Gives.bind (buildPacket_gives hl) <|
    requestPacket_gives hretries hserve hseq

theorem ensureAck_gives {context : Context} (hc : r.command = Command.ack.code)
    (hpay : r.payload.head? = some (ofByte ProtocolError.ok.code)) :
    (ensureAck r context).Gives p t s (.ok ()) t s := by
  obtain ⟨rest, hpay⟩ := List.head?_eq_some_iff.mp hpay
  rw [ensureAck, if_pos hc, hpay]
  dsimp only
  rw [if_pos rfl]
  exact Task.Gives.pure ()

end Packets

/-! ## The handshake -/

section Handshake
variable {p : HostPartner β σ} {cfg : HostConfig β} {key clientNonce serverNonce : List β}
  {u : HostState β} {s s₁ s₂ s₃ : σ}

/-- **A handshake that is answered** ends with the session of the two nonces. -/
theorem authenticate_gives (hkey : cfg.authKey = some key) (hretries : 0 < cfg.retries)
    (hu : u.authenticated = false) (hc : clientNonce.length = authNonceSize)
    (hs : serverNonce.length = authNonceSize) (hask : p.ask s .urandom = (⟨clientNonce, hc⟩, s₁))
    (hchallenge : p.serve s₁ (frame .auth (u.sequence + 1) clientNonce) =
      some (frame .ack (u.sequence + 1)
        (statusPayload .ok ++ serverNonce ++ deviceProofOf key clientNonce serverNonce), s₂))
    (hproof : p.serve s₂ (frame .auth (u.sequence + 1 + 1)
        (clientNonce ++ authProofOf key clientNonce serverNonce)) =
      some (ackFrame (u.sequence + 1 + 1), s₃)) :
    (authenticate cfg).Gives p u s (.ok ())
      ⟨u.sequence + 1 + 1, some (sessionKeyOf key clientNonce serverNonce), true⟩ s₃ := by
  have hsn : (((statusPayload .ok ++ serverNonce ++
      deviceProofOf key clientNonce serverNonce).drop 1).take authNonceSize) = serverNonce := by
    rw [statusPayload, List.append_assoc, List.singleton_append, List.drop_one, List.tail_cons,
      ← hs, List.take_left]
  have hdp : (statusPayload .ok ++ serverNonce ++
      deviceProofOf key clientNonce serverNonce).drop (1 + authNonceSize) =
        deviceProofOf key clientNonce serverNonce := by
    rw [List.drop_left' (by simp [statusPayload, hs]; omega)]
  have hlen : (statusPayload .ok ++ serverNonce ++
      deviceProofOf key clientNonce serverNonce).length = 1 + authNonceSize + authTagSize := by
    simp [statusPayload, hs, authTagSize, authNonceSize]
  have hhead : (statusPayload .ok ++ serverNonce ++
      deviceProofOf key clientNonce serverNonce).head? =
        some (ofByte ProtocolError.ok.code) := rfl
  rw [authenticate_eq]
  rw [hkey]
  refine Task.Gives.read_bind ?_
  rw [if_neg (by simp [hu])]
  refine Task.Gives.bind (a := ⟨clientNonce, hc⟩) (v := u) (w := s₁) ?_ ?_
  · have h := @Task.Gives.ask _ _ _ _ _ HostError p u s .urandom
    rwa [hask] at h
  refine Task.Gives.bind (requestUnprotected_gives hretries (by rw [hc]; decide) hchallenge rfl) ?_
  generalize statusPayload .ok ++ serverNonce ++ deviceProofOf key clientNonce serverNonce = pay
    at hsn hdp hlen hhead
  have hok : ¬((frame Command.ack (u.sequence + 1) pay).command ≠ Command.ack.code ∨
      (frame Command.ack (u.sequence + 1) pay).payload.length ≠
        1 + authNonceSize + authTagSize) := by
    simp [frame, hlen]
  dsimp only
  rw [if_neg hok]
  refine Task.Gives.bind (ensureAck_gives rfl hhead) ?_
  have hsn' : ((frame Command.ack (u.sequence + 1) pay).payload.drop 1).take authNonceSize =
      serverNonce := hsn
  have hdp' : (frame Command.ack (u.sequence + 1) pay).payload.drop (1 + authNonceSize) =
      deviceProofOf key clientNonce serverNonce := hdp
  rw [hsn', hdp', if_neg (by simp)]
  refine Task.Gives.update_bind ?_
  refine Task.Gives.bind (requestUnprotected_gives hretries ?_ hproof rfl) ?_
  · rw [List.length_append, hc, length_authProofOf]
    decide
  · exact Task.Gives.bind (ensureAck_gives rfl rfl) (Task.Gives.update _)

end Handshake

/-! ## One pass of `request` -/

section Request
variable {p : HostPartner β σ} {cfg : HostConfig β} {c : Command} {payload key : List β}
  {u : HostState β} {again : Option (HostTask β (Packet β))} {s s' : σ} {r : Packet β}

/-- The tagged payload of a guarded command. -/
theorem authenticatedPayload_eq (hg : cfg.guards c = true) (hk : u.sessionKey = some key)
    (n : UInt16) (payload : List β) : authenticatedPayload cfg c n payload u =
      .ret (.ok (payload ++ requestTag key c.code n payload), u) := by
  rw [authenticatedPayload, hg, if_neg (by simp), Task.read_bind_apply, hk, ← Host.tag_eq]
  rfl

/-- A response with the tag of the session is verified. -/
theorem verifiedResponse_eq (hk : u.sessionKey = some key) {n : UInt16} {body : List β}
    (hpay : r.payload = body ++ responseTag key c.code r.command n body) :
    verifiedResponse c n r u = .ret (.ok { r with payload := body }, u) := by
  have htake : r.payload.take (r.payload.length - authTagSize) = body := by
    rw [hpay]
    simp [authTagSize]
  have hdrop : r.payload.drop (r.payload.length - authTagSize) =
      responseTag key c.code r.command n body := by
    rw [hpay]
    simp [authTagSize]
  have hlen : ¬r.payload.length < authTagSize := by
    rw [hpay, List.length_append, length_responseTag, authTagSize]
    omega
  rw [verifiedResponse, Task.read_bind_apply, hk]
  dsimp only
  rw [if_neg hlen, htake, hdrop, Host.expected_eq, if_neg (by simp)]
  rfl

/-- The packet of a call is sent and answered. -/
theorem requestOnce_sends (hg : cfg.guards c = true) (hretries : 0 < cfg.retries)
    (hk : u.sessionKey = some key) (hl : payload.length + authTagSize ≤ protocolMaxPayload)
    (hserve : p.serve s (frame c (u.sequence + 1)
      (payload ++ requestTag key c.code (u.sequence + 1) payload)) = some (r, s'))
    (hseq : r.sequence = u.sequence + 1) {x : Except HostError (Packet β)} {t' : HostState β}
    {s'' : σ} (h : Task.Gives p (match again with
      | none => finishRequest cfg c (u.sequence + 1) r
      | some again =>
        if cfg.guards c && isAuthRequired r then again
        else finishRequest cfg c (u.sequence + 1) r) (u.at (u.sequence + 1)) s' x t' s'') :
    (requestOnce cfg c payload again).Gives p u s x t' s'' := by
  unfold requestOnce
  refine Task.Gives.bind nextSequence_gives ?_
  refine Task.Gives.bind (a := payload ++ requestTag key c.code (u.sequence + 1) payload)
    (v := u.at (u.sequence + 1)) (w := s) (fun inbox => ⟨inbox, ?_⟩) ?_
  · rw [authenticatedPayload_eq (u := u.at (u.sequence + 1)) hg hk]
    rfl
  refine Task.Gives.bind (buildPacket_gives ?_) ?_
  · rw [List.length_append, length_requestTag]
    exact hl
  exact Task.Gives.bind (requestPacket_gives hretries hserve hseq) h

/-- The record after a response: a restart that is acknowledged ends the session. -/
def HostState.finished (u : HostState β) (c : Command) (r : Packet β) : HostState β :=
  if (c = .reboot ∨ c = .rollback) ∧ r.command = Command.ack.code then
    { u with sessionKey := none, authenticated := false }
  else u

/-- A response that demands a session starts the rest of the loop. -/
theorem requestOnce_again (hg : cfg.guards c = true) (hretries : 0 < cfg.retries)
    (hk : u.sessionKey = some key) (hl : payload.length + authTagSize ≤ protocolMaxPayload)
    (hserve : p.serve s (frame c (u.sequence + 1)
      (payload ++ requestTag key c.code (u.sequence + 1) payload)) = some (r, s'))
    (hseq : r.sequence = u.sequence + 1) (hr : isAuthRequired r = true)
    {task : HostTask β (Packet β)} {x : Except HostError (Packet β)} {t' : HostState β} {s'' : σ}
    (h : task.Gives p (u.at (u.sequence + 1)) s' x t' s'') :
    (requestOnce cfg c payload (some task)).Gives p u s x t' s'' := by
  refine requestOnce_sends hg hretries hk hl hserve hseq ?_
  simpa [hg, hr] using h

/-- Any other response that carries the tag of the session ends the call. -/
theorem requestOnce_gives (hg : cfg.guards c = true) (hretries : 0 < cfg.retries)
    (hk : u.sessionKey = some key) (hl : payload.length + authTagSize ≤ protocolMaxPayload)
    (hserve : p.serve s (frame c (u.sequence + 1)
      (payload ++ requestTag key c.code (u.sequence + 1) payload)) = some (r, s'))
    (hseq : r.sequence = u.sequence + 1) (hr : again ≠ none → isAuthRequired r = false)
    {body : List β} (hpay : r.payload = body ++
      responseTag key c.code r.command (u.sequence + 1) body) :
    (requestOnce cfg c payload again).Gives p u s (.ok { r with payload := body })
      ((u.at (u.sequence + 1)).finished c r) s' := by
  have hfinish : (finishRequest cfg c (u.sequence + 1) r).Gives p (u.at (u.sequence + 1)) s'
      (.ok { r with payload := body }) ((u.at (u.sequence + 1)).finished c r) s' := by
    refine Task.Gives.bind (a := { r with payload := body }) (v := u.at (u.sequence + 1))
      (w := s') (fun inbox => ⟨inbox, ?_⟩) ?_
    · rw [checkedResponse, if_pos hg, verifiedResponse_eq (u := u.at (u.sequence + 1)) hk hpay]
      rfl
    · by_cases hc : (c = .reboot ∨ c = .rollback) ∧ r.command = Command.ack.code
      · rw [if_pos hc, HostState.finished, if_pos hc]
        exact Task.Gives.bind (Task.Gives.update _) (Task.Gives.pure _)
      · rw [if_neg hc, HostState.finished, if_neg hc]
        exact Task.Gives.pure _
  refine requestOnce_sends hg hretries hk hl hserve hseq ?_
  cases again with
  | none => exact hfinish
  | some task => simpa [hr (by simp)] using hfinish

/-- A client with a session does not authenticate. -/
theorem authenticate_gives_authenticated (hu : u.authenticated = true) :
    (authenticate cfg).Gives p u s (.ok ()) u s := by
  rw [authenticate_eq]
  split
  · exact Task.Gives.pure ()
  · refine Task.Gives.read_bind ?_
    rw [if_pos hu]
    exact Task.Gives.pure ()

/-- A call of a client with a session. -/
theorem request_gives (hg : cfg.guards c = true) (hretries : 0 < cfg.retries)
    (hu : u.authenticated = true) (hk : u.sessionKey = some key)
    (hl : payload.length + authTagSize ≤ protocolMaxPayload)
    (hserve : p.serve s (frame c (u.sequence + 1)
      (payload ++ requestTag key c.code (u.sequence + 1) payload)) = some (r, s'))
    (hseq : r.sequence = u.sequence + 1) (hr : isAuthRequired r = false) {body : List β}
    (hpay : r.payload = body ++ responseTag key c.code r.command (u.sequence + 1) body) :
    (request cfg c payload).Gives p u s (.ok { r with payload := body })
      ((u.at (u.sequence + 1)).finished c r) s' := by
  unfold request authenticateFor
  rw [if_pos hg]
  exact Task.Gives.bind (authenticate_gives_authenticated hu)
    (requestOnce_gives hg hretries hk hl hserve hseq (fun _ => hr) hpay)

/-- A call that needs no session. -/
theorem request_gives_open (hg : cfg.guards c = false) (hretries : 0 < cfg.retries)
    (hc : c ≠ .reboot ∧ c ≠ .rollback) (hl : payload.length ≤ protocolMaxPayload)
    (hserve : p.serve s (frame c (u.sequence + 1) payload) = some (r, s'))
    (hseq : r.sequence = u.sequence + 1) :
    (request cfg c payload).Gives p u s (.ok r) (u.at (u.sequence + 1)) s' := by
  unfold request authenticateFor requestOnce authenticatedPayload finishRequest checkedResponse
  simp only [hg, Bool.not_false, Bool.false_eq_true, if_true, if_false, Bool.false_and]
  refine Task.Gives.bind (Task.Gives.pure ()) (Task.Gives.bind nextSequence_gives ?_)
  refine Task.Gives.bind (Task.Gives.pure payload) (Task.Gives.bind (buildPacket_gives hl) ?_)
  refine Task.Gives.bind (requestPacket_gives hretries hserve hseq) ?_
  refine Task.Gives.bind (Task.Gives.pure r) ?_
  rw [if_neg (by simp [hc.1, hc.2])]
  exact Task.Gives.pure r

end Request

/-! ## The client stops and waits -/

section Waits
variable {cfg : HostConfig β}

omit [Alphabet β] in
theorem waits_nextSequence : (nextSequence : HostTask β UInt16).Waits Packet.Framed :=
  Task.Waits.bind (Task.Waits.update _) fun _ => Task.Waits.read_bind fun _ => Task.Waits.pure _

omit [Alphabet β] in
/-- What follows `build_packet` has a packet that fits a frame. -/
theorem waits_buildPacket {α : Type} {c : Command} {n : UInt16} {payload : List β}
    {f : Packet β → HostTask β α} (hf : ∀ m : Packet β, m.Framed → (f m).Waits Packet.Framed) :
    (buildPacket c n payload >>= f).Waits Packet.Framed := by
  unfold buildPacket
  split
  · exact fun _ => .ret
  · exact hf _ ⟨rfl, Nat.not_lt.mp ‹_›⟩

omit [Alphabet β] in
theorem waits_requestPacket {m : Packet β} (hm : m.Framed) :
    (requestPacket cfg m).Waits Packet.Framed := by
  refine Task.Waits.bind (Task.Waits.exchange hm _ _) fun r => ?_
  cases r with
  | some r => exact Task.Waits.pure r
  | none => exact Task.Waits.raise _

omit [Alphabet β] in
theorem waits_requestUnprotected (c : Command) (payload : List β) :
    (requestUnprotected cfg c payload).Waits Packet.Framed :=
  Task.Waits.bind waits_nextSequence fun _ => waits_buildPacket fun _ hm => waits_requestPacket hm

theorem waits_ensureAck (r : Packet β) (context : Context) :
    (ensureAck r context).Waits Packet.Framed := by
  unfold ensureAck
  refine Task.Waits.ite (fun _ => ?_) fun _ => Task.Waits.ite (fun _ => Task.Waits.raise _)
    fun _ => Task.Waits.raise _
  split
  · exact Task.Waits.pure _
  · exact Task.Waits.ite (fun _ => Task.Waits.pure _) fun _ => Task.Waits.raise _

theorem waits_authenticate : (authenticate cfg).Waits Packet.Framed := by
  rw [authenticate_eq]
  cases cfg.authKey with
  | none => exact Task.Waits.pure _
  | some key =>
    refine Task.Waits.read_bind fun t => Task.Waits.ite (fun _ => Task.Waits.pure _) fun _ => ?_
    refine Task.Waits.bind (Task.Waits.ask _) fun nonce => ?_
    refine Task.Waits.bind (waits_requestUnprotected _ _) fun challenge => ?_
    refine Task.Waits.ite (fun _ => Task.Waits.raise _) fun _ => ?_
    refine Task.Waits.bind (waits_ensureAck _ _) fun _ => ?_
    refine Task.Waits.ite (fun _ => Task.Waits.raise _) fun _ => ?_
    refine Task.Waits.bind (Task.Waits.update _) fun _ => ?_
    refine Task.Waits.bind (waits_requestUnprotected _ _) fun response => ?_
    exact Task.Waits.bind (waits_ensureAck _ _) fun _ => Task.Waits.update _

theorem waits_authenticatedPayload (c : Command) (n : UInt16) (payload : List β) :
    (authenticatedPayload cfg c n payload).Waits Packet.Framed := by
  refine Task.Waits.ite (fun _ => Task.Waits.pure _) fun _ => Task.Waits.read_bind fun t => ?_
  cases t.sessionKey with
  | none => exact Task.Waits.raise _
  | some key => exact Task.Waits.pure _

theorem waits_finishRequest (c : Command) (n : UInt16) (r : Packet β) :
    (finishRequest cfg c n r).Waits Packet.Framed := by
  refine Task.Waits.bind (Task.Waits.ite (fun _ => ?_) fun _ => Task.Waits.pure _) fun r => ?_
  · refine Task.Waits.read_bind fun t => ?_
    cases t.sessionKey with
    | none => exact Task.Waits.raise _
    | some key =>
      refine Task.Waits.ite (fun _ => Task.Waits.raise _) fun _ => ?_
      exact Task.Waits.ite (fun _ => Task.Waits.raise _) fun _ => Task.Waits.pure _
  · refine Task.Waits.ite (fun _ => ?_) fun _ => Task.Waits.pure _
    exact Task.Waits.bind (Task.Waits.update _) fun _ => Task.Waits.pure _

theorem waits_requestOnce {c : Command} {payload : List β} {again : Option (HostTask β (Packet β))}
    (hagain : ∀ task, again = some task → task.Waits Packet.Framed) :
    (requestOnce cfg c payload again).Waits Packet.Framed := by
  refine Task.Waits.bind waits_nextSequence fun n => ?_
  refine Task.Waits.bind (waits_authenticatedPayload c n payload) fun pp => ?_
  refine waits_buildPacket fun m hm => Task.Waits.bind (waits_requestPacket hm) fun r => ?_
  cases again with
  | none => exact waits_finishRequest c n r
  | some task => exact Task.Waits.ite (fun _ => hagain task rfl) fun _ => waits_finishRequest c n r

/-- **A call stops and waits**, and every packet of it fits a frame. -/
theorem waits_request (c : Command) (payload : List β) :
    (request cfg c payload).Waits Packet.Framed := by
  refine Task.Waits.bind (Task.Waits.ite (fun _ => waits_authenticate) fun _ => Task.Waits.pure _)
    fun _ => waits_requestOnce ?_
  rintro task ⟨⟩
  exact Task.Waits.bind (Task.Waits.update _) fun _ => Task.Waits.bind waits_authenticate fun _ =>
    waits_requestOnce fun _ h => by cases h

theorem waits_runCommand (c : Command) (payload : List β) (context : Context) :
    (runCommand cfg c payload context).Waits Packet.Framed := by
  refine Task.Waits.bind (Task.Waits.handle (waits_request c payload) fun e => ?_) fun r =>
    waits_ensureAck r context
  split <;> exact Task.Waits.raise _

theorem waits_sendChunks (fuel : ℕ) : ∀ chunkNumber sent (rest : List β),
    (sendChunks cfg fuel chunkNumber sent rest).Waits Packet.Framed := by
  induction fuel with
  | zero => exact fun _ _ _ => Task.Waits.pure _
  | succ fuel ih =>
    intro chunkNumber sent rest
    refine Task.Waits.ite (fun _ => Task.Waits.pure _) fun _ => Task.Waits.bind ?_ fun payload => ?_
    · refine Task.Waits.ite (fun _ => Task.Waits.raise _) fun _ => ?_
      refine Task.Waits.ite (fun _ => Task.Waits.raise _) fun _ => ?_
      exact Task.Waits.ite (fun _ => Task.Waits.raise _) fun _ => Task.Waits.pure _
    · exact Task.Waits.bind (waits_runCommand _ _ _) fun _ => ih _ _ _

theorem waits_cmdUpdate (f : List β) : (cmdUpdate cfg f).Waits Packet.Framed := by
  refine Task.Waits.bind (Task.Waits.ite (fun _ => Task.Waits.raise _) fun _ => ?_) fun _ =>
    Task.Waits.bind (waits_sendChunks _ _ _ f) fun _ => waits_runCommand _ _ _
  refine Task.Waits.bind (Task.Waits.ite (fun _ => Task.Waits.raise _) fun _ => Task.Waits.pure _)
    fun payload => waits_runCommand _ _ _

end Waits
end OtaLink
