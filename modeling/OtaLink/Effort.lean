import OtaLink.Host
import OtaLink.Lib.Effort
import OtaLink.Octets

/-!
# The effort of the client

Every command of the client ends after a bounded number of transmissions, whatever it is
answered: there are `retries` copies of a packet, at most two handshakes of two packets in a
call, and the call's own packet at most twice.

## Main definitions

* `effort` — the bound for one call.
* `bounded_effort` — it holds of every execution.
-/

namespace OtaLink
open Lib

section Effort
variable {β : Type} [Alphabet β] (cfg : HostConfig β)

/-- The copies of the packets of one call: of its own, and where it is guarded of two
handshakes and of its own again. -/
def effort (c : Command) : ℕ := if cfg.guards c then 6 * cfg.retries else cfg.retries

/-- The chunks of an image. -/
def chunkCount (size : ℕ) : ℕ := (size + maxOtaChunkDataSize cfg - 1) / maxOtaChunkDataSize cfg

/-! ## The parts of a call -/

omit [Alphabet β] in
theorem sends_nextSequence : (nextSequence : HostTask β UInt16).Sends 0 :=
  (Task.Sends.update _).bind fun _ => Task.Sends.read.bind fun _ => Task.Sends.pure _

omit [Alphabet β] in
theorem sends_buildPacket (c : Command) (n : UInt16) (payload : List β) :
    (buildPacket c n payload).Sends 0 :=
  Task.Sends.ite (Task.Sends.raise _) (Task.Sends.pure _)

omit [Alphabet β] in
theorem sends_requestPacket (m : Packet β) : (requestPacket cfg m).Sends cfg.retries := by
  refine (Task.Sends.exchange _ _ cfg.retries).bind (m := 0) fun r => ?_
  cases r with
  | some r => exact Task.Sends.pure r
  | none => exact Task.Sends.raise _

omit [Alphabet β] in
theorem sends_requestUnprotected (c : Command) (payload : List β) :
    (requestUnprotected cfg c payload).Sends cfg.retries := by
  refine (sends_nextSequence.bind fun n => (sends_buildPacket c n payload).bind fun m =>
    sends_requestPacket cfg m).mono (by omega)

theorem sends_ensureAck (r : Packet β) (x : Context) : (ensureAck r x).Sends 0 := by
  unfold ensureAck
  refine Task.Sends.ite ?_ (Task.Sends.ite (Task.Sends.raise _) (Task.Sends.raise _))
  split
  · exact Task.Sends.pure _
  · exact Task.Sends.ite (Task.Sends.pure _) (Task.Sends.raise _)

theorem sends_authenticate : (authenticate cfg).Sends (2 * cfg.retries) := by
  rw [authenticate_eq]
  split
  · exact (Task.Sends.pure ()).mono (Nat.zero_le _)
  · rename_i key _
    refine (Task.Sends.read.bind (m := 2 * cfg.retries) fun t => ?_).mono (by omega)
    refine Task.Sends.ite ((Task.Sends.pure ()).mono (Nat.zero_le _)) ?_
    refine ((Task.Sends.ask _).bind (m := 2 * cfg.retries) fun nonce => ?_).mono (by omega)
    refine ((sends_requestUnprotected cfg _ _).bind (m := cfg.retries) fun challenge => ?_).mono
      (by omega)
    refine Task.Sends.ite ((Task.Sends.raise _).mono (Nat.zero_le _)) ?_
    refine ((sends_ensureAck _ _).bind (m := cfg.retries) fun _ => ?_).mono (by omega)
    refine Task.Sends.ite ((Task.Sends.raise _).mono (Nat.zero_le _)) ?_
    refine ((Task.Sends.update _).bind (m := cfg.retries) fun _ => ?_).mono (by omega)
    exact (sends_requestUnprotected cfg _ _).bind fun response =>
      (sends_ensureAck response _).bind fun _ => Task.Sends.update _

theorem sends_verifiedResponse (c : Command) (n : UInt16) (r : Packet β) :
    (verifiedResponse c n r).Sends 0 := by
  refine Task.Sends.read.bind (m := 0) fun t => ?_
  split
  · exact Task.Sends.raise _
  · exact Task.Sends.ite (Task.Sends.raise _)
      (Task.Sends.ite (Task.Sends.raise _) (Task.Sends.pure _))

theorem sends_finishRequest (c : Command) (n : UInt16) (r : Packet β) :
    (finishRequest cfg c n r).Sends 0 := by
  have hchecked : (checkedResponse cfg c n r).Sends 0 :=
    Task.Sends.ite (sends_verifiedResponse c n r) (Task.Sends.pure r)
  refine hchecked.bind fun r => Task.Sends.ite ?_ (Task.Sends.pure r)
  exact (Task.Sends.update _).bind fun _ => Task.Sends.pure r

theorem sends_authenticatedPayload (c : Command) (n : UInt16) (payload : List β) :
    (authenticatedPayload cfg c n payload).Sends 0 := by
  refine Task.Sends.ite (Task.Sends.pure _) (Task.Sends.read.bind (m := 0) fun t => ?_)
  split
  · exact Task.Sends.raise _
  · exact Task.Sends.pure _

/-- The packet of a call, and what comes after it where the device demands a session. -/
theorem sends_requestOnce (c : Command) (payload : List β)
    (again : Option (HostTask β (Packet β))) {k : ℕ}
    (hagain : ∀ task, again = some task → cfg.guards c = true → task.Sends k) :
    (requestOnce cfg c payload again).Sends (cfg.retries + k) := by
  refine (sends_nextSequence.bind (m := cfg.retries + k) fun n => ?_).mono (by omega)
  refine ((sends_authenticatedPayload cfg c n payload).bind (m := cfg.retries + k)
    fun p => ?_).mono (by omega)
  refine ((sends_buildPacket c n p).bind (m := cfg.retries + k) fun m => ?_).mono (by omega)
  refine (sends_requestPacket cfg m).bind fun r => ?_
  have hfinish := (sends_finishRequest cfg c n r).mono (Nat.zero_le k)
  cases again with
  | none => exact hfinish
  | some task =>
    cases hg : cfg.guards c with
    | false => exact hfinish
    | true => exact Task.Sends.ite (hagain task rfl hg) hfinish

theorem sends_request (c : Command) (payload : List β) :
    (request cfg c payload).Sends (effort cfg c) := by
  have hlast : (requestOnce cfg c payload none).Sends cfg.retries :=
    sends_requestOnce cfg c payload none (k := 0) fun _ h => by cases h
  unfold request authenticateFor effort
  cases hg : cfg.guards c with
  | false =>
    refine ((Task.Sends.pure ()).bind (m := cfg.retries) fun _ => ?_).mono (by simp)
    exact sends_requestOnce cfg c payload _ (k := 0) fun _ _ h => by simp [hg] at h
  | true =>
    refine ((sends_authenticate cfg).bind fun _ => sends_requestOnce cfg c payload _
      (k := 0 + (2 * cfg.retries + cfg.retries)) ?_).mono (by simp; omega)
    rintro task ⟨⟩ -
    exact (Task.Sends.update _).bind fun _ => (sends_authenticate cfg).bind fun _ => hlast

/-! ## Commands -/

theorem sends_runCommand (c : Command) (payload : List β) (x : Context) :
    (runCommand cfg c payload x).Sends (effort cfg c) := by
  refine (Task.Sends.handle (m := 0) (sends_request cfg c payload) fun e => ?_).bind
    fun r => sends_ensureAck r x
  cases e <;> exact Task.Sends.raise _

theorem sends_runUpdateBegin (image : List β) :
    (runUpdateBegin cfg image).Sends (effort cfg .otaBegin) := by
  refine Task.Sends.ite ((Task.Sends.raise _).mono (Nat.zero_le _)) ?_
  have hbuild : (buildOtaBeginPayload image.length
      (image.drop (image.length - 32)) : HostTask β (List β)).Sends 0 :=
    Task.Sends.ite (Task.Sends.raise _) (Task.Sends.pure _)
  exact (hbuild.bind fun _ => sends_runCommand cfg _ _ _).mono (by omega)

omit [Alphabet β] in
theorem maxOtaChunkDataSize_pos : 0 < maxOtaChunkDataSize cfg := by
  rw [maxOtaChunkDataSize]
  split <;> decide

omit [Alphabet β] in
theorem chunkCount_sub {size : ℕ} (h : 0 < size) :
    chunkCount cfg size = chunkCount cfg (size - maxOtaChunkDataSize cfg) + 1 := by
  have hpos := maxOtaChunkDataSize_pos cfg
  rw [chunkCount, chunkCount]
  generalize maxOtaChunkDataSize cfg = k at hpos
  by_cases hle : k ≤ size
  · rw [show size + k - 1 = size - k + k - 1 + k by omega, Nat.add_div_right _ hpos]
  · rw [Nat.div_eq_of_lt_le (k := 1) (by omega) (by omega), Nat.div_eq_of_lt (by omega)]

theorem sends_sendChunks (fuel chunk sent : ℕ) (rest : List β) :
    (sendChunks cfg fuel chunk sent rest).Sends
      (effort cfg .otaData * chunkCount cfg rest.length) := by
  induction fuel generalizing chunk sent rest with
  | zero => exact (Task.Sends.pure ()).mono (Nat.zero_le _)
  | succ fuel ih =>
    unfold sendChunks
    dsimp only
    split
    · exact (Task.Sends.pure ()).mono (Nat.zero_le _)
    · rename_i hchunk
      have hpos : 0 < rest.length := by
        rw [List.length_pos_iff]
        rintro rfl
        simp at hchunk
      have hbuild : (buildOtaDataPayload chunk sent (rest.take (maxOtaChunkDataSize cfg)) :
          HostTask β (List β)).Sends 0 :=
        Task.Sends.ite (Task.Sends.raise _) (Task.Sends.ite (Task.Sends.raise _)
          (Task.Sends.ite (Task.Sends.raise _) (Task.Sends.pure _)))
      refine (hbuild.bind fun _ => (sends_runCommand cfg _ _ _).bind fun _ => ih _ _ _).mono ?_
      rw [List.length_drop, chunkCount_sub cfg hpos, Nat.mul_succ]
      omega

theorem sends_cmdUpdate (image : List β) :
    (cmdUpdate cfg image).Sends (effort cfg .otaData * (chunkCount cfg image.length + 2)) := by
  refine ((sends_runUpdateBegin cfg image).bind fun _ =>
    (sends_sendChunks cfg _ 0 0 image).bind fun _ => sends_runCommand cfg _ _ _).mono ?_
  have hbegin : effort cfg .otaBegin = effort cfg .otaData := rfl
  have hend : effort cfg .otaEnd = effort cfg .otaData := rfl
  rw [Nat.mul_add]
  omega

/-! ## Every execution -/

/-- **Bounded effort.** Whatever the other side is and does, a call puts at most `effort` packets
on the link, and an update so many for each chunk of the image and twice more. -/
theorem bounded_effort {σ : Type} (E : Env Ask (Answer β) (Packet β) σ) (t : HostState β)
    (s s' : σ) (trace : List (Spoken (Packet β))) :
    (∀ c payload (p : Prog Ask (Answer β) (Packet β) (Except HostError (Packet β) × HostState β)),
      E.traced.Reaches (request cfg c payload t, s, []) (p, s', trace) →
        (sentIn trace).length ≤ effort cfg c) ∧
    ∀ image (p : Prog Ask (Answer β) (Packet β) (Except HostError Unit × HostState β)),
      E.traced.Reaches (cmdUpdate cfg image t, s, []) (p, s', trace) →
        (sentIn trace).length ≤ effort cfg .otaData * (chunkCount cfg image.length + 2) :=
  ⟨fun c payload _ hr => (sends_request cfg c payload t).reaches hr,
    fun image _ hr => (sends_cmdUpdate cfg image t).reaches hr⟩

end Effort

/-- Nobody answers. -/
def silence : Env Ask (Answer Octet) (Packet Octet) Unit where
  rely _ _ := False
  ask _ _ _ _ := True
  send _ _ _ := True
  recv _ _ r _ := r = none

/-- A PING to a device that is not there is sent twice. -/
theorem bounded_effort_silence :
    (sentIn [.sent (frame .ping 1 []), .sent (frame .ping 1 [] : Packet Octet)]).length ≤
      effort (⟨2, none⟩ : HostConfig Octet) .ping :=
  (bounded_effort (⟨2, none⟩ : HostConfig Octet) silence (.opened 0) () () _).1 .ping []
    (.ret (.error .timeout, .opened 1))
    (.head (b := (_, (), [.sent (frame .ping 1 [])])) (.send ⟨trivial, rfl⟩)
      (.head (b := (_, (), [.sent (frame .ping 1 [])])) (.recv ⟨rfl, rfl⟩)
        (.head (b := (_, (), [.sent (frame .ping 1 []), .sent (frame .ping 1 [])]))
          (.send ⟨trivial, rfl⟩)
          (.head (b := (_, (), [.sent (frame .ping 1 []), .sent (frame .ping 1 [])]))
            (.recv ⟨rfl, rfl⟩) .refl))))

end OtaLink
