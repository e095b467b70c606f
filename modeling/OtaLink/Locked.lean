import OtaLink.Attacker

/-!
# A device that requires authentication

One packet does one of five things to a locked device: it gets a public answer, draws a new
nonce pair, proves the current one, gets a stored response again, or gets a response under
the session key, after at most one execution.

## Main definitions

* `mem_events_execute` — a command executes under its own name what it was given.
* `carriedOut_of_step` — and it makes its platform calls where it reports no error.
* `LockedStep`, `step_locked` — all that one packet can do to a locked device.
-/

namespace OtaLink
open Lib

/-! ## Executions -/

section Operate
variable {β : Type} [Alphabet β] (esp : EspIdf β) (ota : OtaState β) (payload : List β)

theorem isOperate_otaManagerBegin :
    ∀ e ∈ (otaManagerBegin esp payload).log ota, e.isOperate = false := by
  rcases otaManagerBegin_cases esp payload ota with ⟨-, -, h⟩ | ⟨p, n, -, -, -, -, -, -, -, -, h⟩
  · intro e he
    rcases h e he with ⟨r, rfl⟩ | ⟨p, n, rfl⟩ <;> rfl
  · simp [h, Event.isOperate]

theorem isOperate_otaManagerWriteData :
    ∀ e ∈ (otaManagerWriteData esp payload).log ota, e.isOperate = false := by
  rcases otaManagerWriteData_cases esp payload ota with
    ⟨-, -, h⟩ | ⟨-, -, -, -, -, h⟩ | ⟨-, -, -, -, -, -, -, h⟩
  · intro e he
    obtain ⟨n, d, rfl⟩ := h e he
    rfl
  · simp [h]
  · simp [h, Event.isOperate]

theorem isOperate_otaManagerAbort :
    ∀ e ∈ (otaManagerAbort esp).log ota, e.isOperate = false := by
  rcases otaManagerAbort_cases esp ota with ⟨-, -, -, h⟩ | ⟨-, -, -, h⟩ <;>
    simp [h, Event.isOperate]

theorem isOperate_otaManagerEnd : ∀ e ∈ (otaManagerEnd esp).log ota, e.isOperate = false := by
  rcases otaManagerEnd_cases esp ota with
    ⟨-, -, -, h⟩ | ⟨-, -, -, ⟨-, h⟩ | ⟨-, r, -, h⟩ | ⟨-, h⟩⟩ <;> simp [h, Event.isOperate]

/-- The events of a command, before and after its response. -/
def Outcome.events (o : Outcome β) : List (Event β) := o.before ++ o.after

variable {ota payload}

omit [Alphabet β] in
theorem mem_events_runOta {c : Command} {n : UInt16} {bare : Bool}
    {operation : List β → OtaRoutine β ProtocolError}
    (h : ∀ e ∈ (operation payload).log ota, e.isOperate = false) :
    (∀ e ∈ (runOta c n bare operation ota payload).events, e.isOperate = true →
      e = .operate c n payload (runOta c n bare operation ota payload).error) ∧
    ((runOta c n bare operation ota payload).error = .ok →
      .operate c n payload .ok ∈ (runOta c n bare operation ota payload).events) := by
  unfold runOta
  split
  · simp [Outcome.refused, Outcome.events]
  · simp only [Outcome.operated, Outcome.events, List.append_nil]
    refine ⟨fun e he ho => ?_, fun hok => by simp [hok]⟩
    rcases List.mem_append.mp he with he | he
    · simp [h e he] at ho
    · exact List.mem_singleton.mp he

/-- **One execution.** A command runs under its own name, on its own payload, with the error
it reports, and where it reports none it has run. -/
theorem mem_events_execute {c : Command} (hp : c.isProtected = true) (n : UInt16) :
    (∀ e ∈ (execute esp ota c n payload).events, e.isOperate = true →
      e = .operate c n payload (execute esp ota c n payload).error) ∧
    ((execute esp ota c n payload).error = .ok →
      .operate c n payload .ok ∈ (execute esp ota c n payload).events) := by
  cases c with
  | otaBegin => exact mem_events_runOta (isOperate_otaManagerBegin esp ota payload)
  | otaData => exact mem_events_runOta (isOperate_otaManagerWriteData esp ota payload)
  | otaAbort => exact mem_events_runOta (isOperate_otaManagerAbort esp ota)
  | otaEnd => exact mem_events_runOta (isOperate_otaManagerEnd esp ota)
  | reboot =>
    simp only [execute]
    split_ifs <;> simp [Outcome.refused, Outcome.events, Event.isOperate]
  | rollback =>
    simp only [execute]
    split_ifs <;> simp [Outcome.refused, Outcome.events, Event.isOperate]
  | _ => exact absurd hp (by decide)

/-! ## Platform calls -/

/-- A command of `ota_manager.c` makes the platform calls of its operation. -/
theorem carriedOut_runOta {c : Command} {n : UInt16} {bare : Bool}
    {operation : List β → OtaRoutine β ProtocolError}
    (h : (runOta c n bare operation ota payload).error = .ok)
    (hop : (operation payload).val ota = .ok →
      c.CarriedOut ota payload ((operation payload).log ota)) :
    c.CarriedOut ota payload (runOta c n bare operation ota payload).events := by
  unfold runOta at h ⊢
  split
  · rename_i hb
    simp [hb, Outcome.refused] at h
  · rename_i hb
    rw [if_neg hb] at h
    exact (hop h).mono fun e he => by simp [Outcome.operated, Outcome.events, he]

/-- **Success is carried out.** A command that reports no error has made its platform calls. -/
theorem carriedOut_execute {c : Command} {n : UInt16}
    (h : (execute esp ota c n payload).error = .ok) :
    c.CarriedOut ota payload (execute esp ota c n payload).events := by
  cases c with
  | otaBegin =>
    refine carriedOut_runOta h fun hok => ?_
    rcases otaManagerBegin_cases esp payload ota with ⟨hne, -⟩ | ⟨p, a, -, -, -, -, -, -, -, -, hl⟩
    · exact absurd hok hne
    · exact ⟨p, a, by simp [hl]⟩
  | otaData =>
    refine carriedOut_runOta h fun hok => ?_
    rcases otaManagerWriteData_cases esp payload ota with
      ⟨hne, -⟩ | ⟨-, -, hlast, -⟩ | ⟨-, -, -, -, -, -, -, hl⟩
    · exact absurd hok hne
    · exact .inr hlast
    · exact .inl (by simp [hl])
  | otaEnd =>
    refine carriedOut_runOta h fun hok => ?_
    rcases otaManagerEnd_cases esp ota with
      ⟨-, hne, -⟩ | ⟨-, -, -, ⟨hne, -⟩ | ⟨hne, -⟩ | ⟨hv, hl⟩⟩
    · exact absurd hok hne
    · exact absurd hok hne
    · exact absurd hok hne
    · have hset : esp.setBootPartition = true := by
        by_contra hset
        simp [hv, hset] at hok
      rw [hl, hset]
      simp [Command.CarriedOut]
  | otaAbort =>
    refine carriedOut_runOta h fun hok => ?_
    rcases otaManagerAbort_cases esp ota with ⟨-, hv, -⟩ | ⟨-, hv, -, hl⟩
    · simp [hv] at hok
    · have habort : esp.otaAbort = true := by
        by_contra habort
        simp [hv, habort] at hok
      rw [hl, habort]
      simp [Command.CarriedOut]
  | reboot =>
    simp only [execute] at h ⊢
    split_ifs at h ⊢ <;> simp_all [Outcome.refused, Outcome.events, Command.CarriedOut]
  | rollback =>
    simp only [execute] at h ⊢
    split_ifs at h ⊢ <;> simp_all [Outcome.refused, Outcome.events, Command.CarriedOut]
  | _ => simp [execute, Outcome.refused] at h

/-- The device has made the platform calls of every command that it notes as run without an
error. -/
theorem carriedOut_of_step {d : Device β} {m : Packet β} {c : Command} {n : UInt16}
    (h : .operate c n payload .ok ∈ (d.step esp m).2) :
    c.CarriedOut d.ota payload (d.step esp m).2 := by
  have hstep := step_cases d esp m
  generalize d.step esp m = x at hstep h ⊢
  cases hstep with
  | status | info | challenge | proof | resend | refuse => simp at h
  | @run c' _ _ hp payload' _ o ho =>
    have hmem : .operate c n payload .ok ∈ o.events := by
      simpa [Outcome.events] using h
    rw [← ho] at hmem
    have heq := (mem_events_execute esp hp m.sequence).1 _ hmem rfl
    simp only [Event.operate.injEq] at heq
    obtain ⟨rfl, -, rfl, herror⟩ := heq
    refine (carriedOut_execute esp herror.symm).mono fun e he => ?_
    rw [ho] at he
    rcases List.mem_append.mp he with he | he <;> simp [he]

end Operate

/-! ## The device -/

section Locked
variable {β : Type} [Alphabet β]

/-- All that one packet can do to a device that requires authentication. -/
inductive LockedStep (d : Device β) (esp : EspIdf β) (m : Packet β) :
    AuthState β → List (Event β) → Prop
  /-- A response that carries neither a proof nor a tag. -/
  | plain {r : Packet β} {events : List (Event β)} (hm : m.draws = false)
      (hs : sent events = [r])
      (hr : r.payload = esp.infoPayload ∨ ∃ error, r.payload = statusPayload error)
      (ho : ∀ e ∈ events, e.isOperate = false) : LockedStep d esp m d.auth events
  | challenge (hm : m.draws = true) (hn : m.payload.length = authNonceSize) :
      LockedStep d esp m
        (d.auth.challenged m.payload esp.fillRandom hn esp.length_fillRandom)
        [.receive m, .send (frame .ack m.sequence (statusPayload .ok ++ esp.fillRandom ++
          deviceProofOf d.auth.key m.payload esp.fillRandom))]
  | proof (hm : m.draws = false) (hs : d.auth.pending = true ∨ d.auth.authenticated = true)
      (hpay : m.payload = d.auth.pair.proof d.auth.key) :
      LockedStep d esp m d.auth.proved [.receive m, .send (ackFrame m.sequence)]
  | resent {entry : ReplayEntry β} (hm : m.draws = false)
      (ha : d.auth.authenticated = true) (hentry : entry ∈ d.auth.replayCache.entries)
      (hn : entry.sequence = m.sequence) :
      LockedStep d esp m d.auth [.receive m, .send (entry.frame m.sequence)]
  /-- A response under the session key, after at most one execution. -/
  | answered {c : Command} {error : ProtocolError} {s : AuthState β} {events : List (Event β)}
      (hm : m.draws = false) (hp : c.isProtected = true) (ha : d.auth.authenticated = true)
      (hs : sent events = [signed d.auth.sessionKey c m.sequence error])
      (hauth : s = d.restarted.auth ∨ m.command = c.code ∧
        s = d.auth.remember m (responseFor error) (statusPayload error))
      (ho : ∀ e ∈ events, e.isOperate = true → ∃ payload,
        m = tagged d.auth.sessionKey c m.sequence payload ∧
          e = .operate c m.sequence payload error)
      (hok : error = .ok → ∃ payload, .operate c m.sequence payload .ok ∈ events) :
      LockedStep d esp m s events

/-- An authenticated device signs what it reports. -/
theorem reply_eq_signed {d : Device β} {m : Packet β} {c : Command}
    (hr : d.auth.required = true) (ha : d.auth.authenticated = true) (hc : m.command = c.code)
    (hp : c.isProtected = true) (error : ProtocolError) :
    d.reply m error = signed d.auth.sessionKey c m.sequence error := by
  have hs : d.auth.signs m.command = true := by simp [AuthState.signs, hr, ha, hc, hp]
  rw [Device.reply, AuthState.response, if_pos hs, hc]
  rfl

theorem eq_tagged {m : Packet β} {key payload : List β} {c : Command}
    (hv : m.version = protocolVersion) (hc : m.command = c.code)
    (hpay : m.payload = payload ++ requestTag key c.code m.sequence payload) :
    m = tagged key c m.sequence payload := by
  cases m
  simp_all [tagged, frame]

theorem step_locked {d : Device β} (hr : d.auth.required = true) (esp : EspIdf β)
    (m : Packet β) : LockedStep d esp m (d.step esp m).1.auth (d.step esp m).2 := by
  by_cases hm : m.draws = true
  · obtain ⟨hv, hc, hn⟩ : m.version = protocolVersion ∧ m.command = Command.auth.code ∧
        m.payload.length = authNonceSize := by
      simpa [Packet.draws, Packet.isChallenge] using hm
    rw [step_of_send (handle_challenge esp hv hc hr hn)]
    exact .challenge hm hn
  have hm : m.draws = false := by simpa using hm
  by_cases hv : m.version = protocolVersion
  swap
  · have hnack : d.handle esp m = (d, [.send (nackFrame m.sequence .invalidPacket)]) := by
      simp [Device.handle, commandsHandlePacket, hv]
    rw [step_of_send hnack]
    exact .plain hm rfl (.inr ⟨_, rfl⟩) (by simp [Event.isOperate])
  have hstep := step_cases d esp m
  generalize hx : d.step esp m = x at hstep
  cases hstep with
  | status error => exact .plain hm rfl (.inr ⟨_, rfl⟩) (by simp [Event.isOperate])
  | info => exact .plain hm rfl (.inl rfl) (by simp [Event.isOperate])
  | challenge hc _ hn => simp [Packet.draws, Packet.isChallenge, hv, hc, hn] at hm
  | proof hc hs hpay => exact .proof hm hs hpay
  | resend _ _ _ _ hg =>
    obtain ⟨-, ha, hl⟩ := lookup_of_resend hg
    obtain ⟨hentry, -, hn, -⟩ := mem_of_duplicate hl
    exact .resent hm ha hentry hn
  | refuse c _ hc hp hg =>
    obtain rfl := error_of_refuse hg
    by_cases ha : d.auth.authenticated = true
    · refine @LockedStep.answered _ _ d esp m c .authRequired _ _ hm hp ha ?_ (.inr ⟨hc, rfl⟩)
        (by simp [Event.isOperate]) (by simp)
      rw [reply_eq_signed hr ha hc hp]
      rfl
    · -- Without a session the refusal is not signed.
      have hs : d.auth.signs m.command = false := by simp [AuthState.signs, ha]
      simp only [Device.report, Device.reply, AuthState.remember, AuthState.response, hs,
        Bool.false_eq_true, if_false]
      exact .plain hm rfl (.inr ⟨_, rfl⟩) (by simp [Event.isOperate])
  | @run c _ hc hp payload hg o ho =>
    obtain ⟨ha, -, hu⟩ := lookup_of_run hg hr
    have hs : d.auth.signs m.command = true := by simp [AuthState.signs, hr, ha, hc, hp]
    have hpay := ((authUnwrapPacket_eq_ok hs).mp hu).1
    have htagged : m = tagged d.auth.sessionKey c m.sequence payload := by
      rw [hc] at hpay
      exact eq_tagged hv hc hpay
    obtain ⟨hmem, hok⟩ := @mem_events_execute _ _ esp d.ota payload c hp m.sequence
    have hsent := sent_step_of_run esp hv hc hp hg
    rw [reply_eq_signed hr ha hc hp, hx, ho] at hsent
    rw [ho] at hmem hok
    refine .answered hm hp ha hsent ?_ ?_ ?_
    · dsimp only
      split
      · exact .inl (by simp [Device.restarted, Device.report])
      · exact .inr ⟨hc, rfl⟩
    · intro e he hoperate
      refine ⟨payload, htagged, hmem e ?_ hoperate⟩
      simp only [List.mem_cons, List.mem_append] at he
      rcases he with rfl | he | rfl | he
      · cases hoperate
      · exact List.mem_append_left _ he
      · cases hoperate
      · exact List.mem_append_right _ he
    · intro herror
      refine ⟨payload, ?_⟩
      rcases List.mem_append.mp (hok herror) with he | he <;> simp [he]

end Locked

end OtaLink
