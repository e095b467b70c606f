import OtaLink.Recovery

/-!
# One response to each request

Responses leave the device in three places: the dispatcher, the handshake and the replay
cache. Whatever the request, exactly one of them writes, once, and before a restart. A
NACK tells the client that the OTA session is as it was, or that it is gone.

## Main definitions

* `Refused` — the requests whose operation is not carried out.
* `one_response` — what the response to a request is.
* `refused_session` — what the OTA session is after a NACK.
-/

namespace OtaLink
open Lib

variable {β : Type} [Alphabet β]

/-! ## The session after a refusal -/

section Session
variable (esp : EspIdf β) (payload : List β) (s : OtaState β)

/-- The ESP-IDF call of `OTA_ABORT` or a step of `OTA_END` has failed, after the record has
given up its handle. -/
def EspIdf.Fails (s : OtaState β) : Command → Prop
  | .otaAbort => esp.otaAbort = false
  | .otaEnd => s.bytesReceived = s.firmwareSize ∧ (esp.otaEnd = false ∨
      esp.partitionSha256 ≠ some s.expectedSha256 ∨ esp.setBootPartition = false)
  | _ => False

theorem otaManagerBegin_refused (h : (otaManagerBegin esp payload).val s ≠ .ok) :
    (otaManagerBegin esp payload).state s = s := by
  rcases otaManagerBegin_cases esp payload s with ⟨-, hs, -⟩ |
    ⟨partition, handle, -, -, -, -, -, -, hok, -⟩
  · exact hs
  · exact absurd hok h

theorem otaManagerWriteData_refused (h : (otaManagerWriteData esp payload).val s ≠ .ok) :
    (otaManagerWriteData esp payload).state s = s := by
  rcases otaManagerWriteData_cases esp payload s with ⟨-, hs, -⟩ | ⟨-, -, -, hok, -⟩ |
    ⟨-, -, -, -, -, hok, -⟩
  · exact hs
  · exact absurd hok h
  · exact absurd hok h

theorem otaManagerAbort_refused (h : (otaManagerAbort esp).val s ≠ .ok) :
    (otaManagerAbort esp).state s = s ∨
      (otaManagerAbort esp).state s = .cleared ∧ s.active = true ∧ esp.Fails s .otaAbort := by
  rcases otaManagerAbort_cases esp s with ⟨-, -, hs, -⟩ | ⟨ha, hval, hs, -⟩
  · exact .inl hs
  · refine .inr ⟨hs, ha, ?_⟩
    rw [hval] at h
    cases hok : esp.otaAbort
    · exact hok
    · rw [hok] at h
      exact absurd rfl h

theorem otaManagerEnd_refused (h : (otaManagerEnd esp).val s ≠ .ok) :
    (otaManagerEnd esp).state s = s ∨
      (otaManagerEnd esp).state s = .cleared ∧ s.active = true ∧ esp.Fails s .otaEnd := by
  rcases otaManagerEnd_cases esp s with ⟨-, -, hs, -⟩ | ⟨ha, hb, hs, -⟩
  · exact .inl hs
  refine .inr ⟨hs, ha, hb, ?_⟩
  by_contra hall
  simp only [not_or, Bool.not_eq_false, not_not] at hall
  obtain ⟨hend, hsha, hboot⟩ := hall
  exact h (by simp [otaManagerEnd, ha, hb, hend, hsha, hboot])

/-- A command that is refused keeps the session, or has cleared it on the way. -/
theorem execute_refused {c : Command} {n : UInt16} (h : (execute esp s c n payload).error ≠ .ok) :
    (execute esp s c n payload).ota = s ∨
      (execute esp s c n payload).ota = .cleared ∧ s.active = true ∧ payload = [] ∧
        esp.Fails s c := by
  have hbare : ∀ (c : Command) (operation : OtaRoutine β ProtocolError),
      (operation.val s ≠ .ok → operation.state s = s ∨
        operation.state s = .cleared ∧ s.active = true ∧ esp.Fails s c) →
      (runOta c n true (fun _ => operation) s payload).error ≠ .ok →
      (runOta c n true (fun _ => operation) s payload).ota = s ∨
        (runOta c n true (fun _ => operation) s payload).ota = .cleared ∧ s.active = true ∧
          payload = [] ∧ esp.Fails s c := by
    intro c operation hop
    by_cases hempty : payload = []
    · subst hempty
      intro hne
      exact (hop hne).imp id fun h => ⟨h.1, h.2.1, rfl, h.2.2⟩
    · intro _
      left
      simp [runOta, hempty, Outcome.refused]
  cases c with
  | otaBegin => exact .inl (otaManagerBegin_refused esp payload s h)
  | otaData => exact .inl (otaManagerWriteData_refused esp payload s h)
  | otaAbort => exact hbare .otaAbort _ (otaManagerAbort_refused esp s) h
  | otaEnd => exact hbare .otaEnd _ (otaManagerEnd_refused esp s) h
  | reboot =>
    left
    simp only [execute]
    split_ifs <;> rfl
  | rollback =>
    left
    simp only [execute]
    split_ifs <;> rfl
  | _ => exact .inl rfl

end Session

/-! ## The response -/

section Response
variable {d : Device β} {esp : EspIdf β} {packet r : Packet β}

/-- The frame that a protected request is answered with, and what stands around it. -/
theorem handle_guarded_log {c : Command} (hv : packet.version = protocolVersion)
    (hc : packet.command = c.code) (hp : c.isProtected = true) :
    (∃ entry, d.auth.gate packet = .resend entry ∧
      d.handle esp packet = (d, [.send (entry.frame packet.sequence)])) ∨
    (d.auth.gate packet = .refuse .authRequired ∧ d.handle esp packet =
      (d.report packet .authRequired, [.send (d.reply packet .authRequired)])) ∨
    ∃ payload, d.auth.gate packet = .run payload ∧ d.handle esp packet =
      ({ d with ota := (execute esp d.ota c packet.sequence payload).ota }.report packet
          (execute esp d.ota c packet.sequence payload).error,
        (execute esp d.ota c packet.sequence payload).before ++
          .send (d.reply packet (execute esp d.ota c packet.sequence payload).error) ::
            (execute esp d.ota c packet.sequence payload).after) := by
  rw [handle_guarded esp hv hc hp, Device.answer, Device.answerWith]
  cases hg : d.auth.gate packet with
  | resend entry => exact .inl ⟨entry, rfl, rfl⟩
  | refuse error =>
    obtain rfl := error_of_refuse hg
    exact .inr (.inl ⟨rfl, rfl⟩)
  | run payload => exact .inr (.inr ⟨payload, rfl, rfl⟩)

/-- A reply is a NACK where it reports an error. -/
theorem ne_ok_of_reply {error : ProtocolError}
    (h : (d.reply packet error).command = Command.nack.code) : error ≠ .ok := by
  rintro rfl
  exact absurd h (by decide : Command.ack.code ≠ Command.nack.code)

/-- **A NACK leaves the OTA session as it was, or cleared.** It is cleared only by an
`OTA_ABORT` or an `OTA_END` that has passed the gate, on an active session, whose ESP-IDF
step or hash check has failed; the authenticated session goes on in either case. -/
theorem refused_session (hr : r ∈ sent (d.handle esp packet).2)
    (hnack : r.command = Command.nack.code) :
    ((d.handle esp packet).1.ota = d.ota ∨
      (d.handle esp packet).1.ota = .cleared ∧ d.ota.active = true ∧
        packet.version = protocolVersion ∧ d.auth.gate packet = .run [] ∧
        ((packet.command = Command.otaAbort.code ∧ esp.Fails d.ota .otaAbort) ∨
          (packet.command = Command.otaEnd.code ∧ esp.Fails d.ota .otaEnd))) ∧
    (d.handle esp packet).1.auth.required = d.auth.required ∧
    (d.handle esp packet).1.auth.authenticated = d.auth.authenticated ∧
    (d.handle esp packet).1.auth.sessionKey = d.auth.sessionKey := by
  have hh := handle_cases d esp packet
  generalize hx : d.handle esp packet = x at hh hr ⊢
  cases hh with
  | status => exact ⟨.inl rfl, rfl, rfl, rfl⟩
  | info =>
    obtain rfl := List.mem_singleton.mp hr
    exact absurd hnack (by decide : Command.info.code ≠ Command.nack.code)
  | challenge =>
    obtain rfl := List.mem_singleton.mp hr
    exact absurd hnack (by decide : Command.ack.code ≠ Command.nack.code)
  | proof =>
    obtain rfl := List.mem_singleton.mp hr
    exact absurd hnack (by decide : Command.ack.code ≠ Command.nack.code)
  | guarded c hv hc hp =>
    rw [← handle_guarded esp hv hc hp] at hr ⊢
    rcases @handle_guarded_log β _ d esp packet c hv hc hp with ⟨entry, -, heq⟩ |
      ⟨-, heq⟩ | ⟨payload, hg, heq⟩
    · rw [heq]
      exact ⟨.inl rfl, rfl, rfl, rfl⟩
    · rw [heq]
      simp [Device.report]
    · have hsent : r = d.reply packet (execute esp d.ota c packet.sequence payload).error := by
        rw [heq] at hr
        simpa [sent_of_isCall (isCall_of_execute esp d.ota payload c packet.sequence),
          sent_after_execute, Event.sent?] using hr
      have hne := ne_ok_of_reply (hsent ▸ hnack)
      rw [heq]
      refine ⟨?_, by simp [Device.report], by simp [Device.report], by simp [Device.report]⟩
      rcases execute_refused esp payload d.ota hne with h | ⟨h, ha, rfl, hfails⟩
      · exact .inl h
      · refine .inr ⟨h, ha, hv, hg, ?_⟩
        cases c with
        | otaAbort => exact .inl ⟨hc, hfails⟩
        | otaEnd => exact .inr ⟨hc, hfails⟩
        | _ => exact hfails.elim

/-- `OTA_END` before the image is complete. -/
theorem refused_session_end :
    (({ auth := .cleared, ota := { OtaState.cleared with active := true, firmwareSize := 4 } } :
        Device UInt8).handle (.succeeding ⟨0, 8⟩ []) (frame .otaEnd 1 [])).1.ota.active = true := by
  have h := @refused_session UInt8 _
    { auth := .cleared, ota := { OtaState.cleared with active := true, firmwareSize := 4 } }
    (.succeeding ⟨0, 8⟩ []) (frame .otaEnd 1 []) (nackFrame 1 .otaSizeError) (by decide) rfl
  rcases h.1 with h | ⟨-, -, -, -, h | ⟨-, h, -⟩⟩
  · rw [h]
  · exact absurd h.1 (by decide)
  · exact absurd h (by decide)

/-! ## Requests that are not carried out -/

/-- The commands that only responses carry. -/
def Command.isResponse : Command → Bool
  | .ack | .nack | .info => true
  | _ => false

/-- The operation that the request asks for is not carried out. -/
inductive Refused (d : Device β) (esp : EspIdf β) (packet : Packet β) : Prop
  | version (h : packet.version ≠ protocolVersion)
  | unknown (h : ∀ c, Command.ofCode? packet.command = some c → c.isResponse = true)
  /-- The description cannot be built. -/
  | info (hc : packet.command = Command.getInfo.code) (h : esp.infoPayload = [])
  | auth (hc : packet.command = Command.auth.code)
      (h : (authHandlePacket esp packet).val d.auth ≠ .ok)
  /-- The replay check or the tag check refuses. -/
  | gate (hp : authCommandIsProtected packet.command = true) {error : ProtocolError}
      (h : d.auth.gate packet = .refuse error)
  | command (c : Command) (hc : packet.command = c.code) (hp : c.isProtected = true)
      {payload : List β} (hg : d.auth.gate packet = .run payload)
      (h : (execute esp d.ota c packet.sequence payload).error ≠ .ok)

/-- A reply that reports an error is a NACK. -/
theorem command_reply {error : ProtocolError} (h : error ≠ .ok) :
    (d.reply packet error).command = Command.nack.code := by
  rw [Device.reply, responseFor_of_ne h]
  rfl

/-- A request that is not carried out is answered with a NACK. -/
theorem nack_of_refused (h : Refused d esp packet) :
    ∃ r, sent (d.handle esp packet).2 = [r] ∧ r.command = Command.nack.code := by
  by_cases hv : packet.version = protocolVersion
  swap
  · refine ⟨nackFrame packet.sequence .invalidPacket, ?_, rfl⟩
    simp [Device.handle, commandsHandlePacket, hv, Event.sent?]
  -- A guarded request is refused by the gate or by its command.
  have hguarded : ∀ c : Command, packet.command = c.code → c.isProtected = true →
      (∀ entry, d.auth.gate packet ≠ .resend entry) →
      (∀ payload, d.auth.gate packet = .run payload →
        (execute esp d.ota c packet.sequence payload).error ≠ .ok) →
      ∃ r, sent (d.handle esp packet).2 = [r] ∧ r.command = Command.nack.code := by
    intro c hc hp hresend hrun
    rcases @handle_guarded_log β _ d esp packet c hv hc hp with ⟨entry, hg, -⟩ |
      ⟨-, heq⟩ | ⟨payload, hg, heq⟩
    · exact absurd hg (hresend entry)
    · rw [heq]
      exact ⟨_, rfl, command_reply (by decide)⟩
    · rw [heq]
      refine ⟨d.reply packet _, ?_, command_reply (hrun payload hg)⟩
      simp [sent_of_isCall (isCall_of_execute esp d.ota payload c packet.sequence),
        sent_after_execute, Event.sent?]
  cases h with
  | version h => exact absurd hv h
  | unknown h =>
    refine ⟨nackFrame packet.sequence .unknownCommand, ?_, rfl⟩
    cases hc : Command.ofCode? packet.command with
    | none => simp [Device.handle, commandsHandlePacket, hv, hc, Event.sent?]
    | some c =>
      have hresponse := h c hc
      cases c <;> first
        | exact absurd hresponse (by decide)
        | simp [Device.handle, commandsHandlePacket, hv, hc, Event.sent?]
  | info hc h =>
    refine ⟨nackFrame packet.sequence .invalidLength, ?_, rfl⟩
    simp [Device.handle, commandsHandlePacket, hv, hc, h, Event.sent?]
  | auth hc h =>
    refine ⟨nackFrame packet.sequence ((authHandlePacket esp packet).val d.auth), ?_, rfl⟩
    rcases authHandlePacket_cases esp packet d.auth with
      ⟨-, hs, hl⟩ | ⟨-, -, hok, -⟩ | ⟨-, -, -, hok, -⟩
    · simp [Device.handle, commandsHandlePacket, hv, hc, h, hl, Event.sent?]
    · exact absurd hok h
    · exact absurd hok h
  | gate hp h =>
    obtain ⟨-, c, hc, hp⟩ := @exists_command_of_isGuarded β packet
      (by simp [Packet.isGuarded, hv, hp])
    exact hguarded c hc hp (fun entry hg => by rw [h] at hg; cases hg) fun payload hg => by
      rw [h] at hg
      cases hg
  | command c hc hp hg h =>
    refine hguarded c hc hp (fun entry hg' => by rw [hg] at hg'; cases hg') fun payload hg' => ?_
    rw [hg] at hg'
    cases hg'
    exact h

/-- What stands around the response: nothing is sent twice, and nothing restarts before it. -/
theorem handle_log (d : Device β) (esp : EspIdf β) (packet : Packet β) :
    ∃ before r after, (d.handle esp packet).2 = before ++ .send r :: after ∧
      (∀ e ∈ before, e.isCall = true) ∧ sent after = [] := by
  have hh := handle_cases d esp packet
  generalize hx : d.handle esp packet = x at hh
  cases hh with
  | status | info | challenge | proof => exact ⟨[], _, [], rfl, by simp, rfl⟩
  | guarded c hv hc hp =>
    rw [← handle_guarded esp hv hc hp]
    rcases @handle_guarded_log β _ d esp packet c hv hc hp with ⟨entry, -, heq⟩ |
      ⟨-, heq⟩ | ⟨payload, -, heq⟩
    · exact ⟨[], _, [], by rw [heq]; rfl, by simp, rfl⟩
    · exact ⟨[], _, [], by rw [heq]; rfl, by simp, rfl⟩
    · exact ⟨_, _, _, by rw [heq], isCall_of_execute esp d.ota payload c packet.sequence,
        sent_after_execute ..⟩

/-- In a session every response to a protected request carries its tag. -/
theorem tag_of_guarded (hcache : SoundCache d.auth) (hv : packet.version = protocolVersion)
    (hp : authCommandIsProtected packet.command = true) (hr : d.auth.required = true)
    (ha : d.auth.authenticated = true) (hsent : sent (d.handle esp packet).2 = [r]) :
    ∃ body, r.payload = body ++
      responseTag d.auth.sessionKey packet.command r.command packet.sequence body := by
  have hreply : ∀ error, ∃ body, (d.reply packet error).payload = body ++ responseTag
      d.auth.sessionKey packet.command (d.reply packet error).command packet.sequence body := by
    intro error
    have hsigns : d.auth.signs packet.command = true := by simp [AuthState.signs, hr, ha, hp]
    refine ⟨statusPayload error, ?_⟩
    rw [Device.reply, AuthState.response, if_pos hsigns]
    rfl
  obtain ⟨-, c, hc, hp⟩ := @exists_command_of_isGuarded β packet
    (by simp [Packet.isGuarded, hv, hp])
  rcases @handle_guarded_log β _ d esp packet c hv hc hp with ⟨entry, hg, heq⟩ |
    ⟨-, heq⟩ | ⟨payload, -, heq⟩
  · rw [heq] at hsent
    obtain rfl : entry.frame packet.sequence = r := by simpa [Event.sent?] using hsent
    obtain ⟨hmem, hcommand, hsequence, -⟩ := mem_of_duplicate (lookup_of_resend hg).2.2
    obtain ⟨m, error, rfl, -⟩ := hcache entry hmem
    rw [← hcommand, ← hsequence]
    exact ⟨statusPayload error, rfl⟩
  · rw [heq] at hsent
    obtain rfl : d.reply packet .authRequired = r := by simpa [Event.sent?] using hsent
    exact hreply _
  · rw [heq] at hsent
    obtain rfl : d.reply packet (execute esp d.ota c packet.sequence payload).error = r := by
      simpa [sent_of_isCall (isCall_of_execute esp d.ota payload c packet.sequence),
        sent_after_execute, Event.sent?] using hsent
    exact hreply _

/-- A response is an ACK, a NACK or an INFO. -/
theorem command_of_sent (hcache : SoundCache d.auth) (hsent : sent (d.handle esp packet).2 = [r]) :
    r.command = Command.ack.code ∨ r.command = Command.nack.code ∨
      r.command = Command.info.code := by
  have hfor : ∀ error, (responseFor error).code = Command.ack.code ∨
      (responseFor error).code = Command.nack.code ∨
        (responseFor error).code = Command.info.code := by
    intro error
    by_cases h : error = .ok
    · exact .inl (by rw [h]; rfl)
    · exact .inr (.inl (by rw [responseFor_of_ne h]))
  have hh := handle_cases d esp packet
  generalize hx : d.handle esp packet = x at hh hsent
  cases hh with
  | status error =>
    cases hsent
    exact hfor error
  | info =>
    cases hsent
    exact .inr (.inr rfl)
  | challenge | proof =>
    cases hsent
    exact .inl rfl
  | guarded c hv hc hp =>
    rw [← handle_guarded esp hv hc hp] at hsent
    rcases @handle_guarded_log β _ d esp packet c hv hc hp with ⟨entry, hg, heq⟩ |
      ⟨-, heq⟩ | ⟨payload, -, heq⟩ <;> rw [heq] at hsent
    · cases hsent
      obtain ⟨m, error, rfl, -⟩ := hcache entry (mem_of_duplicate (lookup_of_resend hg).2.2).1
      exact hfor error
    · cases hsent
      exact hfor .authRequired
    · obtain rfl : d.reply packet (execute esp d.ota c packet.sequence payload).error = r := by
        simpa [sent_of_isCall (isCall_of_execute esp d.ota payload c packet.sequence),
          sent_after_execute, Event.sent?] using hsent
      exact hfor (execute esp d.ota c packet.sequence payload).error

end Response

/-- **One request, one response.** A device that has been started and has then handled
anything answers every packet with exactly one frame, before any restart. It has the sequence
number of the packet and is an ACK, a NACK or an INFO, a NACK where the request is not carried
out; in an authenticated session a protected request gets the tag of its response, also
where the response comes from the replay cache. -/
theorem one_response {config : OtaLinkConfig β} {d₀ : Device β}
    (hstart : otaLinkStartWithConfig config = some d₀) (history : List (Stimulus β))
    (esp : EspIdf β) (packet : Packet β) :
    ∃ before r after, ((d₀.run history).1.handle esp packet).2 = before ++ .send r :: after ∧
      sent before = [] ∧ before.any Event.reboots = false ∧ sent after = [] ∧
      r.sequence = packet.sequence ∧
      (r.command = Command.ack.code ∨ r.command = Command.nack.code ∨
        r.command = Command.info.code) ∧
      (Refused (d₀.run history).1 esp packet → r.command = Command.nack.code) ∧
      (packet.version = protocolVersion → authCommandIsProtected packet.command = true →
        (d₀.run history).1.auth.required = true → (d₀.run history).1.auth.authenticated = true →
        ∃ body, r.payload = body ++ responseTag (d₀.run history).1.auth.sessionKey packet.command
          r.command packet.sequence body) := by
  have hempty : d₀.auth.replayCache = .empty 8 := by
    rw [← restarted_otaLinkStartWithConfig hstart]
    rfl
  have hcache := soundCache_run (soundCache_empty hempty) history
  generalize (d₀.run history).1 = d at hcache ⊢
  obtain ⟨before, r, after, hlog, hcalls, hafter⟩ := handle_log d esp packet
  have hsent : sent (d.handle esp packet).2 = [r] := by
    rw [hlog, sent_append, sent_of_isCall hcalls, sent_cons, hafter]
    rfl
  obtain ⟨r', hr', hsequence⟩ := sent_handle d esp packet
  obtain rfl := List.singleton_inj.mp (hsent.symm.trans hr')
  refine ⟨before, r, after, hlog, sent_of_isCall hcalls, any_reboots_of_isCall hcalls, hafter,
    hsequence, command_of_sent hcache hsent, fun hrefused => ?_, fun hv hp hr ha =>
      tag_of_guarded hcache hv hp hr ha hsent⟩
  obtain ⟨r', hr', hnack⟩ := nack_of_refused hrefused
  obtain rfl := List.singleton_inj.mp (hsent.symm.trans hr')
  exact hnack

/-- An `OTA_ABORT` that is delivered twice in a session. -/
def abortTwice : List (Stimulus Octet) :=
  handshake ++ [.packet (taggedRequest .otaAbort 3 []) sampleEsp]

/-- Its second response, from the cache, carries the tag of the session. -/
theorem one_response_cached : ∃ r body,
    sent ((lockedDevice.run abortTwice).1.handle sampleEsp (taggedRequest .otaAbort 3 [])).2 = [r] ∧
    r.payload = body ++ responseTag (lockedDevice.run abortTwice).1.auth.sessionKey
      Command.otaAbort.code r.command 3 body := by
  obtain ⟨before, r, after, hlog, hbefore, -, hafter, -, -, -, htag⟩ :=
    @one_response Octet _ ⟨some (pskOctets 1), true⟩ lockedDevice rfl abortTwice sampleEsp
      (taggedRequest .otaAbort 3 [])
  obtain ⟨body, hbody⟩ := htag rfl rfl rfl (by decide +kernel)
  refine ⟨r, body, ?_, hbody⟩
  rw [hlog, sent_append, sent_cons, hbefore, hafter]
  rfl

end OtaLink
