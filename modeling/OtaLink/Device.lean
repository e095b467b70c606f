import OtaLink.Commands

/-!
# The device over whole runs

`ota_link_start_with_config` configures the static state once; after that the
command loop hands one packet after another to the dispatcher. All state is in RAM,
so a restart returns to the configured start state, whether the dispatcher asked for
it or the device lost power.

## Main definitions

* `otaLinkStartWithConfig` — the start state of a configuration.
* `Device.step` — one packet, with the restart it may end in.
* `step_cases` — all that one packet can do.
* `Device.run` — the state and the trace after a list of stimuli.
-/

namespace OtaLink
open Lib

variable {β : Type} [Alphabet β]

/-- The fields of `ota_link_config_t` that reach the static state. -/
structure OtaLinkConfig (β : Type) where
  authKey : Option (List β)
  requireAuthentication : Bool

/-- The start state, or `none` where the configuration is refused. -/
def otaLinkStartWithConfig (config : OtaLinkConfig β) : Option (Device β) :=
  if config.requireAuthentication &&
      (config.authKey.elim true fun key =>
        key.length == 0 || decide (key.length > authKeyMaxSize)) then
    none
  else some ⟨authConfigure config.authKey config.requireAuthentication, .cleared⟩

/-- The state after a restart: RAM is cleared and the same image configures the same
key again. -/
def Device.restarted (d : Device β) : Device β where
  auth := { AuthState.cleared with key := d.auth.key, required := d.auth.required }
  ota := .cleared

@[simp] theorem restarted_restarted (d : Device β) : d.restarted.restarted = d.restarted := rfl
@[simp] theorem ota_restarted (d : Device β) : d.restarted.ota = .cleared := rfl

/-- Every start state is the one a restart returns to. -/
theorem restarted_otaLinkStartWithConfig {config : OtaLinkConfig β} {d : Device β}
    (h : otaLinkStartWithConfig config = some d) : d.restarted = d := by
  unfold otaLinkStartWithConfig at h
  split at h
  · cases h
  · cases h
    unfold authConfigure
    split
    · rfl
    · split <;> rfl

/-- A device that requires authentication has started with a key. -/
theorem otaLinkStartWithConfig_required {config : OtaLinkConfig β} {d : Device β}
    (h : otaLinkStartWithConfig config = some d) (hr : config.requireAuthentication = true) :
    d.auth.required = true ∧ config.authKey = some d.auth.key ∧ 0 < d.auth.key.length ∧
      d.auth.key.length ≤ authKeyMaxSize := by
  unfold otaLinkStartWithConfig at h
  cases hk : config.authKey with
  | none => simp [hr, hk] at h
  | some key =>
    simp only [hr, hk, Option.elim_some, Bool.true_and] at h
    split at h
    · cases h
    · rename_i hlen
      simp only [Bool.or_eq_true, beq_iff_eq, decide_eq_true_eq, not_or] at hlen
      cases h
      rw [authConfigure, if_neg (by omega)]
      refine ⟨rfl, rfl, ?_, ?_⟩
      · show 0 < key.length
        omega
      · show key.length ≤ authKeyMaxSize
        omega

/-- Handle one packet and restart where the dispatcher asked for it. -/
def Device.step (d : Device β) (esp : EspIdf β) (packet : Packet β) :
    Device β × List (Event β) :=
  let r := d.handle esp packet
  (if r.2.any Event.reboots then r.1.restarted else r.1, .receive packet :: r.2)

/-- A packet that is only answered restarts nothing. -/
theorem step_of_send {d d' : Device β} {esp : EspIdf β} {packet r : Packet β}
    (h : d.handle esp packet = (d', [.send r])) :
    d.step esp packet = (d', [.receive packet, .send r]) := by
  simp [Device.step, h, Event.reboots]

/-- A ping is acknowledged and changes nothing. -/
theorem step_ping (d : Device β) (esp : EspIdf β) (n : UInt16) :
    d.step esp (frame .ping n []) = (d, [.receive (frame .ping n []), .send (ackFrame n)]) := by
  refine step_of_send ?_
  simp [Device.handle, commandsHandlePacket, frame, ackFrame]

/-- What reaches the device. -/
inductive Stimulus (β : Type)
  | packet (packet : Packet β) (esp : EspIdf β)
  | reset

def Device.after (d : Device β) : Stimulus β → Device β × List (Event β)
  | .packet packet esp => d.step esp packet
  | .reset => (d.restarted, [.reset])

/-- The device and the trace after the stimuli, one after another. -/
def Device.run (d : Device β) : List (Stimulus β) → Device β × List (Event β)
  | [] => (d, [])
  | x :: xs => (((d.after x).1.run xs).1, (d.after x).2 ++ ((d.after x).1.run xs).2)

theorem Device.run_append (d : Device β) (xs ys : List (Stimulus β)) :
    d.run (xs ++ ys) =
      (((d.run xs).1.run ys).1, (d.run xs).2 ++ ((d.run xs).1.run ys).2) := by
  induction xs generalizing d with
  | nil => rfl
  | cons x xs ih => simp [Device.run, ih]

/-- **The run rule.** A relation between device and trace that every stimulus of the
run keeps holds after the run. -/
theorem Device.run_induction {I : Device β → List (Event β) → Prop} {d : Device β}
    (xs : List (Stimulus β)) (h₀ : I d [])
    (hstep : ∀ d trace, ∀ x ∈ xs, I d trace → I (d.after x).1 (trace ++ (d.after x).2)) :
    I (d.run xs).1 (d.run xs).2 := by
  suffices ∀ ys d trace, (∀ x ∈ ys, x ∈ xs) → I d trace →
      I (d.run ys).1 (trace ++ (d.run ys).2) by simpa using this xs d [] (fun _ h => h) h₀
  intro ys
  induction ys with
  | nil => intro d trace _ h; simpa [Device.run] using h
  | cons y ys ih =>
    intro d trace hmem h
    have := ih _ _ (fun x hx => hmem x (List.mem_cons_of_mem y hx))
      (hstep d trace y (hmem y List.mem_cons_self) h)
    simpa [Device.run] using this

/-! ## What a step keeps -/

section Remember
variable (s : AuthState β) (packet : Packet β) (c : Command) (payload : List β)

@[simp] theorem key_remember : (s.remember packet c payload).key = s.key := by
  unfold AuthState.remember; split <;> rfl
@[simp] theorem required_remember : (s.remember packet c payload).required = s.required := by
  unfold AuthState.remember; split <;> rfl
@[simp] theorem pending_remember : (s.remember packet c payload).pending = s.pending := by
  unfold AuthState.remember; split <;> rfl
@[simp] theorem authenticated_remember :
    (s.remember packet c payload).authenticated = s.authenticated := by
  unfold AuthState.remember; split <;> rfl
@[simp] theorem clientNonce_remember :
    (s.remember packet c payload).clientNonce = s.clientNonce := by
  unfold AuthState.remember; split <;> rfl
@[simp] theorem serverNonce_remember :
    (s.remember packet c payload).serverNonce = s.serverNonce := by
  unfold AuthState.remember; split <;> rfl
@[simp] theorem sessionKey_remember :
    (s.remember packet c payload).sessionKey = s.sessionKey := by
  unfold AuthState.remember; split <;> rfl

end Remember

@[simp] theorem ota_report (d : Device β) (packet : Packet β) (error : ProtocolError) :
    (d.report packet error).ota = d.ota := rfl

section Calls
variable (esp : EspIdf β) (ota : OtaState β) (payload : List β)

theorem isCall_of_otaManagerBegin :
    ∀ e ∈ (otaManagerBegin esp payload).log ota, e.isCall = true := by
  rcases otaManagerBegin_cases esp payload ota with ⟨-, -, h⟩ | ⟨p, n, -, -, -, -, -, -, -, -, h⟩
  · intro e he
    rcases h e he with ⟨r, rfl⟩ | ⟨p, n, rfl⟩ <;> rfl
  · simp [h, Event.isCall]

theorem isCall_of_otaManagerWriteData :
    ∀ e ∈ (otaManagerWriteData esp payload).log ota, e.isCall = true := by
  rcases otaManagerWriteData_cases esp payload ota with
    ⟨-, -, h⟩ | ⟨-, -, -, -, -, h⟩ | ⟨-, -, -, -, -, -, -, h⟩
  · intro e he
    obtain ⟨n, d, rfl⟩ := h e he
    rfl
  · simp [h]
  · simp [h, Event.isCall]

theorem isCall_of_otaManagerAbort : ∀ e ∈ (otaManagerAbort esp).log ota, e.isCall = true := by
  rcases otaManagerAbort_cases esp ota with ⟨-, -, -, h⟩ | ⟨-, -, -, h⟩ <;> simp [h, Event.isCall]

theorem isCall_of_otaManagerEnd : ∀ e ∈ (otaManagerEnd esp).log ota, e.isCall = true := by
  rcases otaManagerEnd_cases esp ota with
    ⟨-, -, -, h⟩ | ⟨-, -, -, ⟨-, h⟩ | ⟨-, r, -, h⟩ | ⟨-, h⟩⟩ <;> simp [h, Event.isCall]

omit [Alphabet β] in
theorem isCall_of_runOta {c : Command} {n : UInt16} {bare : Bool}
    {operation : List β → OtaRoutine β ProtocolError}
    (h : ∀ e ∈ (operation payload).log ota, e.isCall = true) :
    ∀ e ∈ (runOta c n bare operation ota payload).before, e.isCall = true := by
  unfold runOta
  split
  · simp [Outcome.refused]
  · intro e he
    rcases List.mem_append.mp he with he | he
    · exact h e he
    · rw [List.mem_singleton.mp he]
      rfl

/-- Before the response of a command there are only calls. -/
theorem isCall_of_execute (c : Command) (n : UInt16) :
    ∀ e ∈ (execute esp ota c n payload).before, e.isCall = true := by
  cases c with
  | otaBegin => exact isCall_of_runOta ota payload (isCall_of_otaManagerBegin esp ota payload)
  | otaData => exact isCall_of_runOta ota payload (isCall_of_otaManagerWriteData esp ota payload)
  | otaEnd => exact isCall_of_runOta ota payload (isCall_of_otaManagerEnd esp ota)
  | otaAbort => exact isCall_of_runOta ota payload (isCall_of_otaManagerAbort esp ota)
  | rollback =>
    simp only [execute]
    split_ifs <;> simp [Outcome.refused, Event.isCall]
  | reboot =>
    simp only [execute]
    split_ifs <;> simp [Outcome.refused]
  | _ => simp [execute, Outcome.refused]

/-- After the response of a command there is nothing, or the restart it asked for. -/
theorem after_execute (c : Command) (n : UInt16) :
    (execute esp ota c n payload).after = [] ∨
      (c = .reboot ∧ ota.active = false ∧ payload = [] ∧
        execute esp ota c n payload = ⟨.ok, ota, [], [.operate .reboot n [] .ok, .restart]⟩) ∨
      (c = .rollback ∧ ota.active = false ∧ payload = [] ∧ esp.rollbackIsPossible = true ∧
        execute esp ota c n payload = ⟨.ok, ota, [.checkRollbackIsPossible true],
          [.operate .rollback n [] .ok,
            .markInvalidRollbackAndReboot esp.markInvalidReboots]⟩) := by
  cases c with
  | reboot =>
    by_cases hl : payload = []
    · cases ha : ota.active <;> simp [execute, hl, ha, Outcome.refused]
    · simp [execute, hl, Outcome.refused]
  | rollback =>
    by_cases hl : payload = []
    · cases ha : ota.active <;> cases hr : esp.rollbackIsPossible <;>
        simp [execute, hl, ha, hr, Outcome.refused]
    · simp [execute, hl, Outcome.refused]
  | otaBegin => simp only [execute, runOta]; split <;> exact .inl rfl
  | otaData => simp only [execute, runOta]; split <;> exact .inl rfl
  | otaEnd => simp only [execute, runOta]; split <;> exact .inl rfl
  | otaAbort => simp only [execute, runOta]; split <;> exact .inl rfl
  | _ => exact .inl rfl

/-- Nothing is sent after the response of a command. -/
theorem sent_after_execute (c : Command) (n : UInt16) :
    sent (execute esp ota c n payload).after = [] := by
  rcases after_execute esp ota payload c n with h | ⟨-, -, -, h⟩ | ⟨-, -, -, -, h⟩ <;>
    simp [h, Event.sent?]

end Calls

/-! ## A step through the gate -/

section Gate
variable {d : Device β} {packet : Packet β} {c : Command} (esp : EspIdf β)
  (hv : packet.version = protocolVersion) (hc : packet.command = c.code)
  (hp : c.isProtected = true)
include hv hc hp

theorem handle_guarded : d.handle esp packet = d.answer esp c packet := by
  obtain ⟨hs, hl⟩ := commandsHandlePacket_protected esp packet hv hc hp d
  rw [Device.handle, hs, hl]

theorem step_of_resend {entry : ReplayEntry β} (hg : d.auth.gate packet = .resend entry) :
    d.step esp packet = (d, [.receive packet, .send (entry.frame packet.sequence)]) := by
  simp [Device.step, handle_guarded esp hv hc hp, Device.answer, Device.answerWith, hg,
    Event.reboots]

theorem step_of_refuse {error : ProtocolError} (hg : d.auth.gate packet = .refuse error) :
    d.step esp packet =
      (d.report packet error, [.receive packet, .send (d.reply packet error)]) := by
  simp [Device.step, handle_guarded esp hv hc hp, Device.answer, Device.answerWith, hg,
    Event.reboots]

theorem step_of_run {payload : List β} (hg : d.auth.gate packet = .run payload) {o : Outcome β}
    (ho : execute esp d.ota c packet.sequence payload = o) :
    d.step esp packet =
      (if o.after.any Event.reboots then ({ d with ota := o.ota }.report packet o.error).restarted
        else { d with ota := o.ota }.report packet o.error,
        .receive packet :: (o.before ++ .send (d.reply packet o.error) :: o.after)) := by
  have hb := isCall_of_execute esp d.ota payload c packet.sequence
  rw [ho] at hb
  simp only [Device.step, handle_guarded esp hv hc hp, Device.answer, Device.answerWith, hg, ho,
    List.any_append, List.any_cons, any_reboots_of_isCall hb, Event.reboots, Bool.false_or]

theorem sent_step_of_run {payload : List β} (hg : d.auth.gate packet = .run payload) :
    sent (d.step esp packet).2 =
      [d.reply packet (execute esp d.ota c packet.sequence payload).error] := by
  rw [step_of_run esp hv hc hp hg rfl]
  simp [sent_of_isCall (isCall_of_execute esp d.ota payload c packet.sequence),
    sent_after_execute, Event.sent?]

end Gate

/-- The possible effects of one packet, with the restart it may end in. -/
inductive Stepped (d : Device β) (esp : EspIdf β) (packet : Packet β) :
    Device β × List (Event β) → Prop
  | status (error : ProtocolError) (hping : error = .ok → packet.command = Command.ping.code) :
      Stepped d esp packet (d, [.receive packet,
        .send (frame (responseFor error) packet.sequence (statusPayload error))])
  | info (hc : packet.command = Command.getInfo.code) : Stepped d esp packet
      (d, [.receive packet, .send (frame .info packet.sequence esp.infoPayload)])
  | challenge (hc : packet.command = Command.auth.code) (hr : d.auth.required = true)
      (hn : packet.payload.length = authNonceSize) :
      Stepped d esp packet (d.challenged esp packet hn, [.receive packet,
        .send (frame .ack packet.sequence (statusPayload .ok ++ esp.fillRandom ++
          deviceProofOf d.auth.key packet.payload esp.fillRandom))])
  | proof (hc : packet.command = Command.auth.code)
      (hs : d.auth.pending = true ∨ d.auth.authenticated = true)
      (hpay : packet.payload = d.auth.clientNonce ++
        authProofOf d.auth.key d.auth.clientNonce d.auth.serverNonce) :
      Stepped d esp packet (d.proved, [.receive packet, .send (ackFrame packet.sequence)])
  | resend (c : Command) (hv : packet.version = protocolVersion) (hc : packet.command = c.code)
      (hp : c.isProtected = true) {entry : ReplayEntry β}
      (hg : d.auth.gate packet = .resend entry) :
      Stepped d esp packet (d, [.receive packet, .send (entry.frame packet.sequence)])
  | refuse (c : Command) (hv : packet.version = protocolVersion) (hc : packet.command = c.code)
      (hp : c.isProtected = true) {error : ProtocolError}
      (hg : d.auth.gate packet = .refuse error) : Stepped d esp packet
        (d.report packet error, [.receive packet, .send (d.reply packet error)])
  | run (c : Command) (hv : packet.version = protocolVersion) (hc : packet.command = c.code)
      (hp : c.isProtected = true) {payload : List β} (hg : d.auth.gate packet = .run payload)
      {o : Outcome β} (ho : execute esp d.ota c packet.sequence payload = o) :
      Stepped d esp packet
        (if o.after.any Event.reboots then ({ d with ota := o.ota }.report packet o.error).restarted
          else { d with ota := o.ota }.report packet o.error,
          .receive packet :: (o.before ++ .send (d.reply packet o.error) :: o.after))

/-- **All that one packet can do.** -/
theorem step_cases (d : Device β) (esp : EspIdf β) (packet : Packet β) :
    Stepped d esp packet (d.step esp packet) := by
  have h := handle_cases d esp packet
  generalize hr : d.handle esp packet = r at h
  cases h with
  | status error hping => exact step_of_send hr ▸ .status error hping
  | info hc => exact step_of_send hr ▸ .info hc
  | challenge hc hreq hn => exact step_of_send hr ▸ .challenge hc hreq hn
  | proof hc _ hs hpay => exact step_of_send hr ▸ .proof hc hs hpay
  | guarded c hv hc hp =>
    cases hg : d.auth.gate packet with
    | resend entry => exact step_of_resend esp hv hc hp hg ▸ .resend c hv hc hp hg
    | refuse error => exact step_of_refuse esp hv hc hp hg ▸ .refuse c hv hc hp hg
    | run payload => exact step_of_run esp hv hc hp hg rfl ▸ .run c hv hc hp hg rfl

/-- **One response.** Handling a packet writes exactly one frame, under the sequence
number of the packet. -/
theorem sent_handle (d : Device β) (esp : EspIdf β) (packet : Packet β) :
    ∃ r, sent (d.handle esp packet).2 = [r] ∧ r.sequence = packet.sequence := by
  have h := handle_cases d esp packet
  revert h
  generalize d.handle esp packet = r
  intro h
  cases h with
  | status error => exact ⟨_, rfl, rfl⟩
  | info => exact ⟨_, rfl, rfl⟩
  | challenge => exact ⟨_, rfl, rfl⟩
  | proof => exact ⟨_, rfl, rfl⟩
  | guarded c =>
    unfold Device.answer Device.answerWith
    split
    · exact ⟨_, rfl, rfl⟩
    · exact ⟨_, rfl, rfl⟩
    · rename_i payload _
      refine ⟨d.reply packet (execute esp d.ota c packet.sequence payload).error, ?_, rfl⟩
      simp [sent_of_isCall (isCall_of_execute esp d.ota payload c packet.sequence),
        sent_after_execute, Event.sent?]

/-- The only packet a step receives is the one it handles. -/
theorem receive_of_mem_step {d : Device β} {esp : EspIdf β} {p packet : Packet β}
    (h : .receive p ∈ (d.step esp packet).2) : p = packet := by
  have hstep := step_cases d esp packet
  generalize d.step esp packet = r at h hstep
  cases hstep with
  | status | info | challenge | proof | resend | refuse => simpa using h
  | @run c _ _ _ payload _ o ho =>
    simp only [List.mem_cons, List.mem_append, Event.receive.injEq, reduceCtorEq, false_or] at h
    rcases h with h | h | h
    · exact h
    · rw [← ho] at h
      have hcall := isCall_of_execute esp d.ota payload c packet.sequence _ h
      simp [Event.isCall] at hcall
    · rcases after_execute esp d.ota payload c packet.sequence with
        h' | ⟨-, -, -, h'⟩ | ⟨-, -, -, -, h'⟩ <;> simp [← ho, h'] at h

end OtaLink
