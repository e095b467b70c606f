import OtaLink.Consecutive

/-!
# An update on a link without losses

Where each packet is answered at once, an update ends in success, and so does one after an
update that was broken off: `otalink abort` closes the OTA session that was left open, whether
it was opened by this client or another, and the update after it finds the device free.

## Main definitions

* `Willing` — the client and the device are ready for the next protected call.
* `Willing.requests` — the device executes the call, and they are ready again.
* `abort_then_update` — an update after an abort is finalised, whatever was before.
-/

namespace OtaLink
open Lib

variable {β : Type} [Alphabet β]

/-- The next protected call of the client will be executed: there is no key, or the client
holds the session of the device and numbers its requests one after another, or it will
authenticate first. -/
inductive Willing (cfg : HostConfig β) (t : HostState β) (w : World β) : Prop
  | bare (hkey : cfg.authKey = none) (hr : w.device.auth.required = false)
  | keyed {key : List β} (hkey : cfg.authKey.isSome = true) (ht : t.authenticated = true)
      (hk : t.sessionKey = some key) (hheld : Holding key w.device.auth)
      (hn : UpTo t.sequence w.device.auth)
  | closed (hkey : cfg.authKey = some w.device.auth.key) (hr : w.device.auth.required = true)
      (ht : t.authenticated = false)

omit [Alphabet β] in
/-- A client that was just opened, and a device with its key or none. -/
theorem Willing.opened {cfg : HostConfig β} {w : World β}
    (hr : w.device.auth.required = cfg.authKey.isSome)
    (hkey : ∀ key, cfg.authKey = some key → key = w.device.auth.key) (n : UInt16) :
    Willing cfg (.opened n) w := by
  cases hk : cfg.authKey with
  | none => exact .bare hk (by rw [hr, hk]; rfl)
  | some key => exact .closed (by rw [hk, hkey key hk]) (by rw [hr, hk]; rfl) rfl

section Call
variable {cfg : HostConfig β} {nonce : World β → Answer β .urandom}
  {esp : World β → Packet β → EspIdf β} {t : HostState β} {w : World β} {c : Command}
  {payload : List β}

/-- A call of a client that holds the session. -/
theorem requestOnce_keyed (hkey : cfg.authKey.isSome = true) (ht : t.authenticated = true)
    {key : List β} (hk : t.sessionKey = some key) (hheld : Holding key w.device.auth)
    (hn : UpTo t.sequence w.device.auth) (hp : c.isProtected = true)
    (hc : c ≠ .reboot ∧ c ≠ .rollback) (hl : payload.length + authTagSize ≤ protocolMaxPayload)
    (hretries : 0 < cfg.retries) (again : Option (HostTask β (Packet β))) :
    ∃ (m : Packet β) (n : UInt16) (t' : HostState β) (w' : World β),
      (requestOnce cfg c payload again).Gives (reliable nonce esp) t w
        (.ok (frame (responseFor (execute (esp w m) w.device.ota c n payload).error) n
          (statusPayload (execute (esp w m) w.device.ota c n payload).error))) t' w' ∧
      Willing cfg t' w' ∧ w'.device.ota = (execute (esp w m) w.device.ota c n payload).ota := by
  have hg : cfg.guards c = true := by simp [HostConfig.guards, hkey, hp]
  generalize hm : tagged key c (t.sequence + 1) payload = m
  obtain ⟨d', hstep, hota, hheld', hn', -⟩ := hheld.step_next hn hp hc hl (esp w m) rfl
  rw [hm] at hstep
  have hsent : sent (w.device.step (esp w m) m).2 = [signed key c (t.sequence + 1)
      (execute (esp w m) w.device.ota c (t.sequence + 1) payload).error] := by
    rw [hstep]
    simp [sent_of_isCall (isCall_of_execute (esp w m) w.device.ota payload c _), Event.sent?]
  have hw : w.step (esp w m) m = _ := step_world hstep
  generalize herror : (execute (esp w m) w.device.ota c (t.sequence + 1) payload).error = error
    at hsent hstep
  have hne : isAuthRequired (signed key c (t.sequence + 1) error) = false :=
    isAuthRequired_of_ne (herror ▸ execute_ne_authRequired _ _ _ _ _) _ _ _
  have hserve : (reliable nonce esp).serve w (tagged key c (t.sequence + 1) payload) =
      some (signed key c (t.sequence + 1) error, w.step (esp w m) m) := by
    rw [hm]
    exact serve_reliable hsent
  have hgives := requestOnce_gives hg hretries hk hl hserve rfl (fun (_ : again ≠ none) => hne) rfl
  rw [HostState.finished, if_neg (by simp [hc.1, hc.2])] at hgives
  refine ⟨m, t.sequence + 1, t.at (t.sequence + 1), w.step (esp w m) m,
    by rw [herror]; exact hgives, .keyed hkey ht hk ?_ ?_, ?_⟩
  · rw [step_world hstep]
    exact hheld'
  · rw [step_world hstep]
    exact hn'
  · rw [step_world hstep]
    exact hota

/-- **The next protected call is executed**, and the client is told its outcome. -/
theorem Willing.requests (h : Willing cfg t w) (hp : c.isProtected = true)
    (hc : c ≠ .reboot ∧ c ≠ .rollback)
    (hl : payload.length + (if cfg.guards c then 16 else 0) ≤ protocolMaxPayload)
    (hretries : 0 < cfg.retries) :
    ∃ (w₁ : World β) (m : Packet β) (n : UInt16) (t' : HostState β) (w' : World β),
      (request cfg c payload).Gives (reliable nonce esp) t w
        (.ok (frame (responseFor (execute (esp w₁ m) w.device.ota c n payload).error) n
          (statusPayload (execute (esp w₁ m) w.device.ota c n payload).error))) t' w' ∧
      Willing cfg t' w' ∧ w'.device.ota = (execute (esp w₁ m) w.device.ota c n payload).ota := by
  cases h with
  | bare hkey hr =>
    have hg : cfg.guards c = false := by simp [HostConfig.guards, hkey]
    generalize hm : frame c (t.sequence + 1) payload = m
    have hsent := @sent_step_open β _ w.device (esp w m) c (t.sequence + 1) payload hr hp hc
    have hstep := @step_open β _ w.device (esp w m) c (t.sequence + 1) payload hr hp hc
    rw [hm] at hsent hstep
    have hw : w.step (esp w m) m = _ := step_world hstep
    refine ⟨w, m, t.sequence + 1, _, w.step (esp w m) m, request_gives_open hg hretries hc
      (by omega) (by rw [hm]; exact serve_reliable hsent) rfl, .bare hkey ?_, ?_⟩
    · rw [hw]
      exact hr
    · rw [hw]
  | keyed hkey ht hk hheld hn =>
    obtain ⟨m, n, t', w', hgives, hex⟩ :=
      @requestOnce_keyed β _ cfg nonce esp t w c payload hkey ht _
      hk hheld hn hp hc (by rwa [if_pos (by simp [HostConfig.guards, hkey, hp])] at hl) hretries _
    exact ⟨w, m, n, t', w', Task.Gives.bind
      (by rw [authenticateFor, if_pos (by simp [HostConfig.guards, hkey, hp])]
          exact authenticate_gives_authenticated ht) hgives, hex⟩
  | closed hkey hr ht =>
    have hg : cfg.guards c = true := by simp [HostConfig.guards, hkey, hp]
    obtain ⟨u, w₁, hauth, hfresh, -, hu, hota⟩ := @authenticate_reliable β _ nonce esp w cfg hkey
      hretries hr t ht
    obtain ⟨m, n, t', w', hgives, hex⟩ := @requestOnce_keyed β _ cfg nonce esp u w₁ c payload
      (by simp [hkey]) hu _ hfresh.sessionKey ⟨hfresh.required, hfresh.authenticated, rfl⟩
      (upTo_empty hfresh.replayCache _) hp hc (by rwa [if_pos hg] at hl) hretries _
    rw [hota] at hgives hex
    have hauth' : (authenticateFor cfg c).Gives (reliable nonce esp) t w (.ok ()) u w₁ := by
      rw [authenticateFor, if_pos hg]
      exact hauth
    exact ⟨w₁, m, n, t', w', hauth'.bind hgives, hex⟩

/-- A command that the device executes succeeds. -/
theorem Willing.runs (h : Willing cfg t w) (hp : c.isProtected = true)
    (hc : c ≠ .reboot ∧ c ≠ .rollback)
    (hl : payload.length + (if cfg.guards c then 16 else 0) ≤ protocolMaxPayload)
    (hretries : 0 < cfg.retries) (context : Context) {Next : OtaState β → Prop}
    (hnext : ∀ w' m n, (execute (esp w' m) w.device.ota c n payload).error = .ok ∧
      Next (execute (esp w' m) w.device.ota c n payload).ota) :
    ∃ t' w', (runCommand cfg c payload context).Gives (reliable nonce esp) t w (.ok ()) t' w' ∧
      Willing cfg t' w' ∧ Next w'.device.ota := by
  obtain ⟨w₁, m, n, t', w', hgives, hw, hota⟩ :=
    @Willing.requests β _ cfg nonce esp t w c payload h hp
    hc hl hretries
  obtain ⟨hok, hn⟩ := hnext w₁ m n
  rw [hok] at hgives
  have hgives' : Task.Gives (reliable nonce esp) (request cfg c payload) t w
      (.ok (ackFrame n)) t' w' := hgives
  refine ⟨t', w', Task.Gives.bind hgives'.handle (ensureAck_gives rfl rfl), hw, ?_⟩
  rwa [hota]

end Call

section Update
variable {cfg : HostConfig β} {nonce : World β → Answer β .urandom}
  {esp : World β → Packet β → EspIdf β} {f : List β}

/-- The chunks are written one after another. -/
theorem Willing.sends (hesp : ∀ w m, (esp w m).takes f = true) (hretries : 0 < cfg.retries)
    (hmax : f.length < 2 ^ 32) (fuel : ℕ) :
    ∀ (chunkNumber sent : ℕ) (t : HostState β) (w : World β),
      Willing cfg t w → Receiving f sent w.device.ota → sent ≤ f.length → f.length < fuel + sent →
      chunkNumber ≤ sent →
    ∃ t' w', (sendChunks cfg fuel chunkNumber sent (f.drop sent)).Gives (reliable nonce esp) t w
      (.ok ()) t' w' ∧ Willing cfg t' w' ∧ Receiving f f.length w'.device.ota := by
  induction fuel with
  | zero => omega
  | succ fuel ih =>
    intro chunkNumber sent t w h hs hle hfuel hnumber
    have hsize : 0 < maxOtaChunkDataSize cfg ∧
        maxOtaChunkDataSize cfg + (if cfg.guards .otaData then 16 else 0) ≤ 1016 := by
      simp only [maxOtaChunkDataSize, HostConfig.guards, Command.isProtected, Bool.and_true]
      split <;> omega
    generalize hchunk : (f.drop sent).take (maxOtaChunkDataSize cfg) = chunk
    have hlen : chunk.length = min (maxOtaChunkDataSize cfg) (f.length - sent) := by
      rw [← hchunk, List.length_take, List.length_drop]
    simp only [sendChunks, hchunk]
    by_cases hne : chunk = []
    · -- The file ends here.
      have hend : sent = f.length := by
        rw [hne, List.length_nil] at hlen
        omega
      rw [if_pos hne]
      exact ⟨t, w, Task.Gives.pure (), h, hend ▸ hs⟩
    · have hpos := List.length_pos_iff.mpr hne
      have hbuild : (buildOtaDataPayload chunkNumber sent chunk).Gives (reliable nonce esp) t w
          (.ok (le32 chunkNumber ++ le32 sent ++ chunk)) t w := by
        rw [buildOtaDataPayload, if_neg (by omega), if_neg (by omega), if_neg (by omega)]
        exact Task.Gives.pure _
      obtain ⟨t₁, w₁, hrun, h₁, hs₁⟩ := @Willing.runs β _ cfg nonce esp t w .otaData
        (le32 chunkNumber ++ le32 sent ++ chunk) h rfl (by decide)
        (by simp only [List.length_append, length_le32, protocolMaxPayload]; omega) hretries
        (.otaData chunkNumber sent) (Receiving f (sent + chunk.length)) fun w' m n => by
          obtain ⟨hok, hota⟩ := execute_data n chunkNumber (hesp w' m) hs hne
            (by rw [otaMaxChunkDataSize]; omega) (by omega) hmax
          exact ⟨hok, hota ▸ hs.wrote (by omega) hmax⟩
      obtain ⟨t₂, w₂, hrest, h₂, hs₂⟩ := ih (chunkNumber + 1) (sent + chunk.length) t₁ w₁ h₁ hs₁
        (by omega) (by omega) (by omega)
      rw [if_neg hne, drop_chunk, hchunk]
      exact ⟨t₂, w₂, hbuild.bind (hrun.bind hrest), h₂, hs₂⟩

/-- **An update of a device that has no session open** succeeds. -/
theorem Willing.updates {t : HostState β} {w : World β} (h : Willing cfg t w)
    (hs : w.device.ota.active = false) (hesp : ∀ w m, (esp w m).takes f = true)
    (hretries : 0 < cfg.retries) (hmin : 32 ≤ f.length) (hmax : f.length < 2 ^ 32) :
    ∃ t' w', (cmdUpdate cfg f).Gives (reliable nonce esp) t w (.ok ()) t' w' ∧
      w'.device.ota.active = false := by
  have hsmall : ∀ n, n ≤ 1008 → ∀ c, n + (if cfg.guards c then 16 else 0) ≤ protocolMaxPayload := by
    intro n hn c
    rw [protocolMaxPayload]
    split <;> omega
  have hbuild : ∀ (t : HostState β) w, (buildOtaBeginPayload f.length
      (f.drop (f.length - 32))).Gives (reliable nonce esp) t w (.ok (announcement f)) t w := by
    intro t w
    rw [buildOtaBeginPayload, if_neg (by rw [List.length_drop]; omega)]
    exact Task.Gives.pure _
  have hannounce : (announcement f).length ≤ 1008 := by
    simp only [announcement, List.length_append, length_le32, List.length_drop]
    omega
  obtain ⟨t₁, w₁, hbegin, h₁, hs₁⟩ := @Willing.runs β _ cfg nonce esp t w .otaBegin (announcement f)
    h rfl (by decide) (hsmall _ hannounce _) hretries .otaBegin (Receiving f 0) fun w' m n =>
      execute_begin (hesp w' m) hs hmin hmax
  obtain ⟨t₂, w₂, hdata, h₂, hs₂⟩ := Willing.sends hesp hretries hmax (f.length + 1) 0 0 t₁ w₁ h₁
    hs₁ (by omega) (by omega) le_rfl
  obtain ⟨t₃, w₃, hend, h₃, hs₃⟩ := @Willing.runs β _ cfg nonce esp t₂ w₂ .otaEnd [] h₂ rfl
    (by decide) (hsmall _ (by simp) _) hretries .otaEnd (fun s => s.active = false) fun w' m n =>
      (execute_end (hesp w' m) hs₂).imp_right And.left
  have hbegin' : (runUpdateBegin cfg f).Gives (reliable nonce esp) t w (.ok ()) t₁ w₁ := by
    rw [runUpdateBegin, if_neg (by omega)]
    exact (hbuild t w).bind hbegin
  exact ⟨t₃, w₃, hbegin'.bind (Task.Gives.bind hdata hend), hs₃⟩

/-- **An abort** closes the session that is open, and is refused if there is none. -/
theorem Willing.aborts {t : HostState β} {w : World β} (h : Willing cfg t w)
    (hesp : ∀ w m, (esp w m).takes f = true) (hretries : 0 < cfg.retries) :
    ∃ r t' w', (runAbort cfg).Gives (reliable nonce esp) t w r t' w' ∧
      (r = .ok () ↔ w.device.ota.active = true) ∧ w'.device.ota.active = false := by
  obtain ⟨w₁, m, n, t', w', hgives, -, hota⟩ :=
    @Willing.requests β _ cfg nonce esp t w .otaAbort [] h
    rfl (by decide) (by rw [List.length_nil, protocolMaxPayload]; split <;> omega) hretries
  cases hactive : w.device.ota.active
  · -- There is nothing to abort.
    have hnot : (execute (esp w₁ m) w.device.ota .otaAbort n []).error = .otaNotStarted := by
      simp [execute, runOta, Outcome.operated, otaManagerAbort, hactive]
    rw [hnot] at hgives
    rw [execute_abort_inactive hactive] at hota
    exact ⟨.error (.rejected .otaAbort), t', w', Task.Gives.bind hgives.handle fun inbox =>
      ⟨inbox, rfl⟩, by simp, hota ▸ hactive⟩
  · obtain ⟨hok, hclosed⟩ := execute_abort (n := n) (hesp w₁ m) hactive
    rw [hok] at hgives
    exact ⟨.ok (), t', w', Task.Gives.bind hgives.handle (ensureAck_gives rfl rfl), by simp,
      hota ▸ hclosed⟩

end Update

/-- What a run on a link without losses does to the device is a run of the device. -/
theorem Task.Gives.run {nonce : World β → Answer β .urandom} {esp : World β → Packet β → EspIdf β}
    {α : Type} {x : HostTask β α} {t t' : HostState β} {r : Except HostError α} {w w' : World β}
    (h : x.Gives (reliable nonce esp) t w r t' w') : ∃ xs, w' = w.run xs := by
  obtain ⟨L', -, hr, rfl⟩ := reaches_of_reliable (L := .quiet w) ⟨rfl, rfl⟩ h
  exact exists_run_of_reaches hr

theorem Finalised.move {f : List β} {L L' : Link (Packet β) (World β)}
    (h : Finalised f L.server) (hmove : updateEnv.rely L L') : Finalised f L'.server := by
  cases hmove with
  | deliver _ hs =>
    obtain ⟨esp, -, -, rfl⟩ := serves_iff.mp hs
    exact h.append _
  | loseRequest => exact h
  | loseReply => exact h
  | tick ht =>
    obtain ⟨-, rfl⟩ := tick_iff.mp ht
    exact h.append _

/-- A client that reports success has updated the device, whatever was on it before. -/
theorem finalised_of_reaches {cfg : HostConfig β} {w : World β} {f : List β} {n : UInt16}
    {t : HostState β} {L : Link (Packet β) (World β)}
    (hr : w.device.auth.required = cfg.authKey.isSome)
    (h : updateEnv.Reaches (cmdUpdate cfg f (.opened n), .quiet w) (.ret (.ok (), t), L)) :
    Finalised f L.server := by
  have hstart : Ready f cfg false (.opened n) (.quiet w) := by
    refine ⟨.opened n, frame .ping n [], rfl, Idle.quiet _ _,
      ⟨.unguarded (by simp [frame, Command.isProtected]), hr, by simp⟩,
      by simp [HostState.opened], fun hk => ?_⟩
    exact ⟨hr, by simp, fun ht => by simp [hk] at ht⟩
  exact cmdUpdate_spec.reaches (fun _ _ _ _ hmove hf => hf.move hmove)
    (fun _ _ _ _ _ h => h) hstart h

theorem finalised_of_gives {cfg : HostConfig β} {nonce : World β → Answer β .urandom}
    {esp : World β → Packet β → EspIdf β} {w w' : World β} {f : List β} {n : UInt16}
    {t : HostState β} (hr : w.device.auth.required = cfg.authKey.isSome)
    (hfit : ∀ w m, (esp w m).partitionsFit)
    (h : (cmdUpdate cfg f).Gives (reliable nonce esp) (.opened n) w (.ok ()) t w') :
    Finalised f w' := by
  have hserve : ∀ {w m r w'}, (reliable nonce esp).serve w m = some (r, w') →
      (deviceServer true fitting).Serves w m r w' := fun {w m r w'} hs =>
    ⟨esp w m, by simpa [deviceServer, reliable, hfit w m] using hs⟩
  obtain ⟨L', -, hreach, rfl⟩ := h.reaches (L := .quiet w) (fun w q => by cases q; rfl) hserve
    ⟨rfl, rfl⟩
  exact finalised_of_reaches hr hreach

/-- **An update after an abort is finalised**, whatever session was open on the device, who
opened it and how far it went. -/
theorem abort_then_update {cfg : HostConfig β} {nonce : World β → Answer β .urandom}
    {esp : World β → Packet β → EspIdf β} {w : World β} {f : List β}
    (hr : w.device.auth.required = cfg.authKey.isSome)
    (hkey : ∀ key, cfg.authKey = some key → key = w.device.auth.key) (hretries : 0 < cfg.retries)
    (hmin : 32 ≤ f.length) (hmax : f.length < 2 ^ 32)
    (hesp : ∀ w m, (esp w m).takes f = true ∧ (esp w m).partitionsFit) (n n' : UInt16) :
    ∃ r t w₁ t' w₂, (runAbort cfg).Gives (reliable nonce esp) (.opened n) w r t w₁ ∧
      (r = .ok () ↔ w.device.ota.active = true) ∧
      (cmdUpdate cfg f).Gives (reliable nonce esp) (.opened n') w₁ (.ok ()) t' w₂ ∧
      Finalised f w₂ := by
  obtain ⟨r, t, w₁, habort, hiff, hclosed⟩ := @Willing.aborts β _ cfg nonce esp f _ _
    (.opened hr hkey n) (fun w m => (hesp w m).1) hretries
  obtain ⟨xs, rfl⟩ := Task.Gives.run habort
  have hrun := required_run w.device xs
  have hr₁ : (w.run xs).device.auth.required = cfg.authKey.isSome := hrun.1.trans hr
  obtain ⟨t', w₂, hupdate, -⟩ := @Willing.updates β _ cfg nonce esp f _ _
    (.opened hr₁ (fun key hk => (hkey key hk).trans hrun.2.symm) n') hclosed
    (fun w m => (hesp w m).1) hretries hmin hmax
  exact ⟨r, t, _, t', w₂, habort, hiff, hupdate,
    finalised_of_gives hr₁ (fun w m => (hesp w m).2) hupdate⟩

end OtaLink
