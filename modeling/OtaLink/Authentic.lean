import OtaLink.Authored
import OtaLink.Honest

/-!
# Authentic commands

Whoever holds the link, a command runs on a locked device only if the client has built its
packet in the session the device is in. This needs no assumption on the nonces of the
client: those of the device are enough to keep its sessions apart.

## Main definitions

* `Event.isEffect` — the calls by which a protected command acts.
* `Own` — the client uses session keys of its own only.
* `commands_authentic` — what has been executed has been requested.
-/

namespace OtaLink
open Lib

/-! ## The effects of a command -/

section Effects
variable {β : Type} [Alphabet β]

/-- Something a protected command does. To ask whether a rollback is possible is not. -/
def Event.isEffect : Event β → Bool
  | .receive _ | .reset | .send _ | .checkRollbackIsPossible _ => false
  | _ => true

/-- Whatever a command does it does under its own name. -/
theorem operate_mem_of_execute {esp : EspIdf β} {ota : OtaState β} {c : Command} {n : UInt16}
    {payload : List β} {e : Event β} (he : e ∈ (execute esp ota c n payload).events)
    (heffect : e.isEffect = true) : .operate c n payload (execute esp ota c n payload).error ∈
      (execute esp ota c n payload).events := by
  have hrun : ∀ {c : Command} {bare : Bool} {operation : List β → OtaRoutine β ProtocolError},
      e ∈ (runOta c n bare operation ota payload).events →
      .operate c n payload (runOta c n bare operation ota payload).error ∈
        (runOta c n bare operation ota payload).events := by
    intro c bare operation he
    unfold runOta at he ⊢
    split
    · rename_i hb
      simp [hb, Outcome.refused, Outcome.events] at he
    · simp [Outcome.operated, Outcome.events]
  cases c with
  | otaBegin | otaData | otaEnd | otaAbort => exact hrun he
  | reboot =>
    simp only [execute] at he ⊢
    split_ifs at he ⊢ <;> simp_all [Outcome.refused, Outcome.events]
  | rollback =>
    simp only [execute] at he ⊢
    split_ifs at he ⊢ <;> simp_all [Outcome.refused, Outcome.events, Event.isEffect]
  | _ => simp [execute, Outcome.refused, Outcome.events] at he

/-- A packet that does anything runs a command, and does what this command does. -/
theorem exists_operate_of_step {d : Device β} {esp : EspIdf β} {m : Packet β} {e : Event β}
    (he : e ∈ (d.step esp m).2) (heffect : e.isEffect = true) :
    ∃ c n payload error, .operate c n payload error ∈ (d.step esp m).2 ∧
      (e.isOperate = true → e = .operate c n payload error) ∧
      e ∈ (execute esp d.ota c n payload).events := by
  have hstep := step_cases d esp m
  generalize d.step esp m = x at hstep he ⊢
  cases hstep with
  | status | info | challenge | proof | resend | refuse =>
    simp only [List.mem_cons, List.not_mem_nil, or_false] at he
    rcases he with rfl | rfl <;> cases heffect
  | @run c _ _ hp payload _ o ho =>
    simp only [List.mem_cons, List.mem_append] at he
    have he : e ∈ (execute esp d.ota c m.sequence payload).events := by
      rw [ho]
      rcases he with rfl | he | rfl | he
      · cases heffect
      · exact List.mem_append_left _ he
      · cases heffect
      · exact List.mem_append_right _ he
    have hoperate := operate_mem_of_execute he heffect
    refine ⟨c, m.sequence, payload, _, ?_, (mem_events_execute esp hp m.sequence).1 e he, he⟩
    rw [ho] at hoperate ⊢
    rcases List.mem_append.mp hoperate with h | h <;> simp [h]

end Effects

/-! ## The client -/

/-- A session of the client is one it has proved. -/
structure Own (psk : List Octet) (base : List (Happening Octet)) (t : HostState Octet)
    (s : Net) : Prop extends Since psk base s where
  session (ha : t.authenticated = true) : ∃ q : NoncePair Octet,
    t.sessionKey = some (q.sessionKey psk) ∧ Proved s.log psk q

section Client
variable {new : Net → List Octet → Prop} {psk : List Octet} {base : List (Happening Octet)}
  {cfg : HostConfig Octet} {t t' u : HostState Octet} {c : Command} {payload : List Octet}
  {s s' : Net} {m : Packet Octet}

theorem Own.rely (hpsk : IsSecret psk) (h : Own psk base t s) (hs : s.Rely s') :
    Own psk base t s' where
  toSince := h.toSince.rely hpsk hs
  session ha := by
    obtain ⟨q, hk, hq⟩ := h.session ha
    exact ⟨q, hk, hs.proved.mpr hq⟩

theorem Own.build (h : Own psk base t s) (A : Authored psk (s.build m)) :
    Own psk base t (s.build m) where
  toSince := h.toSince.build A
  session ha := by
    obtain ⟨q, hk, hq⟩ := h.session ha
    exact ⟨q, hk, hq.mono log_subset_build⟩

/-- Without a session there is nothing to keep. -/
theorem Since.own (h : Since psk base s) (ha : t.authenticated = false) : Own psk base t s :=
  ⟨h, fun h => absurd h (by simp [ha])⟩

/-- The handshake, whatever the nonces of the client. -/
theorem authenticate_own (hpsk : IsSecret psk) (hkey : cfg.authKey = some psk)
    (u : HostState Octet) :
    Attacked new psk (fun t s => t = u ∧ Own psk base u s) (authenticate cfg)
      (fun _ t s => t.authenticated = true ∧ Own psk base t s)
      (fun _ t s => t.authenticated = false ∧ Since psk base s) := by
  cases ha : u.authenticated
  · refine (authenticate_rule (A := Since psk base) (F := Since psk base)
      (W := fun _ => Since psk base) (S := fun q s => Since psk base s ∧ Proved s.log psk q) hpsk
      hkey ha ?_ ?_ ?_ ?_ ?_ ?_ ?_ ?_ ?_ ?_ ?_ ?_).consequence ?_ ?_ fun _ _ _ h => h
    · exact fun _ _ hs h => h.rely hpsk hs
    · exact fun _ _ _ hs h => h.rely hpsk hs
    · exact fun _ _ _ hs h => ⟨h.1.rely hpsk hs, hs.proved.mpr h.2⟩
    · exact fun _ h => h.toAuthored
    · exact fun _ _ h => h.toAuthored
    · exact fun _ _ h => h.1.toAuthored
    · exact fun s nonce h _ => h
    · exact fun s nonce n hl hpublic h => h.build (h.toAuthored.challenge hl hpublic)
    · exact fun s q n hd hpublic h =>
        ⟨h.build (h.toAuthored.proof hd hpublic), proved_build.mpr (.inl rfl)⟩
    · exact fun s q n hd hpublic h =>
        ⟨h.1.build (h.1.toAuthored.proof hd hpublic), proved_build.mpr (.inl rfl)⟩
    · exact fun _ _ h => h
    · exact fun _ _ h => h.1
    · exact fun t s h => ⟨h.1, h.2.toSince⟩
    · rintro _ t s ⟨q, rfl, h, hq⟩
      exact ⟨rfl, h, fun _ => ⟨q, rfl, hq⟩⟩
  · refine (authenticate_authenticated ha).consequence (fun _ _ h => h) ?_ fun _ _ _ h => h.elim
    rintro _ t s ⟨rfl, h⟩
    exact ⟨ha, h⟩

section Send
variable (hpsk : IsSecret psk) (hkey : cfg.authKey = some psk)
  (hpay : ∀ s : Net, base ⊆ s.log → s.Derives payload)
include hpsk hkey hpay

/-- The packet of a call. -/
theorem Own.send (h : Own psk base u s) (hga : cfg.guards c = true → u.authenticated = true)
    (n : UInt16) : Own psk base u (s.build (callPacket cfg u c n payload)) := by
  cases hg : cfg.guards c
  · have hp : c.isProtected = false := by simpa [HostConfig.guards, hkey] using hg
    rw [callPacket_open hg]
    exact h.build (h.toAuthored.open hpsk hp (hpay s h.since))
  · have hp : c.isProtected = true := by simpa [HostConfig.guards, hkey] using hg
    obtain ⟨q, hk, hq⟩ := h.session (hga hg)
    rw [callPacket_guarded hg hk]
    exact h.build (h.toAuthored.request hpsk hq hp (hpay s h.since))

theorem requestOnce_own {again : Option (HostTask Octet (Packet Octet))}
    (hga : cfg.guards c = true → u.authenticated = true)
    (hagain : ∀ task, again = some task → Attacked new psk (fun _ s => Since psk base s) task
      (fun _ => Own psk base) (fun _ => Own psk base)) :
    Attacked new psk (fun t s => t = u ∧ Own psk base u s) (requestOnce cfg c payload again)
      (fun _ => Own psk base) (fun _ => Own psk base) := by
  have hat : ∀ n s, Own psk base u s → Own psk base (u.at n) s :=
    fun _ _ h => ⟨h.toSince, h.session⟩
  by_cases hlen : payload.length + (if cfg.guards c then 16 else 0) ≤ protocolMaxPayload
  swap
  · exact requestOnce_tooLarge u (B := fun s => Own psk base u s) (by omega)
      fun _ s h => hat _ s h
  refine requestOnce_rule u (B := fun s => Own psk base u s) (A := fun _ s => Own psk base u s)
    hlen (fun _ _ s h => hat _ s h) (fun _ => ?_) (fun _ _ _ s h _ _ => hat _ s h)
    (fun task ht _ _ _ => (hagain task ht).pre fun _ _ h => h.2.toSince) ?_
  · refine (requestPacket_attacked (P := fun s => Own psk base u s)
      (R := fun s => Own psk base u s) _ (fun _ _ hs h => h.rely hpsk hs)
      (fun _ _ hs h => h.rely hpsk hs) (fun s h => h.elim (·.toAuthored) (·.toAuthored))
      (fun s h => h.send hpsk hkey hpay hga _) (fun s h => h.send hpsk hkey hpay hga _)
      fun s h => h.elim (hat _ s) (hat _ s)).consequence (fun _ _ h => h)
      (fun _ _ _ h => ⟨h.1, h.2.1⟩) fun _ _ _ h => h
  · rintro r t s (rfl | ⟨-, rfl⟩) h -
    · exact hat _ s h
    · exact h.toSince.own rfl

/-- A request, whatever the nonces of the client. -/
theorem request_own (u : HostState Octet) :
    Attacked new psk (fun t s => t = u ∧ Own psk base u s) (request cfg c payload)
      (fun _ => Own psk base) (fun _ => Own psk base) := by
  have hauthenticate : ∀ v : HostState Octet, Attacked new psk (fun t s => t = v ∧ Own psk base v s)
      (authenticate cfg) (fun _ t s => t.authenticated = true ∧ Own psk base t s)
      (fun _ => Own psk base) := fun v =>
    (authenticate_own hpsk hkey v).consequence (fun _ _ h => h) (fun _ _ _ h => h)
      fun _ _ _ h => h.2.own h.1
  unfold request
  refine Task.Spec.bind (R := fun _ t s => (cfg.guards c = true → t.authenticated = true) ∧
    Own psk base t s) ?_ fun _ => ?_
  · refine Task.Spec.ite (fun _ => ?_) (fun hg => ?_)
    · exact (hauthenticate u).consequence (fun _ _ h => h) (fun _ _ _ h => ⟨fun _ => h.1, h.2⟩)
        fun _ _ _ h => h
    · refine Task.Spec.pure ?_
      rintro t s ⟨rfl, h⟩
      exact ⟨fun hg' => absurd hg' hg, h⟩
  refine Task.Spec.with_record fun v hga => requestOnce_own hpsk hkey hpay hga ?_
  -- The device demands another session.
  rintro task ⟨⟩
  refine Task.Spec.bind (R := fun _ t s => t.authenticated = false ∧ Since psk base s) ?_
    fun _ => ?_
  · refine clearAuthentication_spec.consequence (fun _ _ h => h) ?_ (fun _ _ _ h => h)
    rintro _ t s ⟨t₀, h, rfl⟩
    exact ⟨rfl, h⟩
  refine Task.Spec.with_record fun w hw => ?_
  refine Task.Spec.bind (R := fun _ t s => t.authenticated = true ∧ Own psk base t s)
    ((hauthenticate w).pre fun t s h => ⟨h.1, h.2.own hw⟩) fun _ => ?_
  exact Task.Spec.with_record fun v ha =>
    requestOnce_own hpsk hkey hpay (fun _ => ha) fun _ h => by cases h

end Send

/-! ## Runs -/

variable {d₀ : Device Octet} {k : ℕ} (hpsk : IsSecret psk) (hkey : cfg.authKey = some psk)
  (h₀ : Authored psk ⟨d₀, []⟩)
include hpsk hkey h₀

/-- **The run lemma.** -/
theorem Run.own (h : Run new cfg d₀ t s k) : Own psk [] t s := by
  induction h with
  | opened n => exact Since.own ⟨h₀, List.nil_subset _⟩ rfl
  | idle _ hs ih => exact ih.rely hpsk hs
  | @authenticated t _ _ _ _ r _ hr ih =>
    have hend :=
      (authenticate_own hpsk hkey t).reaches (fun _ _ _ _ hs h => ⟨h.1, h.2.rely hpsk hs⟩)
      (fun _ _ _ _ hs h => ⟨h.1, h.2.rely hpsk hs⟩) ⟨rfl, ih⟩ hr
    cases r with
    | ok => exact hend.2
    | error => exact hend.2.own hend.1
  | @requested t _ s _ _ c payload r _ hp hr ih =>
    have hend := (request_own hpsk hkey
      (show ∀ s' : Net, s.log ⊆ s'.log → s'.Derives payload from fun _ hl => hp.mono hl) t).reaches
      (fun _ _ _ _ hs h => h.rely hpsk hs) (fun _ _ _ _ hs h => h.rely hpsk hs)
      ⟨rfl, ⟨ih.toAuthored, List.Subset.refl _⟩, ih.session⟩ hr
    cases r with
    | ok => exact ⟨⟨hend.toAuthored, List.nil_subset _⟩, hend.session⟩
    | error => exact ⟨⟨hend.toAuthored, List.nil_subset _⟩, hend.session⟩

/-- The invariant holds at every moment. -/
theorem Moment.authored {α : Type}
    {p : Prog Ask (Answer Octet) (Packet Octet) (Except HostError α × HostState Octet)}
    (h : Moment new cfg d₀ p s) : Authored psk s := by
  cases h with
  | between h => exact (h.own hpsk hkey h₀).toAuthored
  | @authenticating t _ _ _ _ h hr =>
    exact (authenticate_own hpsk hkey t).reaches_inv
      (fun _ _ _ _ hs h => ⟨h.1, h.2.rely hpsk hs⟩) (fun _ _ _ _ hs h => ⟨h.1, h.2.rely hpsk hs⟩)
      (fun _ _ _ h => h.2.toAuthored) (fun _ _ _ h => h.2.toAuthored)
      ⟨rfl, h.own hpsk hkey h₀⟩ hr
  | @requesting t s₀ _ _ _ payload _ h hp hr =>
    have hown := h.own hpsk hkey h₀
    exact (request_own hpsk hkey
      (show ∀ s : Net, s₀.log ⊆ s.log → s.Derives payload from fun _ hl => hp.mono hl)
      t).reaches_inv (fun _ _ _ _ hs h => h.rely hpsk hs) (fun _ _ _ _ hs h => h.rely hpsk hs)
      (fun _ _ _ h => h.toAuthored) (fun _ _ _ h => h.toAuthored)
      ⟨rfl, ⟨hown.toAuthored, List.Subset.refl _⟩, hown.session⟩ hr

end Client

/-! ## Authenticity -/

/-- **Authenticity.** Whatever a packet makes a locked device do is a doing of the command that the
client has asked for: the client has built this packet under the session key of the device, in the
session the device is in, and the device has accepted the client's proof in this session. -/
theorem commands_authentic {n : ℕ} {d₀ : Device Octet}
    (h₀ : otaLinkStartWithConfig ⟨some (pskOctets n), true⟩ = some d₀) {cfg : HostConfig Octet}
    (hkey : cfg.authKey = some (pskOctets n)) {new : Net → List Octet → Prop} {α : Type}
    {p : Prog Ask (Answer Octet) (Packet Octet) (Except HostError α × HostState Octet)} {s : Net}
    (h : Moment new cfg d₀ p s) {esp : EspIdf Octet} {m : Packet Octet}
    (hm : s.Derives m.payload) {e : Event Octet} (he : e ∈ (s.device.step esp m).2)
    (heffect : e.isEffect = true) :
    ∃ c k payload error, .operate c k payload error ∈ (s.device.step esp m).2 ∧
      (e.isOperate = true → e = .operate c k payload error) ∧
      e ∈ (execute esp s.device.ota c k payload).events ∧
      m = tagged s.device.auth.sessionKey c k payload ∧
      .built m ∈ session s.log ∧ .built m ∉ earlier s.log ∧
      Proved (session s.log) (pskOctets n) s.device.auth.pair ∧
      Admitted (session s.log) (pskOctets n) s.device.auth.pair := by
  obtain ⟨hpsk, hstart⟩ := authored_otaLinkStartWithConfig h₀
  have A := h.authored hpsk hkey hstart
  obtain ⟨c, k, payload, error, ho, heq, hdoes⟩ := exists_operate_of_step he heffect
  obtain ⟨htagged, ha, hp, hbuilt⟩ := A.built_of_operate hpsk hm ho
  obtain ⟨hnotproved, hnotbuilt, hadmitted⟩ := A.recent ⟨.inr ha, rfl⟩
  rw [← htagged] at hbuilt
  have hearlier : .built m ∉ earlier s.log := by
    intro hmem
    rw [htagged, (A.live (.inr ha)).1] at hmem
    exact hnotbuilt c k payload ⟨hp, hmem⟩
  have hsplit : ∀ x ∈ s.log, x ∉ earlier s.log → x ∈ session s.log := by
    intro x hx hnot
    rw [← session_append_earlier s.log] at hx
    exact (List.mem_append.mp hx).resolve_right hnot
  refine ⟨c, k, payload, error, ho, heq, hdoes, htagged, hsplit _ hbuilt hearlier, hearlier, ?_,
    hadmitted ha⟩
  obtain ⟨packet, hmem, hpay⟩ := A.proved ha
  exact ⟨packet, hsplit _ hmem fun h => hnotproved ⟨packet, h, hpay⟩, hpay⟩

/-- The client announces an image after the handshake. -/
def sampleRequested : Net := sampleHandshake.2.2.1.build (taggedRequest .otaBegin 3 sampleBegin)

/-- The packet opens the partition, and the client has built it. -/
theorem commands_authentic_begin : ∃ c k payload error,
    .operate c k payload error ∈
      (sampleRequested.device.step sampleEsp (taggedRequest .otaBegin 3 sampleBegin)).2 ∧
    ((Event.otaBegin ⟨65536, 4096⟩ 1 (some 1) : Event Octet).isOperate = true →
      Event.otaBegin ⟨65536, 4096⟩ 1 (some 1) = .operate c k payload error) ∧
    .otaBegin ⟨65536, 4096⟩ 1 (some 1) ∈
      (execute sampleEsp sampleRequested.device.ota c k payload).events ∧
    taggedRequest .otaBegin 3 sampleBegin =
      tagged sampleRequested.device.auth.sessionKey c k payload ∧
    .built (taggedRequest .otaBegin 3 sampleBegin) ∈ session sampleRequested.log ∧
    .built (taggedRequest .otaBegin 3 sampleBegin) ∉ earlier sampleRequested.log ∧
    Proved (session sampleRequested.log) (pskOctets 1) sampleRequested.device.auth.pair ∧
    Admitted (session sampleRequested.log) (pskOctets 1) sampleRequested.device.auth.pair := by
  have hrun : Run (fun _ _ => True) ⟨2, some (pskOctets 1)⟩ lockedDevice sampleHandshake.1.2
      sampleHandshake.2.2.1 0 :=
    .authenticated (.opened 0) (reaches_sampleHandshake fun _ _ => trivial)
  have hrequest : Moment (fun _ _ => True) ⟨2, some (pskOctets 1)⟩ lockedDevice _ sampleRequested :=
    @Moment.requesting _ _ _ _ _ _ 0 .otaBegin sampleBegin _ hrun (derives_public (by decide))
      (.single (.send rfl))
  exact @commands_authentic 1 lockedDevice rfl _ rfl _ _ _ _ hrequest sampleEsp _
    (Net.derives_of_said List.mem_cons_self (List.mem_singleton_self _) (by decide +kernel))
    (.otaBegin ⟨65536, 4096⟩ 1 (some 1)) (by decide +kernel) rfl

/-! ## Secrecy -/

end OtaLink
