import OtaLink.Agreement

/-!
# An accepted response is real

The tag of a response says for which command and number it was made, not for which payload.
The client gives every request of a session a number of its own, and an ACK is signed only
for a request that has been executed, so the payload is the one of the call.

## Main definitions

* `accepted_real` — what `request` returns for a guarded command the device has signed, and
  an ACK means that the request of this call has been executed.
* `accepted_rollback_fails` — which for a rollback does not mean that it has succeeded.
-/

namespace OtaLink
open Lib

/-- **An accepted response is real.** The client has tagged the request of this call with the
key of a pair it has proved, and has never sent it before. The device has signed the response
with the same key; if it is an ACK, the device has executed the request. -/
theorem accepted_real {n : ℕ} {d₀ : Device Octet}
    (h₀ : otaLinkStartWithConfig ⟨some (pskOctets n), true⟩ = some d₀) {cfg : HostConfig Octet}
    (hkey : cfg.authKey = some (pskOctets n)) {t t' : HostState Octet} {s s' : Net} {k : ℕ}
    (h : Run Net.NewClientNonce cfg d₀ t s k) (hk : t.authenticated = true → k + 1 < 65536)
    {c : Command} (hp : c.isProtected = true) {payload : List Octet} (hpay : s.Derives payload)
    {r : Packet Octet} (hr : (attackerEnv Net.NewClientNonce).Reaches (request cfg c payload t, s)
      (.ret (.ok r, t'), s')) :
    ∃ q : NoncePair Octet,
      (t'.authenticated = true → t'.sessionKey = some (q.sessionKey (pskOctets n))) ∧
      Drawn s'.log q ∧ Proved s'.log (pskOctets n) q ∧
      .built (tagged (q.sessionKey (pskOctets n)) c t'.sequence payload) ∈ s'.log ∧
      .built (tagged (q.sessionKey (pskOctets n)) c t'.sequence payload) ∉ s.log ∧
      Signed s'.log (q.sessionKey (pskOctets n)) c r.command t'.sequence r.payload ∧
      (r.command = Command.ack.code → r.payload = statusPayload .ok ∧
        Executed s'.log (q.sessionKey (pskOctets n)) c t'.sequence payload) := by
  obtain ⟨hpsk, hstart⟩ := authored_otaLinkStartWithConfig h₀
  have hguards : cfg.guards c = true := by simp [HostConfig.guards, hkey, hp]
  obtain ⟨hsteady, hok⟩ := (h.steady hpsk hkey hstart).requested hpsk hkey hpay hr
  obtain ⟨key, hkey', hc⟩ := hok r rfl hguards
  obtain ⟨q, rfl, hproved⟩ := hc.session
  have hcount : (if t.authenticated then k + 1 else 1) < 65536 := by
    split
    · exact hk ‹_›
    · omega
  exact ⟨q, hkey', hsteady.drawn hproved, hproved, hc.sent.2, hc.new hcount, hc.signed,
    hc.executed hcount⟩

/-- The announcement of an image that nobody disturbs. -/
def sampleAnnouncement : (Except HostError (Packet Octet) × HostState Octet) ×
    Option (Packet Octet) × Net × Bool :=
  (request ⟨2, some (pskOctets 1)⟩ .otaBegin sampleBegin (.opened 0)).against
    (honest ⟨sampleClientNonce, length_sampleClientNonce⟩ sampleEsp) none (⟨lockedDevice, []⟩, true)

/-- The ACK is signed, and the image has been announced to the device. -/
theorem accepted_real_announcement : ∃ q : NoncePair Octet,
    (sampleAnnouncement.1.2.authenticated = true →
      sampleAnnouncement.1.2.sessionKey = some (q.sessionKey (pskOctets 1))) ∧
    Drawn sampleAnnouncement.2.2.1.log q ∧
    Proved sampleAnnouncement.2.2.1.log (pskOctets 1) q ∧
    .built (tagged (q.sessionKey (pskOctets 1)) .otaBegin sampleAnnouncement.1.2.sequence
      sampleBegin) ∈ sampleAnnouncement.2.2.1.log ∧
    .built (tagged (q.sessionKey (pskOctets 1)) .otaBegin sampleAnnouncement.1.2.sequence
      sampleBegin) ∉ ([] : List (Happening Octet)) ∧
    Signed sampleAnnouncement.2.2.1.log (q.sessionKey (pskOctets 1)) .otaBegin Command.ack.code
      sampleAnnouncement.1.2.sequence (statusPayload .ok) ∧
    (Command.ack.code = Command.ack.code → (statusPayload .ok : List Octet) = statusPayload .ok ∧
      Executed sampleAnnouncement.2.2.1.log (q.sessionKey (pskOctets 1)) .otaBegin
        sampleAnnouncement.1.2.sequence sampleBegin) := by
  have hreaches : (attackerEnv Net.NewClientNonce).Reaches
      (request ⟨2, some (pskOctets 1)⟩ .otaBegin sampleBegin (.opened 0), ⟨lockedDevice, []⟩)
      (.ret sampleAnnouncement.1, sampleAnnouncement.2.2.1) :=
    reaches_against (fun _ h => h) _ none (⟨lockedDevice, []⟩, true) (by simp) (by decide +kernel)
  have hend : sampleAnnouncement.1 = (.ok (ackFrame 3), sampleAnnouncement.1.2) :=
    Prod.ext (by decide +kernel) rfl
  rw [hend] at hreaches
  exact accepted_real rfl rfl (.opened 0) (by simp [HostState.opened]) rfl
    (derives_public (by decide)) hreaches

/-! ## A rollback that fails after its ACK -/

/-- The device has executed a request, and its platform has not refused the rollback. -/
def Succeeded (log : List (Happening Octet)) (key : List Octet) (c : Command) (n : UInt16)
    (payload : List Octet) : Prop :=
  ∃ d esp, .handled d esp (tagged key c n payload) ∈ log ∧
    c.CarriedOut d.ota payload (d.step esp (tagged key c n payload)).2 ∧
    .markInvalidRollbackAndReboot false ∉ (d.step esp (tagged key c n payload)).2

/-- A rollback that nobody disturbs, on a platform that refuses it after it was found possible. -/
def sampleRollback : (Except HostError (Packet Octet) × HostState Octet) ×
    Option (Packet Octet) × Net × Bool :=
  (request ⟨2, some (pskOctets 1)⟩ .rollback [] (.opened 0)).against
    (honest ⟨sampleClientNonce, length_sampleClientNonce⟩
      { sampleEsp with markInvalidReboots := false }) none (⟨lockedDevice, []⟩, true)

/-- If this is a rollback, the platform has refused it. -/
def Happening.refusesRollback : Happening Octet → Bool
  | .handled d esp m => m.command != Command.rollback.code ||
      decide (.markInvalidRollbackAndReboot false ∈ (d.step esp m).2)
  | _ => true

theorem refused_sampleRollback {d : Device Octet} {esp : EspIdf Octet} {m : Packet Octet}
    (h : .handled d esp m ∈ sampleRollback.2.2.1.log) (hc : m.command = Command.rollback.code) :
    .markInvalidRollbackAndReboot false ∈ (d.step esp m).2 := by
  have hall : ∀ x ∈ sampleRollback.2.2.1.log, x.refusesRollback = true := by decide +kernel
  simpa [Happening.refusesRollback, hc] using hall _ h

/-- An ACK for a rollback is no promise that the rollback succeeds: the dispatcher sends it before
the platform is asked, and ignores the answer. -/
theorem accepted_rollback_fails : ¬∀ (n : ℕ) (d₀ : Device Octet) (cfg : HostConfig Octet)
    (t t' : HostState Octet) (s s' : Net) (k : ℕ) (c : Command) (payload : List Octet)
    (r : Packet Octet), otaLinkStartWithConfig ⟨some (pskOctets n), true⟩ = some d₀ →
    cfg.authKey = some (pskOctets n) → Run Net.NewClientNonce cfg d₀ t s k →
    (t.authenticated = true → k + 1 < 65536) → c.isProtected = true → s.Derives payload →
    (attackerEnv Net.NewClientNonce).Reaches (request cfg c payload t, s) (.ret (.ok r, t'), s') →
    r.command = Command.ack.code → ∃ key, Succeeded s'.log key c t'.sequence payload := by
  intro h
  have hreaches : (attackerEnv Net.NewClientNonce).Reaches
      (request ⟨2, some (pskOctets 1)⟩ .rollback [] (.opened 0), ⟨lockedDevice, []⟩)
      (.ret sampleRollback.1, sampleRollback.2.2.1) :=
    reaches_against (fun _ h => h) _ none (⟨lockedDevice, []⟩, true) (by simp) (by decide +kernel)
  have hend : sampleRollback.1 = (.ok (ackFrame 3), sampleRollback.1.2) :=
    Prod.ext (by decide +kernel) rfl
  rw [hend] at hreaches
  obtain ⟨key, d, esp, hmem, -, hno⟩ := h 1 lockedDevice ⟨2, some (pskOctets 1)⟩ (.opened 0) _
    ⟨lockedDevice, []⟩ _ 0 .rollback [] _ rfl rfl (.opened 0) (by simp [HostState.opened]) rfl
    (by simp [Net.Derives]) hreaches rfl
  exact hno (refused_sampleRollback hmem rfl)

end OtaLink
