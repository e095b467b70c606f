import OtaLink.AtMostOnce
import OtaLink.Session

/-!
# An update from end to end

While a file is being transferred, every packet in flight belongs to its update, and no
packet of an update can put anything but the file into an open session: the announcement
opens a session for the file, and a chunk is appended only at the offset it carries. So
the client needs to know only that its `OTA_BEGIN` was accepted by an execution of it, and
that its `OTA_END` was, and this is what an acknowledgment means, also one that the cache
sends again.

## Main definitions

* `OfUpdate` — the packets of the update of a file.
* `Ours`, `Finalised` — an open session holds a part of the file, a closed one the file.
* `Faithful` — what every packet of the update keeps.
* `update_writes_image` — when the client reports success, the device boots the file.
-/

namespace OtaLink
open Lib

variable {β : Type} [Alphabet β]

/-- The payload of a request without the tag it carries where the device demands one. -/
def Packet.body (tagged : Bool) (q : Packet β) : List β :=
  if tagged then q.payload.take (q.payload.length - authTagSize) else q.payload

/-- A request that passes the gate passes with its body. -/
theorem body_of_run {s : AuthState β} {q : Packet β} {payload : List β}
    (hp : authCommandIsProtected q.command = true) (h : s.gate q = .run payload) :
    q.body s.required = payload := by
  cases hr : s.required
  · simp only [AuthState.gate, hr, Bool.not_false, if_true, Gate.run.injEq] at h
    simpa [Packet.body] using h
  · obtain ⟨ha, -, hu⟩ := lookup_of_run h hr
    obtain ⟨hpay, -⟩ := (authUnwrapPacket_eq_ok (by simp [AuthState.signs, hr, ha, hp])).mp hu
    simp [Packet.body, hpay, authTagSize]

/-- The payload of the `OTA_BEGIN` for `f`. -/
def announcement (f : List β) : List β := le32 f.length ++ f.drop (f.length - 32)

/-- A packet of the update of `f`; the data and the end follow a successful `OTA_BEGIN`. -/
inductive OfUpdate (f : List β) (tagged began : Bool) (q : Packet β) : Prop
  | unguarded (h : authCommandIsProtected q.command = false)
  | announces (hc : q.command = Command.otaBegin.code) (hb : q.body tagged = announcement f)
  | carries (h : began = true) (hc : q.command = Command.otaData.code)
      (hb : (q.body tagged).drop otaDataHeaderSize <+: f.drop (readU32Le ((q.body tagged).drop 4)))
  | finishes (h : began = true) (hc : q.command = Command.otaEnd.code)

theorem OfUpdate.mono {f : List β} {tagged began : Bool} {q : Packet β}
    (h : OfUpdate f tagged began q) : OfUpdate f tagged true q := by
  cases h with
  | unguarded h => exact .unguarded h
  | announces hc hb => exact .announces hc hb
  | carries _ hc hb => exact .carries rfl hc hb
  | finishes _ hc => exact .finishes rfl hc

/-- An open session was announced for `f` and holds a part of it. -/
def Ours (f : List β) (w : World β) : Prop :=
  w.device.ota.active = true → ∃ S : Session β, S.Holds w.trace w.device.ota ∧
    S.partition.size ≤ 2 ^ 32 - 1 - otaMaxChunkDataSize ∧ S.payload = announcement f ∧ S.data <+: f

/-- A session has been closed whose accepted data are `f`, and the partition that holds it
has become the boot partition. -/
def Finalised (f : List β) (w : World β) : Prop :=
  ∃ (S : Session β) (packet : Packet β), S.payload = announcement f ∧ S.data = f ∧
    S.events ++ [.receive packet, .otaEnd S.handle true,
      .partitionGetSha256 (some S.partition) (some S.sha256),
      .setBootPartition (some S.partition) true] <:+: w.trace

/-- What an acknowledgment of the command stands for. -/
def Settled (f : List β) (command : UInt8) (w : World β) : Prop :=
  (command = Command.otaBegin.code → Ours f w) ∧ (command = Command.otaEnd.code → Finalised f w)

/-- What every packet of the update of `f` keeps. -/
structure Faithful (f : List β) (tagged began : Bool) (w : World β) : Prop where
  required : w.device.auth.required = tagged
  ours : began = true → Ours f w
  cached : tagged = true → ∀ entry ∈ w.device.auth.replayCache.entries,
    entry.responseCommand = Command.ack.code → Settled f entry.requestCommand w

section Step
variable {f : List β} {tagged began : Bool} {w : World β} {q : Packet β} {esp : EspIdf β}

theorem Ours.reset : Ours f w.reset := fun h => by simp [World.reset] at h

theorem Finalised.append (h : Finalised f w) {d : Device β} (events : List (Event β)) :
    Finalised f ⟨d, w.trace ++ events⟩ := by
  obtain ⟨S, packet, hp, hd, hs⟩ := h
  exact ⟨S, packet, hp, hd, hs.trans (List.prefix_append _ _).isInfix⟩

/-- A part of the file, followed by what comes next in it, is a part of the file. -/
theorem prefix_append_of_drop {α : Type} {f xs ys : List α} (hx : xs <+: f)
    (hy : ys <+: f.drop xs.length) : xs ++ ys <+: f := by
  obtain ⟨rest, rfl⟩ := hx
  rw [List.drop_left] at hy
  exact (List.prefix_append_right_inj xs).mpr hy

/-- **Only the file is written.** -/
theorem Ours.step (h : Ours f w) (hq : OfUpdate f w.device.auth.required began q)
    (hfit : esp.partitionsFit) : Ours f (w.step esp q) := by
  intro hactive'
  have hstep := step_ota w.device esp q
  cases hactive : w.device.ota.active
  · rcases session_of_opened w.trace hactive hstep with hn | ⟨S, HS, hdata, hc, hg, hp⟩
    · simp [World.step, hn] at hactive'
    · have hbody := body_of_run (by simp [hc, Command.isProtected]) hg
      refine ⟨S, HS, hfit _ hp, ?_, hdata ▸ List.nil_prefix⟩
      cases hq with
      | unguarded h => simp [hc, Command.isProtected] at h
      | announces _ hb => rw [← hbody, hb]
      | carries _ hd => simp [hc] at hd
      | finishes _ hd => simp [hc] at hd
  · obtain ⟨S, HS, hsize, hp, hdata⟩ := h hactive
    rcases HS.step hactive hsize hstep
      with hn | ⟨S', HS', hp', hpart, hsame | ⟨payload, hc, hg, hoff, hmore⟩⟩
    · simp [World.step, hn] at hactive'
    · exact ⟨S', HS', hpart ▸ hsize, hp'.trans hp, hsame ▸ hdata⟩
    · refine ⟨S', HS', hpart ▸ hsize, hp'.trans hp, ?_⟩
      rw [hmore]
      refine prefix_append_of_drop hdata ?_
      have hbody := body_of_run (by simp [hc, Command.isProtected]) hg
      cases hq with
      | unguarded h => simp [hc, Command.isProtected] at h
      | announces hd => simp [hc] at hd
      | carries _ _ hb => rwa [hbody, hoff] at hb
      | finishes _ hd => simp [hc] at hd

theorem Settled.step {command : UInt8} (h : Settled f command w)
    (hq : OfUpdate f w.device.auth.required began q) (hfit : esp.partitionsFit) :
    Settled f command (w.step esp q) :=
  ⟨fun hc => (h.1 hc).step hq hfit, fun hc => (h.2 hc).append _⟩

theorem Settled.reset {command : UInt8} (h : Settled f command w) : Settled f command w.reset :=
  ⟨fun _ => Ours.reset, fun hc => (h.2 hc).append _⟩

/-- An executed `OTA_END` closes a session that holds the whole file. -/
theorem finalised_of_run {payload : List β} (h : Ours f w) (hlt : f.length < 2 ^ 32)
    (hv : q.version = protocolVersion) (hc : q.command = Command.otaEnd.code)
    (hg : w.device.auth.gate q = .run payload)
    (hok : (execute esp w.device.ota .otaEnd q.sequence payload).error = .ok) :
    Finalised f (w.step esp q) := by
  have hb : payload.length = 0 := by
    by_contra hb
    simp [execute, runOta, hb, Outcome.refused] at hok
  simp only [execute, runOta, Outcome.operated, hb, bne_self_eq_false, Bool.and_false,
    Bool.false_eq_true, if_false] at hok
  rcases otaManagerEnd_cases esp w.device.ota with
    ⟨-, hne, -⟩ | ⟨hactive, hsize, hs, ⟨hne, -⟩ | ⟨hne, -⟩ | ⟨hval, hl⟩⟩
  · exact absurd hok hne
  · exact absurd hok hne
  · exact absurd hok hne
  have hboot : esp.setBootPartition = true := by
    by_contra hboot
    simp [hval, hboot] at hok
  obtain ⟨S, HS, -, hp, hdata⟩ := h hactive
  have hlen : S.data.length = f.length := by
    rw [← HS.bytesReceived, hsize, HS.firmwareSize, Session.size, hp, announcement,
      readU32Le_le32 hlt]
  obtain ⟨before, hbefore⟩ := HS.suffix
  refine ⟨S, q, hp, hdata.eq_of_length hlen, before,
    [.operate .otaEnd q.sequence payload .ok, .send (w.device.reply q .ok)], ?_⟩
  simp only [World.step, step_of_run esp hv hc rfl hg rfl, execute, runOta, Outcome.operated, hb,
    bne_self_eq_false, Bool.and_false, Bool.false_eq_true, if_false, hl, hboot, hok, ← hbefore,
    HS.handle, HS.partition, HS.expectedSha256]
  simp

/-- An executed `OTA_BEGIN` or `OTA_END` has done what its acknowledgment says. -/
theorem settled_of_run {c : Command} {payload : List β} (H : Faithful f tagged began w)
    (hq : OfUpdate f tagged began q) (hlt : f.length < 2 ^ 32) (hfit : esp.partitionsFit)
    (hv : q.version = protocolVersion) (hc : q.command = c.code)
    (hg : w.device.auth.gate q = .run payload)
    (hok : (execute esp w.device.ota c q.sequence payload).error = .ok) :
    Settled f q.command (w.step esp q) := by
  have hq' : OfUpdate f w.device.auth.required began q := H.required.symm ▸ hq
  refine ⟨fun hbegin => ?_, fun hend => ?_⟩
  · obtain rfl : c = .otaBegin := by simpa [hc] using hbegin
    refine Ours.step (fun hactive => ?_) hq' hfit
    rcases otaManagerBegin_cases esp payload w.device.ota with ⟨hne, -⟩ | ⟨-, -, hinactive, -⟩
    · exact absurd hok hne
    · simp [hinactive] at hactive
  · obtain rfl : c = .otaEnd := by simpa [hc] using hend
    refine finalised_of_run (H.ours ?_) hlt hv hc hg hok
    cases hq with
    | unguarded h => simp [hc, Command.isProtected] at h
    | announces h => simp [hc] at h
    | carries h => exact h
    | finishes h => exact h

/-- The cached responses after a response has been stored. -/
theorem mem_entries_remember {s : AuthState β} {c : Command} {payload : List β}
    {entry : ReplayEntry β} (h : entry ∈ (s.remember q c payload).replayCache.entries) :
    entry = s.entryFor q c payload ∨ entry ∈ s.replayCache.entries := by
  unfold AuthState.remember at h
  split at h
  · exact Ring.mem_entries_insert h
  · exact .inr h

/-- **One packet of the update.** It keeps what the update has achieved, and if it is
acknowledged, what the acknowledgment stands for is true. -/
theorem Faithful.step (H : Faithful f tagged began w) (hq : OfUpdate f tagged began q)
    (hlt : f.length < 2 ^ 32) (hfit : esp.partitionsFit) :
    Faithful f tagged began (w.step esp q) ∧ ∀ r, sent (w.device.step esp q).2 = [r] →
      r.command = Command.ack.code → Settled f q.command (w.step esp q) := by
  have hq' : OfUpdate f w.device.auth.required began q := H.required.symm ▸ hq
  have hours : began = true → Ours f (w.step esp q) := fun h => (H.ours h).step hq' hfit
  have hreq := (required_step w.device esp q).trans H.required
  have hold : ∀ e ∈ w.device.auth.replayCache.entries, tagged = true →
      e.responseCommand = Command.ack.code → Settled f e.requestCommand (w.step esp q) :=
    fun e he ht ha => (H.cached ht e he ha).step hq' hfit
  -- The cache after a response that is stored, if it is an acknowledgment rightly so.
  have hreport : ∀ (s : AuthState β) (error : ProtocolError),
      (error = .ok → Settled f q.command (w.step esp q)) →
      s.replayCache = w.device.auth.replayCache → ∀ e ∈ (s.remember q (responseFor error)
        (statusPayload error)).replayCache.entries, tagged = true →
      e.responseCommand = Command.ack.code → Settled f e.requestCommand (w.step esp q) := by
    intro s error hsettled hcache e he ht ha
    rcases mem_entries_remember he with rfl | he
    · refine hsettled ?_
      by_contra hne
      simp [AuthState.entryFor, hne] at ha
    · exact hold e (hcache ▸ he) ht ha
  have hpublic : ∀ c : Command, q.command = c.code → c.isProtected = false →
      Settled f q.command (w.step esp q) := by
    intro c hc hp
    refine ⟨fun h => ?_, fun h => ?_⟩ <;>
    · rw [hc, Command.code_inj] at h
      simp [h, Command.isProtected] at hp
  suffices (∀ e ∈ (w.step esp q).device.auth.replayCache.entries, tagged = true →
      e.responseCommand = Command.ack.code → Settled f e.requestCommand (w.step esp q)) ∧
      ∀ r, sent (w.device.step esp q).2 = [r] → r.command = Command.ack.code →
        Settled f q.command (w.step esp q) from
    ⟨⟨hreq, hours, fun ht e he => this.1 e he ht⟩, this.2⟩
  have h := step_cases w.device esp q
  have hdevice : (w.step esp q).device = (w.device.step esp q).1 := rfl
  rw [hdevice]
  generalize hx : w.device.step esp q = x at h
  cases h with
  | status error hping =>
    refine ⟨hold, fun r hsent ha => ?_⟩
    obtain rfl : frame (responseFor error) q.sequence (statusPayload error) = r := by
      simpa [Event.sent?] using hsent
    by_cases he : error = .ok
    · exact hpublic _ (hping he) rfl
    · simp [frame, he] at ha
  | info hc => exact ⟨hold, fun _ _ _ => hpublic _ hc rfl⟩
  | challenge hc =>
    refine ⟨fun e he => ?_, fun _ _ _ => hpublic _ hc rfl⟩
    simp [Device.challenged, AuthState.challenged] at he
  | proof hc => exact ⟨hold, fun _ _ _ => hpublic _ hc rfl⟩
  | @resend _ _ _ _ entry hg =>
    refine ⟨hold, fun r hsent ha => ?_⟩
    obtain ⟨hr', -, hl⟩ := lookup_of_resend hg
    obtain ⟨hmem, hcommand, -⟩ := mem_of_duplicate hl
    obtain rfl : entry.frame q.sequence = r := by simpa [Event.sent?] using hsent
    exact hcommand ▸ hold entry hmem (H.required ▸ hr') ha
  | refuse _ _ _ _ hg =>
    obtain rfl := error_of_refuse hg
    refine ⟨hreport _ _ (by simp) rfl, fun r hsent ha => ?_⟩
    obtain rfl : w.device.reply q .authRequired = r := by simpa [Event.sent?] using hsent
    simp [Device.reply, AuthState.response, frame, responseFor] at ha
  | run c hv hc hp hg ho =>
    have hok := settled_of_run H hq hlt hfit hv hc hg
    have hsent' := sent_step_of_run esp hv hc hp hg
    rw [ho] at hok hsent'
    rw [hx] at hsent'
    refine ⟨?_, fun r hsent ha => hok ?_⟩
    · dsimp only
      split
      · intro e he
        simp [Device.restarted, AuthState.cleared] at he
      · exact hreport _ _ hok rfl
    · rw [hsent'] at hsent
      obtain rfl := (List.cons.inj hsent).1
      by_contra hne
      simp [Device.reply, AuthState.response, frame, hne] at ha

theorem Faithful.reset (H : Faithful f tagged began w) : Faithful f tagged began w.reset :=
  ⟨H.required, fun _ => Ours.reset, fun _ e he => by
    simp [World.reset, Device.restarted, AuthState.cleared] at he⟩

end Step

/-! ## The client -/

section Client
variable {f : List β} {cfg : HostConfig β} {began : Bool} {c : Command} {payload : List β}

/-- No partition of the platform is too large for its offsets. -/
abbrev fitting (esp : EspIdf β) : Bool := decide esp.partitionsFit

/-- The client's side of a link that loses messages and a device that loses power. -/
abbrev updateEnv : Env Ask (Answer β) (Packet β) (Link (Packet β) (World β)) :=
  linkEnv true fitting (.free _ _)

/-- The body of a request is what the caller asked for. -/
theorem body_callPacket (hp : c.isProtected = true) (u : HostState β) (o : Packet β)
    (hk : cfg.guards c = true → u.sessionKey ≠ none) :
    (callPacket cfg u c (o.sequence + 1) payload).body cfg.authKey.isSome = payload := by
  have hlen := length_tagFor cfg u c (o.sequence + 1) payload hk
  have hg : cfg.guards c = cfg.authKey.isSome := by simp [HostConfig.guards, hp]
  cases hkey : cfg.authKey.isSome
  · rw [hg, hkey] at hlen
    simp [Packet.body, callPacket, frame, List.eq_nil_of_length_eq_zero hlen]
  · rw [hg, hkey] at hlen
    simp [Packet.body, callPacket, frame, hlen, authTagSize]

/-- What the client knows of the device before it may have to authenticate. -/
def Prepared (f : List β) (cfg : HostConfig β) (began : Bool) (o : Packet β) (w : World β) : Prop :=
  OfUpdate f cfg.authKey.isSome began o ∧ w.device.auth.required = cfg.authKey.isSome ∧
    (began = true → Ours f w)

theorem ofUpdate_auth {tagged : Bool} (n : UInt16) (payload : List β) :
    OfUpdate f tagged began (frame .auth n payload) :=
  .unguarded (by simp [frame, Command.isProtected])

theorem Prepared.step {o q : Packet β} {w : World β} {esp : EspIdf β} (h : Prepared f cfg began o w)
    (hq : OfUpdate f cfg.authKey.isSome began q) (hfit : esp.partitionsFit) :
    Prepared f cfg began o (w.step esp q) :=
  ⟨h.1, (required_step _ _ _).trans h.2.1, fun hb => (h.2.2 hb).step (h.2.1.symm ▸ hq) hfit⟩

/-- A challenge empties the cache. -/
theorem Prepared.challenge {o : Packet β} {w : World β} {esp : EspIdf β}
    (h : Prepared f cfg began o w) (hfit : esp.partitionsFit) {n : UInt16} {payload : List β}
    (hl : payload.length = authNonceSize) :
    Faithful f cfg.authKey.isSome began (w.step esp (frame .auth n payload)) := by
  obtain ⟨-, hreq, hours⟩ := h.step (ofUpdate_auth n payload) hfit
  refine ⟨hreq, hours, fun ht e he => ?_⟩
  have hh := handle_challenge esp (show (frame .auth n payload : Packet β).version = _ from rfl) rfl
    (h.2.1.trans ht) hl
  rw [World.step, step_of_send hh] at he
  simp [Device.challenged, AuthState.challenged] at he

theorem handshake_update (hlt : f.length < 2 ^ 32) (o : Packet β) :
    Handshake (deviceServer true fitting) (· = o) (Prepared f cfg began o)
      (Faithful f cfg.authKey.isSome began) where
  old {o' w r w'} ho h hs := by
    obtain ⟨esp, hfit, -, rfl⟩ := serves_iff.mp hs
    exact h.step (ho ▸ h.1) (by simpa using hfit)
  tick h ht := by
    obtain ⟨-, rfl⟩ := tick_iff.mp ht
    exact ⟨h.1, h.2.1, fun _ => Ours.reset⟩
  challenge hl h hs := by
    obtain ⟨esp, hfit, -, rfl⟩ := serves_iff.mp hs
    exact h.challenge (by simpa using hfit) hl
  again h hs := by
    obtain ⟨esp, hfit, -, rfl⟩ := serves_iff.mp hs
    exact (h.step (ofUpdate_auth _ _) hlt (by simpa using hfit)).1
  tick' h ht := by
    obtain ⟨-, rfl⟩ := tick_iff.mp ht
    exact h.reset

theorem Faithful.serves {tagged : Bool} {q r : Packet β} {w w' : World β}
    (h : Faithful f tagged began w) (hq : OfUpdate f tagged began q) (hlt : f.length < 2 ^ 32)
    (hs : (deviceServer true fitting).Serves w q r w') :
    Faithful f tagged began w' ∧ (r.command = Command.ack.code → Settled f q.command w') := by
  obtain ⟨esp, hfit, hsent, rfl⟩ := serves_iff.mp hs
  obtain ⟨h', hack⟩ := h.step hq hlt (show esp.partitionsFit by simpa using hfit)
  exact ⟨h', hack r hsent⟩

/-- The request belongs to the update, and the acknowledgments of it on the link are true. -/
def Honest (f : List β) (tagged began : Bool) (m : Packet β)
    (mine : List (Reply (Packet β) (World β))) (w : World β) : Prop :=
  OfUpdate f tagged began m ∧ Faithful f tagged began w ∧
    ∀ q ∈ mine, q.response.command = Command.ack.code → Settled f m.command w

theorem Honest.serves {tagged : Bool} {m r : Packet β} {mine : List (Reply (Packet β) (World β))}
    {w w' : World β} (h : Honest f tagged began m mine w) (hlt : f.length < 2 ^ 32)
    (hs : (deviceServer true fitting).Serves w m r w') :
    Honest f tagged began m (mine ++ [⟨m, r, w⟩]) w' := by
  obtain ⟨hm, H, hold⟩ := h
  obtain ⟨H', hack⟩ := H.serves hm hlt hs
  refine ⟨hm, H', fun q hq ha => ?_⟩
  rcases List.mem_append.mp hq with hq | hq
  · obtain ⟨esp, hfit, -, rfl⟩ := serves_iff.mp hs
    exact (hold q hq ha).step (H.required.symm ▸ hm) (by simpa using hfit)
  · rw [List.mem_singleton.mp hq] at ha
    exact hack ha

theorem callRule_update (hlt : f.length < 2 ^ 32) (hp : c.isProtected = true)
    (hlen : payload.length + (if cfg.guards c then 16 else 0) ≤ protocolMaxPayload)
    (hgen : ∀ q : Packet β, q.command = c.code → q.body cfg.authKey.isSome = payload →
      OfUpdate f cfg.authKey.isSome began q) :
    CallRule true fitting (.free _ _) cfg c payload (OfUpdate f cfg.authKey.isSome began)
      (Prepared f cfg began) (Faithful f cfg.authKey.isSome began)
      (Honest f cfg.authKey.isSome began) where
  length_le := hlen
  auth hm := by
    obtain ⟨n, payload, rfl⟩ := hm
    exact ofUpdate_auth n payload
  handshake := handshake_update hlt
  old ho h hs := (h.serves ho hlt hs).1
  tick h ht := by
    obtain ⟨-, rfl⟩ := tick_iff.mp ht
    exact h.reset
  exchange {o} u ho hk := by
    have hm := hgen (callPacket cfg u c (o.sequence + 1) payload) rfl (body_callPacket hp u o hk)
    exact {
      tag_ne := sequence_ne _
      old := fun h _ hs => (h.serves ho hlt hs).1
      tick := fun h ht => by
        obtain ⟨-, rfl⟩ := tick_iff.mp ht
        exact h.reset
      first := fun {w _ _} h _ hs =>
        (show Honest f _ began _ [] w from ⟨hm, h, by simp⟩).serves hlt hs
      again := fun h _ hs => h.serves hlt hs
      tick' := fun h ht => by
        obtain ⟨-, rfl⟩ := tick_iff.mp ht
        exact ⟨h.1, h.2.1.reset, fun q hq ha => (h.2.2 q hq ha).reset⟩
      lose := fun h _ => ⟨h.1, h.2.1, fun q hq => h.2.2 q (by simp at hq ⊢; tauto)⟩ }

/-- The client between two calls of the update. -/
def Ready (f : List β) (cfg : HostConfig β) (began : Bool) (t : HostState β)
    (L : Link (Packet β) (World β)) : Prop :=
  ∃ u o, t = HostState.at u o.sequence ∧ Idle Packet.sequence o L ∧
    Prepared f cfg began o L.server ∧
    (cfg.authKey.isSome = true → u.authenticated = true →
      Faithful f cfg.authKey.isSome began L.server) ∧
    (cfg.authKey.isSome = false → Faithful f cfg.authKey.isSome began L.server)

/-- One call of the update: if it is acknowledged, what that stands for is true. -/
theorem request_update (hlt : f.length < 2 ^ 32) (hp : c.isProtected = true)
    (hlen : payload.length + (if cfg.guards c then 16 else 0) ≤ protocolMaxPayload)
    (hgen : ∀ q : Packet β, q.command = c.code → q.body cfg.authKey.isSome = payload →
      OfUpdate f cfg.authKey.isSome began q) :
    Task.Spec updateEnv (fun _ => True) (Ready f cfg began) (request cfg c payload)
      (fun r t L => Ready f cfg began t L ∧
        (r.command = Command.ack.code → Settled f c.code L.server))
      (fun e _ _ => e ≠ .packetTooLarge) := by
  have hg : cfg.guards c = cfg.authKey.isSome := by simp [HostConfig.guards, hp]
  refine (request_spec (I := fun _ => True) (fun _ => callRule_update hlt hp hlen hgen)
    (fun _ _ _ _ _ _ _ _ _ h => ⟨h.1, h.2.1.required, h.2.1.ours⟩) (fun _ _ _ _ => trivial)
    (fun _ _ _ => trivial) (fun _ _ _ _ _ => trivial) (fun _ _ _ _ => by simp)
    (fun _ _ _ _ he _ => he) ?_).pre ?_
  · rintro _ o u r t L ho hk ht ⟨-, q, rfl, hidle, hm, H, hack⟩ -
    refine ⟨⟨t, _, by rw [← ht]; rfl, hidle, ⟨hm, H.required, H.ours⟩, fun _ _ => H, fun _ => H⟩,
      ?_⟩
    intro ha
    exact hack q List.mem_cons_self (by simpa using ha)
  · rintro t L ⟨u, o, rfl, hidle, hprep, hauth, hopen⟩
    exact ⟨u, o, rfl, hidle, hprep.1, hprep, hg ▸ hauth, hg ▸ hopen⟩

theorem runCommand_update (context : Context) (hlt : f.length < 2 ^ 32) (hp : c.isProtected = true)
    (hlen : payload.length + (if cfg.guards c then 16 else 0) ≤ protocolMaxPayload)
    (hgen : ∀ q : Packet β, q.command = c.code → q.body cfg.authKey.isSome = payload →
      OfUpdate f cfg.authKey.isSome began q) :
    Task.Spec updateEnv (fun _ => True) (Ready f cfg began) (runCommand cfg c payload context)
      (fun _ t L => Ready f cfg began t L ∧ Settled f c.code L.server)
      (fun e _ _ => e ≠ .packetTooLarge) := by
  refine Task.Spec.bind ((request_update hlt hp hlen hgen).handle fun e => ?_) fun r => ?_
  · split
    · exact Task.Spec.raise fun _ _ _ => by simp
    · exact Task.Spec.raise fun _ _ h => h
  · refine (ensureAck_spec fun e _ _ _ he => he).consequence (fun _ _ h => h) ?_ (fun _ _ _ h => h)
    rintro _ t L ⟨⟨hready, hack⟩, ha⟩
    exact ⟨hready, hack ha⟩

/-- After the announcement has been accepted, what is open is the session of the file. -/
theorem Ready.begin {t : HostState β} {L : Link (Packet β) (World β)} (h : Ready f cfg false t L)
    (hours : Ours f L.server) : Ready f cfg true t L := by
  obtain ⟨u, o, rfl, hidle, ⟨ho, hreq, -⟩, hauth, hopen⟩ := h
  have hmono : Faithful f cfg.authKey.isSome false L.server →
      Faithful f cfg.authKey.isSome true L.server := fun H => ⟨H.required, fun _ => hours, H.cached⟩
  exact ⟨u, o, rfl, hidle, ⟨ho.mono, hreq, fun _ => hours⟩, fun hk ha => hmono (hauth hk ha),
    fun hk => hmono (hopen hk)⟩

theorem runUpdateBegin_update (hlt : f.length < 2 ^ 32) :
    Task.Spec updateEnv (fun _ => True) (Ready f cfg false) (runUpdateBegin cfg f)
      (fun _ => Ready f cfg true) (fun e _ _ => e ≠ .packetTooLarge) := by
  unfold runUpdateBegin
  refine Task.Spec.ite (fun _ => Task.Spec.raise fun _ _ _ => by simp) fun _ => ?_
  refine Task.Spec.bind (R := fun payload t L => Ready f cfg false t L ∧ payload = announcement f)
    ?_ fun payload => ?_
  · refine Task.Spec.ite (fun _ => Task.Spec.raise fun _ _ _ => by simp) fun _ => ?_
    exact Task.Spec.pure fun t L h => ⟨h, rfl⟩
  rintro t L ⟨hready, rfl⟩
  refine (runCommand_update .otaBegin hlt rfl ?_ fun q hc hb => .announces hc hb).consequence
    (fun _ _ h => h) ?_ (fun _ _ _ h => h) _ _ hready
  · have : (announcement f).length ≤ 36 := by
      simp only [announcement, List.length_append, length_le32, List.length_drop]
      omega
    simp only [protocolMaxPayload]
    split <;> omega
  · rintro _ t L ⟨hready, hsettled⟩
    exact hready.begin (hsettled.1 rfl)

/-- The rest of a file after one chunk starts where the chunk ends. -/
theorem drop_chunk {α : Type} (f : List α) (sent n : ℕ) :
    (f.drop sent).drop n = f.drop (sent + ((f.drop sent).take n).length) := by
  rw [List.drop_drop, List.length_take, List.length_drop]
  rcases Nat.le_total n (f.length - sent) with h | h
  · rw [Nat.min_eq_left h]
  · rw [Nat.min_eq_right h, List.drop_eq_nil_of_le (by omega), List.drop_eq_nil_of_le (by omega)]

/-- The loop sends what is left of the file at the offset where it starts. -/
theorem sendChunks_update (hlt : f.length < 2 ^ 32) (fuel : ℕ) : ∀ chunkNumber sent,
    Task.Spec updateEnv (fun _ => True) (Ready f cfg true)
      (sendChunks cfg fuel chunkNumber sent (f.drop sent)) (fun _ => Ready f cfg true)
      (fun e _ _ => e ≠ .packetTooLarge) := by
  induction fuel with
  | zero => exact fun _ _ => Task.Spec.pure fun _ _ h => h
  | succ fuel ih =>
    intro chunkNumber sent
    have hmax : maxOtaChunkDataSize cfg + (if cfg.guards .otaData then 16 else 0) ≤ 1016 := by
      simp only [maxOtaChunkDataSize, HostConfig.guards, Command.isProtected, Bool.and_true]
      split <;> omega
    generalize hchunk : (f.drop sent).take (maxOtaChunkDataSize cfg) = chunk
    have hlen : chunk.length ≤ maxOtaChunkDataSize cfg := by
      rw [← hchunk, List.length_take]
      omega
    simp only [sendChunks, hchunk]
    refine Task.Spec.ite (fun _ => Task.Spec.pure fun _ _ h => h) fun hne => ?_
    refine Task.Spec.bind (R := fun payload t L => Ready f cfg true t L ∧
      payload = le32 chunkNumber ++ le32 sent ++ chunk ∧ sent < 2 ^ 32) ?_ fun payload => ?_
    · refine Task.Spec.ite (fun _ => Task.Spec.raise fun _ _ _ => by simp) fun hsmall => ?_
      refine Task.Spec.ite (fun h => by omega) fun _ => ?_
      refine Task.Spec.ite (fun _ => Task.Spec.raise fun _ _ _ => by simp) fun _ => ?_
      exact Task.Spec.pure fun t L h => ⟨h, rfl, by omega⟩
    rintro t L ⟨hready, rfl, hsent⟩
    refine Task.Spec.bind (runCommand_update _ hlt rfl ?_ fun q hc hb => ?_) (fun _ => ?_)
      _ _ hready
    · simp only [List.length_append, length_le32, protocolMaxPayload]
      omega
    · refine .carries rfl hc ?_
      have h4 : (q.body cfg.authKey.isSome).drop 4 = le32 sent ++ chunk := by
        rw [hb, List.append_assoc]
        rfl
      have h8 : (q.body cfg.authKey.isSome).drop otaDataHeaderSize = chunk := by
        rw [hb, List.append_assoc]
        rfl
      rw [h4, h8, readU32Le_le32 hsent, ← hchunk]
      exact List.take_prefix _ _
    · rw [drop_chunk, hchunk]
      exact (ih (chunkNumber + 1) (sent + chunk.length)).pre fun _ _ h => h.1

theorem cmdUpdate_spec :
    Task.Spec updateEnv (fun _ => True) (Ready f cfg false) (cmdUpdate cfg f)
      (fun _ _ L => Finalised f L.server) (fun e _ _ => e ≠ .packetTooLarge) := by
  by_cases hlt : f.length < 2 ^ 32
  · refine Task.Spec.bind (runUpdateBegin_update hlt) fun _ =>
      Task.Spec.bind (sendChunks_update hlt _ 0 0) fun _ => ?_
    refine (runCommand_update .otaEnd hlt rfl ?_ fun q hc _ => .finishes rfl hc).consequence
      (fun _ _ h => h) (fun _ _ _ h => h.2.2 rfl) (fun _ _ _ h => h)
    simp only [protocolMaxPayload, List.length_nil]
    split <;> omega
  · -- The announcement of such a file cannot be built.
    refine Task.Spec.bind (R := fun _ _ _ => False) ?_ fun _ _ _ h => h.elim
    unfold runUpdateBegin
    refine Task.Spec.ite (fun _ => Task.Spec.raise fun _ _ _ => by simp) fun _ => ?_
    refine Task.Spec.bind (R := fun _ _ _ => False) ?_ fun _ _ _ h => h.elim
    refine Task.Spec.ite (fun _ => Task.Spec.raise fun _ _ _ => by simp) fun h => ?_
    have hsize : 0 < f.length ∧ f.length ≤ 0xFFFFFFFF := by
      by_contra hsize
      exact h (.inl hsize)
    omega

end Client

/-- **End-to-end integrity.** Whatever is lost, whenever timers expire and the device loses
power, a new client never builds a packet that is too large, and if it reports that the
update is finalised, the platform has accepted exactly the file in one session and boots
the partition that holds it. -/
theorem update_writes_image {cfg : HostConfig β} {d : Device β}
    (hshared : d.auth.required = cfg.authKey.isSome) (n : UInt16) (f : List β)
    {r : Except HostError Unit} {t : HostState β} {L : Link (Packet β) (World β)}
    (h : updateEnv.Reaches (cmdUpdate cfg f (.opened n), .quiet ⟨d, []⟩) (.ret (r, t), L)) :
    r ≠ .error .packetTooLarge ∧ (r = .ok () → Finalised f L.server) := by
  have hstart : Ready f cfg false (.opened n) (.quiet ⟨d, []⟩) := by
    refine ⟨.opened n, frame .ping n [], rfl, Idle.quiet _ _,
      ⟨.unguarded (by simp [frame, Command.isProtected]), hshared, by simp⟩, ?_, fun hk => ?_⟩
    · simp [HostState.opened]
    · exact ⟨hshared, by simp, fun ht => by simp [hk] at ht⟩
  have hend := cmdUpdate_spec.reaches ?_ (fun e t _ _ _ h => h) hstart h
  · cases r with
    | ok => exact ⟨by simp, fun _ => hend⟩
    | error e => exact ⟨fun heq => hend (Except.error.inj heq), by simp⟩
  · intro _ _ L L' hmove hf
    cases hmove with
    | deliver _ hs =>
      obtain ⟨esp, -, -, rfl⟩ := serves_iff.mp hs
      exact hf.append _
    | loseRequest => exact hf
    | loseReply => exact hf
    | tick ht =>
      obtain ⟨-, rfl⟩ := tick_iff.mp ht
      exact hf.append _

/-- The program is over and reports success. -/
def reportsSuccess :
    Prog Ask (Answer β) (Packet β) (Except HostError Unit × HostState β) → Bool
  | .ret (.ok (), _) => true
  | _ => false

/-- An image of 32 octets, which end in themselves. -/
def sampleImage : List Octet := octets (List.replicate 32 9)

/-- A whole update in a session: the handshake, and one round trip for each command. -/
def sampleUpdate : List (Choice (EspIdf Octet)) :=
  .proceed :: roundTrip ++ roundTrip ++ roundTrip ++ roundTrip ++ roundTrip

theorem update_writes_image_sampleUpdate :
    ∃ t L, updateEnv.Reaches
      (cmdUpdate sampleHost sampleImage (.opened 0), .quiet ⟨lockedDevice, []⟩)
      (.ret (.ok (), t), L) ∧ Finalised sampleImage L.server := by
  obtain ⟨⟨p, L⟩, hr, hp⟩ := exists_reaches_of_play (deviceServer true fitting) (.free _ _)
    sampleAnswer sampleUpdate
      (cmdUpdate sampleHost sampleImage (.opened 0), .quiet ⟨lockedDevice, []⟩)
    (fun c => reportsSuccess c.1) (by decide +kernel)
  match p, hp with
  | .ret (.ok (), t), _ => exact ⟨t, L, hr, (update_writes_image rfl 0 sampleImage hr).2 rfl⟩

end OtaLink
