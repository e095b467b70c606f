import OtaLink.Recovery
import OtaLink.Retry

/-!
# What belongs to a call

If, when a protected call is made, neither the cache of the device nor the link holds anything
under its command and sequence number, whatever appears there afterwards belongs to the call:
the first packet that arrives is executed, and every response to it was computed for it.

## Main definitions

* `Computed` — the device has computed a response since a point of its run.
* `Holding` — the device is in a session.
* `Belongs` — whatever has the command and sequence number of a packet belongs to it.
* `Carried` — a property of the link that some packets do not affect.
* `request_belongs` — what a protected call keeps.
-/

namespace OtaLink
open Lib

variable {β : Type} [Alphabet β]

/-! ## Runs of the device -/

/-- The world after these stimuli. -/
def World.run (w : World β) (xs : List (Stimulus β)) : World β :=
  ⟨(w.device.run xs).1, w.trace ++ (w.device.run xs).2⟩

section Run
variable {w : World β} {m r : Packet β}

@[simp] theorem World.run_nil : w.run [] = w := by
  simp [World.run, Device.run]

theorem World.run_append (xs ys : List (Stimulus β)) : w.run (xs ++ ys) = (w.run xs).run ys := by
  simp [World.run, Device.run_append]

theorem World.run_packet (esp : EspIdf β) : w.run [.packet m esp] = w.step esp m := by
  simp [World.run, World.step, Device.run, Device.after]

theorem World.run_reset : w.run [.reset] = w.reset := by
  simp [World.run, World.reset, Device.run, Device.after]

/-- A step of the link is a run of the device. -/
theorem exists_run_of_move {resets : Bool} {allowed : EspIdf β → Bool}
    {P : Policy (Packet β) (World β)} {L L' : Link (Packet β) (World β)}
    (h : Link.Move (deviceServer resets allowed) P L L') : ∃ xs, L'.server = L.server.run xs := by
  cases h with
  | deliver _ hs =>
    obtain ⟨esp, -, -, rfl⟩ := serves_iff.mp hs
    exact ⟨_, (World.run_packet esp).symm⟩
  | tick ht =>
    obtain ⟨-, rfl⟩ := tick_iff.mp ht
    exact ⟨_, World.run_reset.symm⟩
  | _ => exact ⟨[], World.run_nil.symm⟩

/-- Between `w₀` and `w` the device has handled `m`, not from its cache, and answered `r`. -/
def Computed (w₀ w : World β) (m r : Packet β) : Prop :=
  ∃ xs esp ys, (∀ entry, (w₀.run xs).device.auth.gate m ≠ .resend entry) ∧
    sent ((w₀.run xs).device.step esp m).2 = [r] ∧ w = ((w₀.run xs).step esp m).run ys

theorem Computed.run {w₀ : World β} (h : Computed w₀ w m r) (zs : List (Stimulus β)) :
    Computed w₀ (w.run zs) m r := by
  obtain ⟨xs, esp, ys, hgate, hsent, rfl⟩ := h
  exact ⟨xs, esp, ys ++ zs, hgate, hsent, (World.run_append ys zs).symm⟩

/-- A response that the device computes now. -/
theorem Computed.now {w₀ : World β} (hran : ∃ xs, w = w₀.run xs) {esp : EspIdf β}
    (hgate : ∀ entry, w.device.auth.gate m ≠ .resend entry)
    (hsent : sent (w.device.step esp m).2 = [r]) : Computed w₀ (w.step esp m) m r := by
  obtain ⟨xs, rfl⟩ := hran
  exact ⟨xs, esp, [], hgate, hsent, World.run_nil.symm⟩

/-- The device has received the packet. -/
theorem Computed.received {w₀ : World β} (h : Computed w₀ w m r) :
    .receive m ∈ w.trace.drop w₀.trace.length := by
  obtain ⟨xs, esp, ys, -, -, rfl⟩ := h
  simp [World.run, World.step, Device.step]

end Run

/-! ## The session and the cache -/

/-- The device has lost its session: it has restarted. -/
def Restarted (trace : List (Event β)) : Prop := ∃ e ∈ trace, e.reboots = true ∨ e = .reset

omit [Alphabet β] in
theorem Restarted.append {trace : List (Event β)} (h : Restarted trace) (events : List (Event β)) :
    Restarted (trace ++ events) := by
  obtain ⟨e, he, hr⟩ := h
  exact ⟨e, List.mem_append_left _ he, hr⟩

/-- The device is in the session with this key. -/
structure Holding (key : List β) (s : AuthState β) : Prop where
  required : s.required = true
  authenticated : s.authenticated = true
  sessionKey : s.sessionKey = key

/-- No packet but a challenge ends a session, unless the device restarts. -/
theorem Holding.step {key : List β} {d : Device β} (h : Holding key d.auth) {m : Packet β}
    (hm : m.isChallenge = false) (esp : EspIdf β) :
    (∃ e ∈ (d.step esp m).2, e.reboots = true) ∨ Holding key (d.step esp m).1.auth := by
  have hreport : ∀ (d' : Device β) error, d'.auth = d.auth →
      Holding key (d'.report m error).auth := by
    intro d' error hd
    refine ⟨?_, ?_, ?_⟩ <;> simp [Device.report, hd, h.required, h.authenticated, h.sessionKey]
  have hstep := step_cases d esp m
  generalize d.step esp m = x at hstep
  cases hstep with
  | status | info | resend => exact .inr h
  | challenge hc _ hn => simp [Packet.isChallenge, hc, hn] at hm
  | proof => exact .inr ⟨h.required, rfl, h.sessionKey⟩
  | refuse => exact .inr (hreport _ _ rfl)
  | @run _ _ _ _ _ _ o =>
    by_cases hb : o.after.any Event.reboots = true
    · obtain ⟨e, he, hreboots⟩ := List.any_eq_true.mp hb
      exact .inl ⟨e, by simp [he], hreboots⟩
    · right
      rw [if_neg hb]
      exact hreport _ _ rfl

/-- What reporting an error adds to the cache is the response that reports it. -/
theorem entry_of_report {d d' : Device β} (hd : d'.auth = d.auth) {m : Packet β}
    {error : ProtocolError} {entry : ReplayEntry β}
    (h : entry ∈ (d'.report m error).auth.replayCache.entries) :
    entry ∈ d.auth.replayCache.entries ∨ (entry.sequence = m.sequence ∧
      entry.requestDigest = computeRequestDigest m ∧
      d.reply m error = entry.frame m.sequence) := by
  simp only [Device.report, hd, AuthState.remember] at h
  split at h
  · rename_i hs
    rcases Ring.mem_entries_insert h with rfl | h
    · refine .inr ⟨rfl, rfl, ?_⟩
      rw [Device.reply, AuthState.response, if_pos hs]
      rfl
    · exact .inl h
  · exact .inl h

/-- What a step adds to the cache is the response it has computed. -/
theorem entry_of_step {d : Device β} {esp : EspIdf β} {m : Packet β} {entry : ReplayEntry β}
    (h : entry ∈ (d.step esp m).1.auth.replayCache.entries) :
    entry ∈ d.auth.replayCache.entries ∨ ((∀ e, d.auth.gate m ≠ .resend e) ∧
      entry.sequence = m.sequence ∧ entry.requestDigest = computeRequestDigest m ∧
      sent (d.step esp m).2 = [entry.frame m.sequence]) := by
  have hstep := step_cases d esp m
  generalize he : d.step esp m = x at h hstep
  cases hstep with
  | status | info | proof | resend => exact .inl h
  | challenge => simp [Device.challenged, AuthState.challenged] at h
  | refuse _ _ _ _ hg =>
    rcases entry_of_report rfl h with h | ⟨hseq, hdigest, hreply⟩
    · exact .inl h
    · refine .inr ⟨by simp [hg], hseq, hdigest, ?_⟩
      simp [Event.sent?, hreply]
  | run c hv hc hp hg ho =>
    rw [← he, sent_step_of_run esp hv hc hp hg, ho]
    dsimp only at h
    split at h
    · simp [Device.restarted, AuthState.cleared] at h
    · rcases entry_of_report (d := d) rfl h with h | ⟨hseq, hdigest, hreply⟩
      · exact .inl h
      · refine .inr ⟨by simp [hg], hseq, hdigest, ?_⟩
        rw [hreply]

/-! ## What is on the link -/

/-- The device holds the session, and nothing on its way ends it; or it has restarted. -/
def Kept (key : List β) (L : Link (Packet β) (World β)) : Prop :=
  Restarted L.server.trace ∨
    (Holding key L.server.device.auth ∧ ∀ q ∈ L.requests, q.isChallenge = false)

/-- Handling `m` the device has answered `r`, and it demands no session while it has one. -/
def Answers (w₀ w : World β) (m r : Packet β) : Prop :=
  Computed w₀ w m r ∧ (Restarted w.trace ∨ isAuthRequired r = false)

/-- Since `w₀`, whatever has the command and sequence number of `m` belongs to `m`. -/
structure Belongs (key : List β) (w₀ : World β) (m : Packet β) (L : Link (Packet β) (World β)) :
    Prop where
  kept : Kept key L
  ran : ∃ xs, L.server = w₀.run xs
  requests : ∀ q ∈ L.requests, q.sequence = m.sequence →
    q = m ∧ q.payload.length ≤ protocolMaxPayload
  replies : ∀ q ∈ L.replies, q.response.sequence = m.sequence → Answers w₀ L.server m q.response
  entries : ∀ entry ∈ L.server.device.auth.replayCache.entries, entry.requestCommand = m.command →
    entry.sequence = m.sequence → entry.requestDigest = computeRequestDigest m ∧
      Answers w₀ L.server m (entry.frame m.sequence)

/-- Neither the cache nor the link holds anything under this command and sequence number. -/
structure Unaliased (c : Command) (n : UInt16) (L : Link (Packet β) (World β)) : Prop where
  entries : ∀ entry ∈ L.server.device.auth.replayCache.entries,
    ¬(entry.requestCommand = c.code ∧ entry.sequence = n)
  requests : ∀ q ∈ L.requests, q.sequence ≠ n
  replies : ∀ q ∈ L.replies, q.response.sequence ≠ n

section Moves
variable {key : List β} {w₀ : World β} {m : Packet β} {L L' : Link (Packet β) (World β)}
  {P : Policy (Packet β) (World β)} {allowed : EspIdf β → Bool}

theorem Answers.run {w : World β} {r : Packet β} (h : Answers w₀ w m r) (xs : List (Stimulus β)) :
    Answers w₀ (w.run xs) m r := ⟨h.1.run xs, h.2.imp_left fun h => h.append _⟩

theorem Kept.move (h : Kept key L) (hmove : Link.Move (deviceServer true allowed) P L L') :
    Kept key L' := by
  rcases h with h | ⟨hheld, hreq⟩
  · obtain ⟨xs, hxs⟩ := exists_run_of_move hmove
    rw [Kept, hxs]
    exact .inl (h.append _)
  cases hmove with
  | @deliver q rest replies n w r w' _ hs =>
    obtain ⟨esp, -, -, rfl⟩ := serves_iff.mp hs
    obtain ⟨hq, hrest⟩ := List.forall_mem_cons.mp hreq
    rcases hheld.step hq esp with ⟨e, he, hreboots⟩ | hheld
    · exact .inl ⟨e, List.mem_append_right _ he, .inl hreboots⟩
    · exact .inr ⟨hheld, hrest⟩
  | loseRequest => exact .inr ⟨hheld, fun x hx => hreq x (by simp_all; tauto)⟩
  | loseReply => exact .inr ⟨hheld, hreq⟩
  | tick ht =>
    obtain ⟨-, rfl⟩ := tick_iff.mp ht
    exact .inl ⟨.reset, by simp [World.reset], .inr rfl⟩

omit [Alphabet β] in
theorem Kept.send (h : Kept key L) {q : Packet β} (hq : Restarted L.server.trace ∨
    q.isChallenge = false) : Kept key { L with requests := L.requests ++ [q] } := by
  rcases h with h | ⟨hheld, hreq⟩
  · exact .inl h
  · refine hq.imp id fun hq => ⟨hheld, fun x hx => ?_⟩
    rcases List.mem_append.mp hx with hx | hx
    · exact hreq x hx
    · rwa [List.mem_singleton.mp hx]

/-- Only a refusal of the gate demands a session. -/
theorem isAuthRequired_reply_of_ne (d : Device β) (m : Packet β) {error : ProtocolError}
    (hne : error ≠ .authRequired) : isAuthRequired (d.reply m error) = false := by
  unfold Device.reply AuthState.response
  split
  · exact isAuthRequired_of_ne hne _ _ _
  · simpa using isAuthRequired_of_ne hne (responseFor error) m.sequence ([] : List β)

variable {c : Command} {n : UInt16} {payload : List β}

/-- A tagged request that is new to the cache is executed. -/
theorem Holding.gate {s : AuthState β} (h : Holding key s) (hp : c.isProtected = true)
    (hl : (tagged key c n payload).payload.length ≤ protocolMaxPayload)
    (hnew : ∀ entry ∈ s.replayCache.entries,
      entry.requestCommand = c.code → entry.sequence ≠ n) :
    s.gate (tagged key c n payload) = .run payload := by
  have hl' : payload.length ≤ 1008 := by
    simp only [tagged, frame, List.length_append, length_requestTag, protocolMaxPayload] at hl
    omega
  have hfresh : s.lookup (tagged key c n payload) = .fresh :=
    lookup_eq_fresh_iff.mpr fun entry he hmatch => hnew entry he hmatch.1 hmatch.2
  obtain ⟨hr, ha, rfl⟩ := h
  exact gate_of_fresh hr ha hp hl' hfresh

/-- A device that holds the session executes the request or answers it from the cache. -/
theorem Belongs.serve (hm : m = tagged key c n payload) (hp : c.isProtected = true)
    (hl : m.payload.length ≤ protocolMaxPayload) (h : Belongs key w₀ m L) {esp : EspIdf β}
    {r : Packet β} (hsent : sent (L.server.device.step esp m).2 = [r]) :
    Answers w₀ (L.server.step esp m) m r := by
  have hv : m.version = protocolVersion := by rw [hm]; rfl
  have hcode : m.command = c.code := by rw [hm]; rfl
  by_cases hresend : ∃ entry, L.server.device.auth.gate m = .resend entry
  · obtain ⟨entry, hg⟩ := hresend
    obtain ⟨-, -, hlookup⟩ := lookup_of_resend hg
    obtain ⟨hmem, hcommand, hsequence, -⟩ := mem_of_duplicate hlookup
    obtain rfl : entry.frame m.sequence = r := by
      rw [step_of_resend esp hv hcode hp hg] at hsent
      simpa [Event.sent?] using hsent
    rw [← World.run_packet]
    exact (h.entries entry hmem hcommand hsequence).2.run _
  · have hgate : ∀ entry, L.server.device.auth.gate m ≠ .resend entry :=
      fun entry hg => hresend ⟨entry, hg⟩
    refine ⟨.now h.ran hgate hsent, ?_⟩
    rcases h.kept with hrestarted | ⟨hheld, -⟩
    · exact .inl (Restarted.append hrestarted _)
    refine .inr ?_
    -- An entry for the request would be a duplicate of it.
    have hnew : ∀ entry ∈ L.server.device.auth.replayCache.entries,
        entry.requestCommand = c.code → entry.sequence ≠ n := by
      cases hlookup : L.server.device.auth.lookup m with
      | fresh =>
        intro entry he hcommand hsequence
        refine lookup_eq_fresh_iff.mp hlookup entry he ⟨hcommand.trans hcode.symm, ?_⟩
        rw [hsequence, hm]
        rfl
      | duplicate entry =>
        refine absurd ?_ (hgate entry)
        simp [AuthState.gate, hheld.required, hheld.authenticated, hlookup]
      | conflict =>
        obtain ⟨entry, he, hcommand, hsequence, hdigest⟩ := mem_of_conflict hlookup
        exact absurd (h.entries entry he hcommand hsequence).1 hdigest
    have hg : L.server.device.auth.gate m = .run payload := by
      subst hm
      exact hheld.gate hp hl hnew
    rw [sent_step_of_run esp hv hcode hp hg, List.singleton_inj] at hsent
    rw [← hsent]
    exact isAuthRequired_reply_of_ne _ _ (execute_ne_authRequired _ _ _ _ _)

/-- Every move of the link keeps what belongs to the request. -/
theorem Belongs.move (hm : m = tagged key c n payload) (hp : c.isProtected = true)
    (h : Belongs key w₀ m L) (hmove : Link.Move (deviceServer true allowed) P L L') :
    Belongs key w₀ m L' := by
  have hkept := h.kept.move hmove
  obtain ⟨xs, hran⟩ := exists_run_of_move hmove
  have hran' : ∃ xs, L'.server = w₀.run xs := by
    obtain ⟨ys, hys⟩ := h.ran
    exact ⟨ys ++ xs, by rw [hran, hys, World.run_append]⟩
  have hanswers : ∀ {r}, Answers w₀ L.server m r → Answers w₀ L'.server m r := by
    intro r hr
    rw [hran]
    exact hr.run xs
  cases hmove with
  | @deliver q rest replies k w r w' _ hs =>
    have hseq := sequence_of_serves hs
    obtain ⟨esp, -, hsent, rfl⟩ := serves_iff.mp hs
    have hserve : q.sequence = m.sequence → q = m ∧ Answers w₀ (w.step esp q) m r := by
      intro hq
      obtain ⟨rfl, hl⟩ := h.requests q List.mem_cons_self hq
      exact ⟨rfl, h.serve hm hp hl hsent⟩
    refine ⟨hkept, hran', fun x hx => h.requests x (List.mem_cons_of_mem _ hx), ?_, ?_⟩
    · intro x hx hxs
      rcases List.mem_append.mp hx with hx | hx
      · exact hanswers (h.replies x hx hxs)
      · rw [List.mem_singleton.mp hx] at hxs ⊢
        exact (hserve (hseq.symm.trans hxs)).2
    · intro entry hentry hcommand hsequence
      rcases entry_of_step hentry with hold | ⟨-, hqs, hdigest, hframe⟩
      · obtain ⟨hdigest, ha⟩ := h.entries entry hold hcommand hsequence
        exact ⟨hdigest, hanswers ha⟩
      · obtain ⟨rfl, ha⟩ := hserve (hqs.symm.trans hsequence)
        rw [hframe, List.singleton_inj] at hsent
        exact ⟨hdigest, hsent ▸ ha⟩
  | @loseRequest as q bs =>
    have hsub := ((List.sublist_cons_self q bs).append_left as).subset
    exact ⟨hkept, h.ran, fun x hx => h.requests x (hsub hx), h.replies, h.entries⟩
  | @loseReply _ as r bs =>
    have hsub := ((List.sublist_cons_self r bs).append_left as).subset
    exact ⟨hkept, h.ran, h.requests, fun x hx => h.replies x (hsub hx), h.entries⟩
  | tick ht =>
    obtain ⟨-, rfl⟩ := tick_iff.mp ht
    refine ⟨hkept, hran', h.requests, fun x hx hxs => hanswers (h.replies x hx hxs), ?_⟩
    intro entry hentry
    simp [World.reset, Device.restarted, AuthState.cleared] at hentry

/-- The client sends the request itself, or a packet under another sequence number. -/
theorem Belongs.send (h : Belongs key w₀ m L) {q : Packet β}
    (hq : q = m ∧ q.payload.length ≤ protocolMaxPayload ∨ q.sequence ≠ m.sequence)
    (hc : Restarted L.server.trace ∨ q.isChallenge = false) :
    Belongs key w₀ m { L with requests := L.requests ++ [q] } := by
  refine ⟨h.kept.send hc, h.ran, fun x hx hxs => ?_, h.replies, h.entries⟩
  rcases List.mem_append.mp hx with hx | hx
  · exact h.requests x hx hxs
  · obtain rfl := List.mem_singleton.mp hx
    exact hq.resolve_right fun hne => hne hxs

/-- The client reads responses. -/
theorem Belongs.read (h : Belongs key w₀ m L) {accept : Packet β → Bool} {r : Option (Packet β)}
    (hread : Link.Read P accept L r L') : Belongs key w₀ m L' ∧ ∀ r', r = some r' →
      accept r' = true ∧ (r'.sequence = m.sequence → Answers w₀ L'.server m r') := by
  cases hread with
  | @answer requests pre q post k w _ hq _ =>
    refine ⟨⟨h.kept, h.ran, h.requests, fun x hx => h.replies x (by simp_all), h.entries⟩, ?_⟩
    rintro _ ⟨⟩
    exact ⟨hq, h.replies q (by simp)⟩
  | expire =>
    exact ⟨⟨h.kept, h.ran, h.requests, fun x hx => h.replies x (by simp_all), h.entries⟩,
      fun _ hr => by cases hr⟩

/-- The first packet of the call is executed. -/
theorem Belongs.gate (hm : m = tagged key c n payload) (hp : c.isProtected = true)
    (hl : m.payload.length ≤ protocolMaxPayload) (h : Belongs key w₀ m L)
    (halive : ¬Restarted L.server.trace)
    (hnew : .receive m ∉ L.server.trace.drop w₀.trace.length) :
    L.server.device.auth.gate m = .run payload := by
  obtain ⟨hheld, -⟩ := h.kept.resolve_left halive
  subst hm
  refine hheld.gate hp hl fun entry he hcommand hsequence => ?_
  exact hnew (h.entries entry he hcommand hsequence).2.1.received

end Moves

/-! ## The client -/

/-- Every run: packets are lost, timers expire, and the device loses power at any time. -/
abbrev lossyEnv : Env Ask (Answer β) (Packet β) (Link (Packet β) (World β)) :=
  linkEnv true (fun _ => true) (.free _ _)

/-- A packet is sent, and sent again, until a response is read. -/
theorem requestPacket_reads {cfg : HostConfig β} {m : Packet β}
    {J : Link (Packet β) (World β) → Prop} {K : HostState β → Prop}
    {R : Packet β → Link (Packet β) (World β) → Prop} (hst : lossyEnv.Stable J)
    (hsend : ∀ L, J L → J { L with requests := L.requests ++ [m] })
    (hread : ∀ L r L', Link.Read (.free _ _) (fun r => r.sequence == m.sequence) L r L' → J L →
      J L' ∧ ∀ q, r = some q → R q L') :
    Task.Spec lossyEnv J (fun t L => K t ∧ J L) (requestPacket cfg m)
      (fun r t L => K t ∧ J L ∧ R r L) (fun _ t L => K t ∧ J L) := by
  refine Task.Spec.bind (R := fun r t L => K t ∧ J L ∧ ∀ q, r = some q → R q L) ?_ fun r => ?_
  · refine Task.Spec.exchange (W := fun _ t L => K t ∧ J L) (V := fun _ t L => K t ∧ J L)
      ?_ ?_ (fun _ _ _ h => h.2) (fun _ _ _ h => h.2) ?_ ?_ ?_ ?_ cfg.retries
    · exact fun _ _ _ _ hmove h => ⟨h.1, hst _ _ hmove h.2⟩
    · exact fun _ _ _ _ hmove h => ⟨h.1, hst _ _ hmove h.2⟩
    · rintro _ t L _ h rfl
      exact ⟨h.1, hsend L h.2⟩
    · exact fun _ _ _ _ h hr => ⟨h.1, (hread _ _ _ hr h.2).1⟩
    · exact fun _ _ _ _ _ h hr => ⟨h.1, hread _ _ _ hr h.2⟩
    · exact fun _ _ h => ⟨h.1, h.2, fun _ h => by cases h⟩
  · cases r with
    | some r => exact Task.Spec.pure fun _ _ h => ⟨h.1, h.2.1, h.2.2 r rfl⟩
    | none => exact Task.Spec.raise fun _ _ h => ⟨h.1, h.2.1⟩

/-- What the packet does not affect holds while it is sent and answered. -/
theorem requestPacket_keeps {cfg : HostConfig β} {m : Packet β}
    {J : Link (Packet β) (World β) → Prop} {K : HostState β → Prop} (hst : lossyEnv.Stable J)
    (hsend : ∀ L, J L → J { L with requests := L.requests ++ [m] })
    (hread : ∀ L r L', Link.Read (.free _ _) (fun r => r.sequence == m.sequence) L r L' → J L →
      J L') :
    Task.Spec lossyEnv J (fun t L => K t ∧ J L) (requestPacket cfg m) (fun _ t L => K t ∧ J L)
      (fun _ t L => K t ∧ J L) :=
  (requestPacket_reads (R := fun _ _ => True) hst hsend
    fun L r L' hr h => ⟨hread L r L' hr h, fun _ _ => trivial⟩).consequence (fun _ _ h => h)
      (fun _ _ _ h => ⟨h.1, h.2.1⟩) fun _ _ _ h => h

/-- Whatever the client does, the device goes on from where it was. -/
theorem exists_run_of_reaches {α : Type} {p p' : Prog Ask (Answer β) (Packet β) α}
    {L L' : Link (Packet β) (World β)} (h : lossyEnv.Reaches (p, L) (p', L')) :
    ∃ xs, L'.server = L.server.run xs := by
  suffices ∀ c, lossyEnv.Reaches (p, L) c → ∃ xs, c.2.server = L.server.run xs from this _ h
  intro c hc
  induction hc with
  | refl => exact ⟨[], World.run_nil.symm⟩
  | tail _ hstep ih =>
    obtain ⟨xs, hxs⟩ := ih
    cases hstep with
    | rely hmove =>
      obtain ⟨ys, hys⟩ := exists_run_of_move hmove
      exact ⟨xs ++ ys, by rw [World.run_append, ← hxs, hys]⟩
    | ask h =>
      obtain rfl := h
      exact ⟨xs, hxs⟩
    | send h =>
      obtain rfl := h
      exact ⟨xs, hxs⟩
    | recv h => cases h <;> exact ⟨xs, hxs⟩

/-- A run without losses is one of the runs. -/
theorem reaches_of_reliable {t : HostState β} {L : Link (Packet β) (World β)}
    {nonce : World β → Answer β .urandom} {esp : World β → Packet β → EspIdf β} {α : Type}
    {x : HostTask β α} {t' : HostState β} {r : Except HostError α} {w : World β} (hL : L.Empty)
    (h : x.Gives (reliable nonce esp) t L.server r t' w) :
    ∃ L', L'.Empty ∧ lossyEnv.Reaches (x t, L) (.ret (r, t'), L') ∧ L'.server = w := by
  refine h.reaches (fun w q => ?_) (fun {w m r w'} hs => ?_) hL
  · cases q
    rfl
  · exact ⟨esp w m, by simpa [deviceServer, reliable] using hs⟩

/-- A property of the link that these packets do not affect. -/
structure Carried (Other : Packet β → Prop) (J : Link (Packet β) (World β) → Prop) : Prop where
  move {L L'} (hmove : Link.Move (deviceServer true fun _ => true) (.free _ _) L L') (h : J L) :
    J L'
  send {L} {q : Packet β} (hq : Other q) (h : J L) : J { L with requests := L.requests ++ [q] }
  read {L accept r L'} (hread : Link.Read (.free _ _) accept L r L') (h : J L) : J L'

section Carried
variable {cfg : HostConfig β} {Other : Packet β → Prop} {J : Link (Packet β) (World β) → Prop}

theorem requestPacket_carried (hJ : Carried Other J) {K : HostState β → Prop} {m : Packet β}
    (hm : Other m) : Task.Spec lossyEnv J (fun t L => K t ∧ J L) (requestPacket cfg m)
      (fun _ t L => K t ∧ J L) (fun _ t L => K t ∧ J L) :=
  requestPacket_keeps (fun _ _ hmove h => hJ.move hmove h) (fun _ h => hJ.send hm h)
    fun _ _ _ hread h => hJ.read hread h

theorem requestUnprotected_carried (hJ : Carried Other J) {c : Command} {payload : List β}
    {k : UInt16} (hk : Other (frame c (k + 1) payload)) :
    Task.Spec lossyEnv J (fun t L => t.sequence = k ∧ J L)
      (requestUnprotected cfg c payload) (fun _ t L => t.sequence = k + 1 ∧ J L)
      (fun _ t L => t.sequence = k + 1 ∧ J L) := by
  refine Task.Spec.bind nextSequence_spec fun s => ?_
  refine Task.Spec.bind (buildPacket_spec fun t L h _ => ?_) fun m => ?_
  · obtain ⟨t₀, ⟨rfl, hj⟩, rfl, rfl⟩ := h
    exact ⟨rfl, hj⟩
  · rintro t L ⟨⟨t₀, ⟨rfl, hj⟩, rfl, rfl⟩, rfl, -⟩
    exact requestPacket_carried hJ (K := fun t => t.sequence = t₀.sequence + 1) hk _ _ ⟨rfl, hj⟩

/-- A handshake uses the next two sequence numbers. -/
theorem authenticate_carried (hJ : Carried Other J) {k : UInt16}
    (hk : ∀ payload, Other (frame .auth (k + 1) payload))
    (hk' : ∀ payload, Other (frame .auth (k + 1 + 1) payload)) (hkey : cfg.authKey ≠ none) :
    Task.Spec lossyEnv J (fun t L => t.authenticated = false ∧ t.sequence = k ∧ J L)
      (authenticate cfg) (fun _ t L => t.sequence = k + 1 + 1 ∧ J L)
      (fun _ t L => (t.sequence = k + 1 ∨ t.sequence = k + 1 + 1) ∧ J L) := by
  obtain ⟨key, hkey⟩ := Option.ne_none_iff_exists'.mp hkey
  rw [authenticate_eq]
  rw [hkey]
  refine Task.Spec.read_bind fun t₀ => Task.Spec.ite (fun ha => ?_) fun _ => ?_
  · rintro t L ⟨rfl, hn, -⟩
    simp [hn] at ha
  refine Task.Spec.bind (R := fun _ t L => t.sequence = k ∧ J L) ?_ fun nonce => ?_
  · refine Task.Spec.ask (fun t L L' hmove h => ⟨h.1, h.2.1, h.2.2.1, hJ.move hmove h.2.2.2⟩)
      (fun _ _ h => h.2.2.2) ?_
    rintro t L a L' ⟨rfl, -, hk, hj⟩ rfl
    exact ⟨hk, hj⟩
  refine Task.Spec.bind ((requestUnprotected_carried hJ (hk _)).consequence (fun _ _ h => h)
    (fun _ _ _ h => h) fun _ _ _ h => ⟨.inl h.1, h.2⟩) fun challenge => ?_
  refine Task.Spec.ite (fun _ => Task.Spec.raise fun _ _ h => ⟨.inl h.1, h.2⟩) fun _ => ?_
  refine Task.Spec.bind (ensureAck_spec fun _ _ _ h _ => ⟨.inl h.1, h.2⟩) fun _ => ?_
  refine Task.Spec.ite (fun _ => Task.Spec.raise fun _ _ h => ⟨.inl h.1.1, h.1.2⟩) fun _ => ?_
  refine Task.Spec.update_bind ?_
  refine (Task.Spec.bind ((requestUnprotected_carried hJ (hk' _)).consequence (fun _ _ h => h)
    (fun _ _ _ h => h) fun _ _ _ h => ⟨.inr h.1, h.2⟩) fun response => ?_).pre ?_
  · refine Task.Spec.bind (ensureAck_spec fun _ _ _ h _ => ⟨.inr h.1, h.2⟩) fun _ => ?_
    exact Task.Spec.update fun _ _ h => h.1
  · rintro t L ⟨t₁, rfl, h, -⟩
    exact h

/-- A pass that may not authenticate again uses one. -/
theorem requestOnce_carried (hJ : Carried Other J) {c : Command} {payload : List β} {k : UInt16}
    (hk : ∀ payload, Other (frame c (k + 1) payload)) :
    Task.Spec lossyEnv J (fun t L => t.sequence = k ∧ J L)
      (requestOnce cfg c payload none) (fun _ t L => t.sequence = k + 1 ∧ J L)
      (fun _ t L => t.sequence = k + 1 ∧ J L) := by
  rintro t L ⟨rfl, hj⟩
  have hpass : Task.Spec lossyEnv J (fun v L => v = t.at t.sequence ∧ J L)
      (requestOnce cfg c payload none) (fun _ v L => v.sequence = t.sequence + 1 ∧ J L)
      (fun _ v L => v.sequence = t.sequence + 1 ∧ J L) := by
    by_cases hl : payload.length + (if cfg.guards c then 16 else 0) ≤ protocolMaxPayload
    · refine requestOnce_rule t (A := fun _ => J) hl (fun _ _ _ h => ⟨rfl, h⟩) (fun _ => ?_)
        (fun _ _ _ _ h _ _ => ⟨rfl, h⟩) (fun _ h => by cases h) ?_
      · exact (requestPacket_carried hJ (hk _)).consequence (fun _ _ h => h) (fun _ _ _ h => h)
          fun _ _ _ h => ⟨by rw [h.1]; rfl, h.2⟩
      · rintro r v L hv h -
        rcases hv with rfl | ⟨-, rfl⟩ <;> exact ⟨rfl, h⟩
    · exact requestOnce_tooLarge t (by omega) fun _ _ h => ⟨rfl, h⟩
  exact hpass t L ⟨rfl, hj⟩

/-- A call that authenticates again uses three more. -/
theorem again_carried (hJ : Carried Other J) {c : Command} {payload : List β} {k : UInt16}
    (hk : ∀ payload, Other (frame .auth (k + 1) payload))
    (hk' : ∀ payload, Other (frame .auth (k + 1 + 1) payload))
    (hc : ∀ payload, Other (frame c (k + 1 + 1 + 1) payload)) (hkey : cfg.authKey ≠ none) :
    Task.Spec lossyEnv J (fun t L => t.sequence = k ∧ J L)
      (do clearAuthentication; authenticate cfg; requestOnce cfg c payload none)
      (fun _ t L => t.sequence = k + 1 + 1 + 1 ∧ J L)
      (fun _ t L => (t.sequence = k + 1 ∨ t.sequence = k + 1 + 1 ∨ t.sequence = k + 1 + 1 + 1) ∧
        J L) := by
  refine Task.Spec.bind clearAuthentication_spec fun _ => ?_
  refine Task.Spec.bind ((authenticate_carried hJ hk hk' hkey).consequence ?_
    (fun _ _ _ h => h) ?_) fun _ => ?_
  · rintro t L ⟨t₀, h, rfl⟩
    exact ⟨rfl, h⟩
  · exact fun _ _ _ h => ⟨h.1.imp_right .inl, h.2⟩
  · exact (requestOnce_carried hJ hc).consequence (fun _ _ h => h) (fun _ _ _ h => h)
      fun _ _ _ h => ⟨.inr (.inr h.1), h.2⟩

end Carried

/-- The next three sequence numbers are other ones. -/
theorem add_ne (k : UInt16) : k + 1 ≠ k ∧ k + 1 + 1 ≠ k ∧ k + 1 + 1 + 1 ≠ k := by
  have hlt := k.toNat_lt
  have h1 : (1 : UInt16).toNat = 1 := rfl
  refine ⟨?_, ?_, ?_⟩ <;> intro h <;> have := congrArg UInt16.toNat h <;>
    simp only [UInt16.toNat_add, h1] at this <;> omega

/-- What the client knows of the session, unless the device has restarted. -/
def Knows (key : List β) (t : HostState β) (L : Link (Packet β) (World β)) : Prop :=
  Restarted L.server.trace ∨ (t.authenticated = true → t.sessionKey = some key)

/-- A call that uses one sequence number ends with a response computed for it. -/
def FreshEnd (cfg : HostConfig β) (c : Command) (w₀ : World β) (m r : Packet β) (t : HostState β)
    (L : Link (Packet β) (World β)) : Prop :=
  t.sequence = m.sequence → ∃ r₀, Computed w₀ L.server m r₀ ∧ r = cfg.strip c r₀

section Call
variable {cfg : HostConfig β} {u : HostState β} {c : Command} {payload key : List β} {w₀ : World β}

/-- Where nothing is under the command and sequence number of `m`, all of it belongs to `m`. -/
theorem Unaliased.belongs {n : UInt16} {L : Link (Packet β) (World β)} (h : Unaliased c n L)
    (hk : Kept key L) : Belongs key L.server (tagged key c n payload) L where
  kept := hk
  ran := ⟨[], World.run_nil.symm⟩
  requests q hq hn := absurd hn (h.requests q hq)
  replies q hq hn := absurd hn (h.replies q hq)
  entries entry he hcommand hn := absurd ⟨hcommand, hn⟩ (h.entries entry he)

theorem isChallenge_tagged (hp : c.isProtected = true) (n : UInt16) :
    (tagged key c n payload).isChallenge = false := by
  cases c <;> first | rfl | exact absurd hp (by decide)

/-- The packet of the call is sent, and sent again, until a response to it is read. -/
theorem requestPacket_belongs {m : Packet β} {n : UInt16} (hm : m = tagged key c n payload)
    (hp : c.isProtected = true) (hl : m.payload.length ≤ protocolMaxPayload)
    {K : HostState β → Prop} :
    Task.Spec lossyEnv (Belongs key w₀ m) (fun t L => K t ∧ Belongs key w₀ m L)
      (requestPacket cfg m)
      (fun r t L => K t ∧ Belongs key w₀ m L ∧ Answers w₀ L.server m r)
      (fun _ t L => K t ∧ Belongs key w₀ m L) := by
  refine requestPacket_reads (fun _ _ hmove h => h.move hm hp hmove) (fun L h => ?_) ?_
  · exact h.send (.inl ⟨rfl, hl⟩) (.inr (by rw [hm, isChallenge_tagged hp]))
  · intro L r L' hread h
    obtain ⟨h', hr⟩ := h.read hread
    refine ⟨h', fun q hq => ?_⟩
    obtain ⟨hseq, hanswers⟩ := hr q hq
    exact hanswers (eq_of_beq hseq)

/-- After a demand to authenticate only other sequence numbers are used. -/
theorem carried_belongs {m : Packet β} {n : UInt16} (hm : m = tagged key c n payload)
    (hp : c.isProtected = true) :
    Carried (fun q => q.sequence ≠ m.sequence) fun L =>
      Belongs key w₀ m L ∧ Restarted L.server.trace where
  move hmove h := by
    obtain ⟨xs, hxs⟩ := exists_run_of_move hmove
    refine ⟨h.1.move hm hp hmove, ?_⟩
    rw [hxs]
    exact h.2.append _
  send hq h := ⟨h.1.send (.inr hq) (.inl h.2), h.2⟩
  read hread h := by
    refine ⟨(h.1.read hread).1, ?_⟩
    cases hread <;> exact h.2

/-- **A protected call.** If nothing on the link and in the cache has its command and
sequence number but what belongs to it, that stays so. -/
theorem request_belongs (hg : cfg.guards c = true) (ha : u.authenticated = true)
    (hk : u.sessionKey = some key) {m : Packet β} (hm : m = tagged key c (u.sequence + 1) payload) :
    Task.Spec lossyEnv (Belongs key w₀ m) (fun t L => t = u ∧ Belongs key w₀ m L)
      (request cfg c payload)
      (fun r t L => Belongs key w₀ m L ∧ FreshEnd cfg c w₀ m r t L ∧ Knows key t L)
      (fun _ t L => Belongs key w₀ m L ∧ Knows key t L) := by
  have hn : m.sequence = u.sequence + 1 := by rw [hm]; rfl
  obtain ⟨hkey, hp⟩ : cfg.authKey ≠ none ∧ c.isProtected = true := by
    simpa only [HostConfig.guards, Bool.and_eq_true, Option.isSome_iff_ne_none] using hg
  have hcall : callPacket cfg u c (u.sequence + 1) payload = m := by
    rw [callPacket_guarded hg hk, hm]
  have hknows : ∀ k L, Knows key (u.at k) L := fun _ _ => .inr fun _ => hk
  unfold request authenticateFor
  rw [if_pos hg]
  refine Task.Spec.bind (R := fun _ t L => t = u.at u.sequence ∧ Belongs key w₀ m L) ?_ fun _ => ?_
  · exact (authenticate_authenticated ha).consequence (fun _ _ h => h) (fun _ _ _ h => h)
      fun _ _ _ h => h.elim
  by_cases hl : payload.length + (if cfg.guards c then 16 else 0) ≤ protocolMaxPayload
  swap
  · exact requestOnce_tooLarge u (by omega) fun _ L h => ⟨h, hknows _ L⟩
  have hlen : m.payload.length ≤ protocolMaxPayload := by
    rw [hm]
    simpa [tagged, frame, hg] using hl
  refine requestOnce_rule u
    (A := fun r L => Belongs key w₀ m L ∧ Answers w₀ L.server m r) hl ?_ ?_ ?_ ?_ ?_
  · intro _ hnone
    rw [hk] at hnone
    cases hnone
  · intro _
    rw [hcall]
    refine (requestPacket_belongs hm hp hlen).consequence (fun _ _ h => h) (fun _ _ _ h => h) ?_
    rintro _ _ L ⟨rfl, h⟩
    exact ⟨h, hknows _ L⟩
  · exact fun _ _ _ L h _ _ => ⟨h.1, hknows _ L⟩
  · -- A demand to authenticate comes from a device that has restarted.
    rintro task ⟨⟩ r - hr
    obtain ⟨h1, h2, h3⟩ := add_ne m.sequence
    have hcarried := @carried_belongs β _ c payload key w₀ m _ hm hp
    have hweak : ∀ L, Belongs key w₀ m L ∧ Restarted L.server.trace → Belongs key w₀ m L :=
      fun _ h => h.1
    refine ((again_carried hcarried (fun _ => h1) (fun _ => h2) (fun _ => h3) hkey).weaken
      hweak).consequence ?_ ?_ ?_
    · rintro t L ⟨rfl, h, hanswers⟩
      refine ⟨hn.symm, h, hanswers.2.resolve_right ?_⟩
      simp [hr]
    · rintro r t L ⟨ht, h, hrestarted⟩
      exact ⟨h, fun hseq => absurd (ht.symm.trans hseq) h3, .inl hrestarted⟩
    · exact fun _ _ _ h => ⟨h.2.1, .inl h.2.2⟩
  · rintro r t L ht ⟨h, hcomputed, -⟩ -
    refine ⟨h, fun _ => ⟨r, hcomputed, rfl⟩, ?_⟩
    rcases ht with rfl | ⟨-, rfl⟩
    · exact hknows _ L
    · exact .inr fun h => by cases h

/-- **A call that needs no session** ends none. -/
theorem request_kept (hc : c = .ping ∨ c = .getInfo) :
    Task.Spec lossyEnv (Kept key) (fun t L => t = u ∧ Kept key L) (request cfg c payload)
      (fun _ t L => t = u.at (u.sequence + 1) ∧ Kept key L)
      (fun _ t L => t = u.at (u.sequence + 1) ∧ Kept key L) := by
  have hg : cfg.guards c = false := by
    rcases hc with rfl | rfl <;> simp [HostConfig.guards, Command.isProtected]
  have hchallenge : (callPacket cfg u c (u.sequence + 1) payload).isChallenge = false := by
    rcases hc with rfl | rfl <;> rfl
  unfold request authenticateFor
  rw [if_neg (by simp [hg])]
  refine Task.Spec.bind (R := fun _ t L => t = u.at u.sequence ∧ Kept key L)
    (Task.Spec.pure fun _ _ h => h) fun _ => ?_
  by_cases hl : payload.length + (if cfg.guards c then 16 else 0) ≤ protocolMaxPayload
  swap
  · exact requestOnce_tooLarge u (by omega) fun _ _ h => ⟨rfl, h⟩
  refine requestOnce_rule u (A := fun _ L => Kept key L) hl (fun h => ?_) (fun _ => ?_)
    (fun h => ?_) (fun _ _ _ h => ?_) ?_
  · simp [hg] at h
  · refine requestPacket_keeps (fun _ _ hmove h => h.move hmove)
      (fun _ h => h.send (.inr hchallenge)) ?_
    intro L r L' hread h
    cases hread <;> exact h
  · simp [hg] at h
  · simp [hg] at h
  · rintro r t L (rfl | ⟨hc', -⟩) h -
    · exact ⟨rfl, h⟩
    · rcases hc with rfl | rfl <;> simp at hc'

end Call

end OtaLink
