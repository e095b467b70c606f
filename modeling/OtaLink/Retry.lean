import OtaLink.AtMostOnce
import OtaLink.Lib.Ordered
import Mathlib.Data.List.Nodup

/-!
# Retries in a session

In a session with fewer than 65536 requests every request has a sequence number of its
own. The link is FIFO, so the device receives the copies of one request in a row, and the
cache holds the response to the latest request until the next one is executed. So a run
that loses packets and sends them again shows the device in the state, with the calls, and
with the responses of the run in which each request that arrives at all arrives once.

## Main definitions

* `requestAll` — one call after another; a call that times out has no response.
* `exchanges`, `calls` — what a trace says about responses and about the platform.
* `Mirrors` — a lossy run and the run in which every packet arrives once.
* `retry_transparent` — every run mirrors such a run.
-/

namespace OtaLink
open Lib

variable {β : Type}

/-- The calls to the platform among `events`, with the commands that make them. -/
def calls (events : List (Event β)) : List (Event β) := events.filter Event.isCall

@[simp] theorem calls_append (xs ys : List (Event β)) : calls (xs ++ ys) = calls xs ++ calls ys :=
  List.filter_append xs ys

/-- The requests and responses among `events`; `cur` is the request without a response. -/
def served : Option (Packet β) → List (Event β) → List (Packet β × Packet β)
  | _, [] => []
  | _, .receive q :: events => served (some q) events
  | some q, .send r :: events => (q, r) :: served none events
  | cur, _ :: events => served cur events

/-- The packets a device has received, each with the response to it. -/
def exchanges (events : List (Event β)) : List (Packet β × Packet β) := served none events

theorem served_append_receive (cur : Option (Packet β)) (xs : List (Event β)) (q : Packet β)
    (ys : List (Event β)) :
    served cur (xs ++ .receive q :: ys) = served cur xs ++ served (some q) ys := by
  induction xs generalizing cur with
  | nil => simp [served]
  | cons x xs ih =>
    cases x with
    | receive p => simpa [served] using ih (some p)
    | send r => cases cur with
      | none => simpa [served] using ih none
      | some q' => simpa [served] using ih none
    | _ => cases cur <;> simpa [served] using ih _

theorem served_of_isCall {before : List (Event β)} (h : ∀ e ∈ before, e.isCall = true)
    (q r : Packet β) : served (some q) (before ++ [.send r]) = [(q, r)] := by
  induction before with
  | nil => rfl
  | cons e before ih =>
    have he := h e List.mem_cons_self
    have hrest := ih fun e' h' => h e' (List.mem_cons_of_mem _ h')
    cases e <;> first | exact hrest | exact absurd he (by simp [Event.isCall])

/-- The commands of an update. -/
def Command.isOta : Command → Bool
  | .otaBegin | .otaData | .otaEnd | .otaAbort => true
  | _ => false

theorem Command.isProtected_of_isOta {c : Command} (h : c.isOta = true) : c.isProtected = true := by
  cases c <;> first | rfl | exact absurd h (by decide)

variable [Alphabet β]

/-! ## The device -/

/-- A packet with the answers of the platform while it is handled. -/
abbrev Handling (β : Type) := Packet β × EspIdf β

/-- The run in which each packet arrives once. -/
def once (xs : List (Handling β)) : List (Stimulus β) := xs.map fun x => .packet x.1 x.2

theorem run_once_append (d : Device β) (xs : List (Handling β)) (m : Packet β) (esp : EspIdf β) :
    d.run (once (xs ++ [(m, esp)])) = (((d.run (once xs)).1.step esp m).1,
      (d.run (once xs)).2 ++ ((d.run (once xs)).1.step esp m).2) := by
  simp [once, Device.run_append, Device.run, Device.after]

/-- A request of the session with this key: a command of an update with its tag. -/
def IsRequest (key : List β) (m : Packet β) : Prop :=
  ∃ (c : Command) (n : UInt16) (payload : List β), c.isOta = true ∧ payload.length ≤ 1008 ∧
    m = frame c n (payload ++ requestTag key c.code n payload)

/-- A tagged request that the cache does not know passes the gate. -/
theorem gate_of_fresh {s : AuthState β} {c : Command} {n : UInt16} {payload : List β}
    (hr : s.required = true) (ha : s.authenticated = true) (hp : c.isProtected = true)
    (hl : payload.length ≤ 1008)
    (hfresh : s.lookup (frame c n (payload ++ requestTag s.sessionKey c.code n payload)) = .fresh) :
    s.gate (frame c n (payload ++ requestTag s.sessionKey c.code n payload)) = .run payload := by
  have hu : authUnwrapPacket s (frame c n (payload ++ requestTag s.sessionKey c.code n payload)) =
      .ok payload := by
    refine (authUnwrapPacket_eq_ok (by simp [AuthState.signs, frame, hr, ha, hp])).mpr ⟨rfl, ?_⟩
    simp only [hmacMaxDataSize, protocolMaxPayload]
    omega
  simp [AuthState.gate, hr, ha, hfresh, hu]

/-- The device `d` has given the responses `H` in the session of `d₀`: each entry of its
cache holds one of them, and one entry is that of the last request. -/
structure Remembers (d₀ : Device β) (H : List (Packet β × Packet β)) (d : Device β) : Prop where
  auth : d.auth = { d₀.auth with replayCache := d.auth.replayCache }
  distinct : (H.map fun x => x.1.sequence).Nodup
  of_entry : ∀ entry ∈ d.auth.replayCache.entries, ∃ x ∈ H,
    entry.requestCommand = x.1.command ∧ entry.sequence = x.1.sequence ∧
      entry.requestDigest = computeRequestDigest x.1 ∧ entry.frame x.1.sequence = x.2
  last : ∀ H' x, H = H' ++ [x] → x.1.isGuarded = true → ∃ entry ∈ d.auth.replayCache.entries,
    entry.requestCommand = x.1.command ∧ entry.sequence = x.1.sequence

section Remembers
variable {d₀ d : Device β} {H : List (Packet β × Packet β)} {m : Packet β}

theorem Remembers.reply_eq (h : Remembers d₀ H d) (error : ProtocolError) :
    d.reply m error = d₀.reply m error := by
  rw [Device.reply, h.auth]
  rfl

/-- A response under a new sequence number is remembered. -/
theorem Remembers.report (h : Remembers d₀ H d) (hs : d.auth.signs m.command = true)
    (hnew : ∀ x ∈ H, x.1.sequence ≠ m.sequence) (ota : OtaState β) (error : ProtocolError) :
    Remembers d₀ (H ++ [(m, d₀.reply m error)]) ({ d with ota }.report m error) := by
  have hauth : ({ d with ota }.report m error).auth = { d.auth with
      replayCache := d.auth.replayCache.insert
        (d.auth.entryFor m (responseFor error) (statusPayload error)) } := by
    simp [Device.report, AuthState.remember, hs]
  have hframe : (d.auth.entryFor m (responseFor error) (statusPayload error)).frame m.sequence =
      d₀.reply m error := by
    rw [← h.reply_eq, Device.reply, AuthState.response, if_pos hs]
    rfl
  refine ⟨?_, ?_, ?_, ?_⟩
  · rw [hauth]
    generalize d.auth.replayCache.insert _ = cache
    exact congrArg (fun s : AuthState β => { s with replayCache := cache }) h.auth
  · rw [List.map_append, List.nodup_append]
    refine ⟨h.distinct, by simp, ?_⟩
    intro a ha b hb
    obtain ⟨x, hx, rfl⟩ := List.mem_map.mp ha
    obtain rfl : b = m.sequence := by simpa using hb
    exact hnew x hx
  · rw [hauth]
    intro entry hentry
    rcases Ring.mem_entries_insert hentry with rfl | hentry
    · exact ⟨_, List.mem_append_right H List.mem_cons_self, rfl, rfl, rfl, hframe⟩
    · obtain ⟨x, hx, hmatch⟩ := h.of_entry entry hentry
      exact ⟨x, List.mem_append_left _ hx, hmatch⟩
  · rw [hauth]
    intro H' x heq _
    obtain ⟨-, rfl⟩ := List.append_inj' heq rfl |>.imp id List.singleton_inj.mp
    exact ⟨_, Ring.mem_entries_insert_self _ _, rfl, rfl⟩

/-- **A new request is executed**, and its response is remembered. -/
theorem Remembers.fresh (h : Remembers d₀ H d) (hr : d₀.auth.required = true)
    (ha : d₀.auth.authenticated = true) (hm : IsRequest d₀.auth.sessionKey m)
    (hnew : ∀ x ∈ H, x.1.sequence ≠ m.sequence) (esp : EspIdf β) :
    ∃ d' before error, error ≠ .authRequired ∧ (∀ e ∈ before, e.isCall = true) ∧
      d.step esp m = (d', .receive m :: (before ++ [.send (d₀.reply m error)])) ∧
      Remembers d₀ (H ++ [(m, d₀.reply m error)]) d' := by
  obtain ⟨c, n, payload, hc, hl, hm⟩ := hm
  have hp := c.isProtected_of_isOta hc
  have hcode : m.command = c.code := by rw [hm]; rfl
  have hr' : d.auth.required = true := by rw [h.auth]; exact hr
  have ha' : d.auth.authenticated = true := by rw [h.auth]; exact ha
  have hgate : d.auth.gate m = .run payload := by
    have hkey : d₀.auth.sessionKey = d.auth.sessionKey := by rw [h.auth]
    rw [hm, hkey]
    refine gate_of_fresh hr' ha' hp hl (lookup_eq_fresh_iff.mpr fun entry hentry hmatch => ?_)
    obtain ⟨x, hx, -, hseq, -⟩ := h.of_entry entry hentry
    refine hnew x hx (hseq.symm.trans (hmatch.2.trans ?_))
    rw [hm]
    rfl
  have hafter : (execute esp d.ota c m.sequence payload).after = [] := by
    rcases after_execute esp d.ota payload c m.sequence with h | ⟨rfl, -⟩ | ⟨rfl, -⟩
    · exact h
    · exact absurd hc (by decide)
    · exact absurd hc (by decide)
  refine ⟨{ d with ota := (execute esp d.ota c m.sequence payload).ota }.report m
    (execute esp d.ota c m.sequence payload).error, (execute esp d.ota c m.sequence payload).before,
    (execute esp d.ota c m.sequence payload).error, execute_ne_authRequired esp d.ota c _ payload,
    isCall_of_execute esp d.ota payload c _, ?_, ?_⟩
  · rw [step_of_run esp (by rw [hm]; rfl) hcode hp hgate rfl, ← h.reply_eq]
    simp [hafter]
  · exact h.report (by simp [AuthState.signs, hcode, hr', ha', hp]) hnew _ _

/-- **A copy of the last request is answered from the cache.** -/
theorem Remembers.again {r : Packet β} (h : Remembers d₀ (H ++ [(m, r)]) d)
    (hr : d₀.auth.required = true) (ha : d₀.auth.authenticated = true)
    (hm : IsRequest d₀.auth.sessionKey m) (esp : EspIdf β) :
    d.step esp m = (d, [.receive m, .send r]) := by
  obtain ⟨c, n, payload, hc, -, hm⟩ := hm
  have hp := c.isProtected_of_isOta hc
  have hv : m.version = protocolVersion := by rw [hm]; rfl
  have hcode : m.command = c.code := by rw [hm]; rfl
  have hr' : d.auth.required = true := by rw [h.auth]; exact hr
  have ha' : d.auth.authenticated = true := by rw [h.auth]; exact ha
  -- Every entry under the sequence number of `m` holds the response to `m`.
  have hmatch : ∀ entry ∈ d.auth.replayCache.entries, entry.sequence = m.sequence →
      entry.requestDigest = computeRequestDigest m ∧ entry.frame m.sequence = r := by
    intro entry hentry hseq
    obtain ⟨x, hx, -, hseq', hdigest, hframe⟩ := h.of_entry entry hentry
    obtain rfl : x = (m, r) := List.inj_on_of_nodup_map h.distinct hx (by simp)
      (hseq'.symm.trans hseq)
    exact ⟨hdigest, hframe⟩
  have hlookup : ∃ entry, d.auth.lookup m = .duplicate entry ∧ entry.frame m.sequence = r := by
    cases hl : d.auth.lookup m with
    | fresh =>
      obtain ⟨entry, hentry, heq⟩ := h.last H _ rfl (by simp [Packet.isGuarded, hv, hcode, hp])
      exact absurd heq (lookup_eq_fresh_iff.mp hl entry hentry)
    | conflict =>
      obtain ⟨entry, hentry, -, hseq, hdigest⟩ := mem_of_conflict hl
      exact absurd (hmatch entry hentry hseq).1 hdigest
    | duplicate entry =>
      obtain ⟨hentry, -, hseq, -⟩ := mem_of_duplicate hl
      exact ⟨entry, rfl, (hmatch entry hentry hseq).2⟩
  obtain ⟨entry, hl, rfl⟩ := hlookup
  exact step_of_resend esp hv hcode hp (by simp [AuthState.gate, hr', ha', hl])

end Remembers

/-! ## The session -/

/-- Client and device have just agreed on a session: `o` is the proof the device accepted,
and no request has been executed yet. -/
structure Established (cfg : HostConfig β) (u : HostState β) (d : Device β) (o : Packet β) :
    Prop where
  required : d.auth.required = true
  pending : d.auth.pending = false
  authenticated : d.auth.authenticated = true
  replayCache : d.auth.replayCache = .empty 8
  proof : o = frame .auth o.sequence (d.auth.clientNonce ++
    authProofOf d.auth.key d.auth.clientNonce d.auth.serverNonce)
  authKey : cfg.authKey = some d.auth.key
  sessionKey : u.sessionKey = some d.auth.sessionKey
  client : u.authenticated = true

/-- The trace of `w` differs from that of the run in which each packet of `xs` arrives once
by copies only, and each copy has got the response of the first one. -/
structure Mirrors (d₀ : Device β) (o : Packet β) (xs : List (Handling β)) (w : World β) : Prop where
  device : w.device = (d₀.run (once xs)).1
  calls : calls w.trace = calls (d₀.run (once xs)).2
  answers : ∀ x ∈ exchanges w.trace,
    x = (o, ackFrame o.sequence) ∨ x ∈ exchanges (d₀.run (once xs)).2
  arrived : ∀ x ∈ exchanges (d₀.run (once xs)).2, x ∈ exchanges w.trace

/-- The world after the responses `H`, the first of which is to the proof. -/
def Told (d₀ : Device β) (o : Packet β) (H : List (Packet β × Packet β)) (w : World β) : Prop :=
  ∃ xs, Mirrors d₀ o xs w ∧ H = (o, ackFrame o.sequence) :: exchanges (d₀.run (once xs)).2 ∧
    xs.map Prod.fst = (exchanges (d₀.run (once xs)).2).map Prod.fst ∧
    Remembers d₀ H w.device ∧ ∀ x ∈ H, x.1 = o ∨ IsRequest d₀.auth.sessionKey x.1 ∧
      ∃ error, error ≠ .authRequired ∧ x.2 = d₀.reply x.1 error

section Told
variable {cfg : HostConfig β} {u : HostState β} {d₀ : Device β} {o m r : Packet β}
  {H : List (Packet β × Packet β)} {w w' : World β}

/-- The accepted proof is acknowledged again and changes nothing. -/
theorem step_proof (he : Established cfg u d₀ o) (h : Remembers d₀ H w.device) (esp : EspIdf β) :
    w.device.step esp o = (w.device, [.receive o, .send (ackFrame o.sequence)]) := by
  have hauth := h.auth
  generalize w.device = d at hauth
  obtain ⟨auth, ota⟩ := d
  dsimp only at hauth
  have hproved : (Device.mk auth ota).proved = ⟨auth, ota⟩ := by
    rw [hauth]
    simp [Device.proved, AuthState.proved, he.pending, he.authenticated]
  have hhandle := @handle_proof β _ ⟨auth, ota⟩ esp o (by rw [he.proof]; rfl)
    (by rw [he.proof]; rfl) (by rw [hauth]; exact he.required)
    (.inr (by rw [hauth]; exact he.authenticated)) (by rw [hauth, he.proof]; rfl)
  rw [hproved] at hhandle
  exact step_of_send hhandle

omit [Alphabet β] in
theorem exchanges_append_step (trace : List (Event β)) {before : List (Event β)}
    (hb : ∀ e ∈ before, e.isCall = true) :
    exchanges (trace ++ .receive m :: (before ++ [.send r])) = exchanges trace ++ [(m, r)] := by
  rw [exchanges, served_append_receive, served_of_isCall hb]
  rfl

/-- Before the first request, the device has answered the proof. -/
theorem told_start (he : Established cfg u d₀ o) :
    Told d₀ o [(o, ackFrame o.sequence)] ⟨d₀, []⟩ := by
  refine ⟨[],
    ⟨rfl, rfl, by simp [exchanges, served], by simp [exchanges, served, once, Device.run]⟩,
    rfl, rfl, ⟨rfl, by simp, ?_, ?_⟩, by simp⟩
  · simp [he.replayCache]
  · intro H' x heq hg
    obtain ⟨-, rfl⟩ : H' = [] ∧ x = (o, ackFrame o.sequence) := by
      cases H' <;> simp_all
    rw [he.proof] at hg
    simp [Packet.isGuarded, frame, Command.isProtected] at hg

/-- A new request adds its response. -/
theorem Told.fresh (he : Established cfg u d₀ o) (h : Told d₀ o H w)
    (hm : m = o ∨ IsRequest d₀.auth.sessionKey m) (hnew : ∀ x ∈ H, x.1.sequence ≠ m.sequence)
    (hs : (deviceServer false fun _ => true).Serves w m r w') : Told d₀ o (H ++ [(m, r)]) w' := by
  obtain ⟨esp, -, hsent, rfl⟩ := serves_iff.mp hs
  obtain ⟨xs, hmirror, hH, hfst, hrem, hsigned⟩ := h
  have hm' : IsRequest d₀.auth.sessionKey m := by
    refine hm.resolve_left fun heq => hnew (o, ackFrame o.sequence) (by simp [hH]) ?_
    rw [heq]
  obtain ⟨d', before, error, hne, hb, hstep, hrem'⟩ :=
    hrem.fresh he.required he.authenticated hm' hnew esp
  obtain rfl : r = d₀.reply m error := by
    rw [hstep] at hsent
    simpa [sent_of_isCall hb, Event.sent?, eq_comm] using hsent
  have hstep' := hstep
  rw [hmirror.device] at hstep'
  have hideal : exchanges (d₀.run (once (xs ++ [(m, esp)]))).2 =
      exchanges (d₀.run (once xs)).2 ++ [(m, d₀.reply m error)] := by
    rw [run_once_append, hstep', exchanges_append_step _ hb]
  have htrace : exchanges (w.step esp m).trace = exchanges w.trace ++ [(m, d₀.reply m error)] := by
    rw [World.step, hstep, exchanges_append_step _ hb]
  refine ⟨xs ++ [(m, esp)], ⟨?_, ?_, ?_, ?_⟩, ?_, ?_, ?_, ?_⟩
  · rw [run_once_append, hstep', World.step, hstep]
  · rw [run_once_append, hstep', World.step, hstep, calls_append, calls_append, hmirror.calls]
  · intro x hx
    rw [htrace] at hx
    rw [hideal]
    rcases List.mem_append.mp hx with hx | hx
    · exact (hmirror.answers x hx).imp id (List.mem_append_left _)
    · exact .inr (List.mem_append_right _ hx)
  · intro x hx
    rw [hideal] at hx
    rw [htrace]
    rcases List.mem_append.mp hx with hx | hx
    · exact List.mem_append_left _ (hmirror.arrived x hx)
    · exact List.mem_append_right _ hx
  · rw [hideal, hH]
    rfl
  · rw [hideal, List.map_append, List.map_append, hfst]
    rfl
  · rwa [World.step, hstep]
  · intro x hx
    rcases List.mem_append.mp hx with hx | hx
    · exact hsigned x hx
    · rw [List.mem_singleton.mp hx]
      exact .inr ⟨hm', error, hne, rfl⟩

/-- A copy of the last packet gets the same response and changes nothing. -/
theorem Told.again {r' : Packet β} (he : Established cfg u d₀ o) (h : Told d₀ o (H ++ [(m, r)]) w)
    (hs : (deviceServer false fun _ => true).Serves w m r' w') :
    r' = r ∧ Told d₀ o (H ++ [(m, r)]) w' := by
  obtain ⟨esp, -, hsent, rfl⟩ := serves_iff.mp hs
  obtain ⟨xs, hmirror, hH, hfst, hrem, hsigned⟩ := h
  have hmem : (m, r) ∈ (o, ackFrame o.sequence) :: exchanges (d₀.run (once xs)).2 := by
    rw [← hH]
    simp
  have hstep : w.device.step esp m = (w.device, [.receive m, .send r]) := by
    rcases hsigned (m, r) (by simp) with rfl | ⟨hm, -⟩
    · obtain rfl : r = ackFrame m.sequence := by
        have hstart : (m, ackFrame m.sequence) ∈ H ++ [(m, r)] := by simp [hH]
        exact congrArg Prod.snd (List.inj_on_of_nodup_map hrem.distinct (x := (m, r)) (by simp)
          hstart rfl)
      exact step_proof he hrem esp
    · exact hrem.again he.required he.authenticated hm esp
  obtain rfl : r' = r := by
    rw [hstep] at hsent
    simpa [Event.sent?, eq_comm] using hsent
  refine ⟨rfl, xs, ⟨?_, ?_, ?_, ?_⟩, hH, hfst, ?_, hsigned⟩
  · rw [World.step, hstep]
    exact hmirror.device
  · rw [World.step, hstep, calls_append]
    simpa [calls, Event.isCall] using hmirror.calls
  · rw [World.step, hstep]
    intro x hx
    have hx' : x ∈ exchanges w.trace ++ [(m, r')] := by
      rw [← exchanges_append_step w.trace (List.forall_mem_nil _)]
      exact hx
    rcases List.mem_append.mp hx' with hx' | hx'
    · exact hmirror.answers x hx'
    · rw [List.mem_singleton.mp hx']
      simpa using hmem
  · rw [World.step, hstep]
    intro x hx
    have := exchanges_append_step (m := m) (r := r') w.trace (List.forall_mem_nil _)
    rw [List.nil_append] at this
    rw [this]
    exact List.mem_append_left _ (hmirror.arrived x hx)
  · rwa [World.step, hstep]

end Told

/-! ## The client -/

/-- One call after another. A call that times out has no response. -/
def requestAll (cfg : HostConfig β) :
    List (Command × List β) → HostTask β (List (Option (Packet β)))
  | [] => pure []
  | (c, payload) :: rest => do
    let r ← Task.handle (do let r ← request cfg c payload; pure (some r)) fun e =>
      match e with
      | .timeout => pure none
      | e => Task.raise e
    let rs ← requestAll cfg rest
    pure (r :: rs)

/-- The packets of the calls. -/
def sentBy (cfg : HostConfig β) (u : HostState β) :
    UInt16 → List (Command × List β) → List (Packet β)
  | _, [] => []
  | n, (c, payload) :: rest => callPacket cfg u c (n + 1) payload :: sentBy cfg u (n + 1) rest

/-- How many requests after `o` a sequence number is used. -/
def rankFrom (o : Packet β) (n : UInt16) : ℕ := (n - o.sequence).toNat

omit [Alphabet β] in
theorem rankFrom_succ {o : Packet β} {n : UInt16} (h : rankFrom o n + 1 < 65536) :
    rankFrom o (n + 1) = rankFrom o n + 1 := by
  have hsub : n + 1 - o.sequence = n - o.sequence + 1 := by
    rw [UInt16.sub_eq_add_neg, UInt16.sub_eq_add_neg, UInt16.add_assoc, UInt16.add_comm 1,
      ← UInt16.add_assoc]
  have h1 : (1 : UInt16).toNat = 1 := rfl
  unfold rankFrom at *
  rw [hsub, UInt16.toNat_add, h1, Nat.mod_eq_of_lt (by omega)]

section Client
variable {cfg : HostConfig β} {u : HostState β} {d₀ : Device β} {o : Packet β}

/-- With fewer than 65536 requests, later packets have later sequence numbers. -/
theorem sentBy_sorted (reqs : List (Command × List β)) : ∀ n, rankFrom o n + reqs.length < 65536 →
    (∀ m ∈ sentBy cfg u n reqs, rankFrom o n < rankFrom o m.sequence) ∧
      (sentBy cfg u n reqs).Pairwise fun a b => rankFrom o a.sequence < rankFrom o b.sequence := by
  induction reqs with
  | nil => exact fun n _ => ⟨by simp [sentBy], by simp [sentBy]⟩
  | cons x reqs ih =>
    intro n hn
    rw [List.length_cons] at hn
    have hsucc := @rankFrom_succ β o n (by omega)
    obtain ⟨hgt, hsorted⟩ := ih (n + 1) (by omega)
    simp only [sentBy, List.mem_cons, forall_eq_or_imp, List.pairwise_cons]
    refine ⟨⟨?_, fun m hm => ?_⟩, fun m hm => hgt m hm, hsorted⟩
    · show rankFrom o n < rankFrom o (n + 1)
      omega
    · have := hgt m hm
      omega

theorem isRequest_callPacket (he : Established cfg u d₀ o) {c : Command} (hc : c.isOta = true)
    {payload : List β} (hl : payload.length ≤ 1008) (n : UInt16) :
    callPacket cfg u c n payload =
        frame c n (payload ++ requestTag d₀.auth.sessionKey c.code n payload) ∧
      IsRequest d₀.auth.sessionKey (callPacket cfg u c n payload) := by
  have heq : callPacket cfg u c n payload =
      frame c n (payload ++ requestTag d₀.auth.sessionKey c.code n payload) := by
    simp [callPacket, HostConfig.tagFor, HostConfig.guards, he.authKey, he.sessionKey,
      c.isProtected_of_isOta hc]
  exact ⟨heq, c, n, payload, hc, hl, heq⟩

/-- The response to a request passes the check of the client, and does not make it
authenticate again. -/
theorem verified_reply (he : Established cfg u d₀ o) {c : Command} (hc : c.isOta = true)
    {n : UInt16} {m : Packet β} (hcode : m.command = c.code) (hn : m.sequence = n)
    {error : ProtocolError} (hne : error ≠ .authRequired) :
    Verified cfg u c n (d₀.reply m error) ∧ isAuthRequired (d₀.reply m error) = false := by
  have hp := c.isProtected_of_isOta hc
  have hs : d₀.auth.signs m.command = true := by
    simp [AuthState.signs, he.required, he.authenticated, hcode, hp]
  have hreply : d₀.reply m error = frame (responseFor error) n (statusPayload error ++
      responseTag d₀.auth.sessionKey c.code (responseFor error).code n (statusPayload error)) := by
    rw [Device.reply, AuthState.response, if_pos hs, hcode, hn]
  rw [hreply]
  constructor
  · intro hg
    refine ⟨_, he.sessionKey, ?_⟩
    simp [HostConfig.strip, hg, frame, authTagSize]
  · have hcode : ofByte error.code ≠ (ofByte ProtocolError.authRequired.code : β) := by
      intro h
      have := congrArg toByte h
      simp only [Alphabet.toByte_ofByte, ProtocolError.code_inj] at this
      exact hne this
    simp [isAuthRequired, frame, statusPayload, hcode]

/-- The device answers every packet of the session once. -/
theorem answersOnce (he : Established cfg u d₀ o) :
    AnswersOnce Packet.sequence (rankFrom o) (deviceServer false fun _ => true)
      (fun m => m = o ∨ IsRequest d₀.auth.sessionKey m) (Told d₀ o) where
  fresh h hm hlast hs := h.fresh he hm (fun x hx heq => by
    have := hlast x hx
    rw [heq] at this
    omega) hs
  again h hs := h.again he hs
  tick _ ht := by cases (tick_iff.mp ht).1
  tag_eq := sequence_of_serves

/-- The client has sent `ms`, and `G` holds of the responses given so far. -/
abbrev InSession (d₀ : Device β) (o : Packet β) (ms : List (Packet β))
    (G : List (Packet β × Packet β) → Prop) (L : Link (Packet β) (World β)) : Prop :=
  Answered Packet.sequence (rankFrom o) (Told d₀ o) ms G L

/-- **One call.** It ends with the response the device has given to its packet, or the
last timer expires. -/
theorem request_ordered (he : Established cfg u d₀ o) {c : Command} (hc : c.isOta = true)
    {payload : List β} (hl : payload.length ≤ 1008) {n : UInt16} {ms : List (Packet β)}
    (hms : (ms ++ [callPacket cfg u c (n + 1) payload]).Pairwise fun a b =>
      rankFrom o a.sequence < rankFrom o b.sequence)
    (hgood : ∀ m ∈ ms, m = o ∨ IsRequest d₀.auth.sessionKey m)
    {G : List (Packet β × Packet β) → Prop} (hG : Monotone G)
    {I : Link (Packet β) (World β) → Prop}
    (hI : ∀ L, InSession d₀ o (ms ++ [callPacket cfg u c (n + 1) payload]) G L → I L) :
    Task.Spec (linkEnv false (fun _ => true) (.free _ _)) I
      (fun t L => t = u.at n ∧ InSession d₀ o ms G L) (request cfg c payload)
      (fun r t L => t = u.at (n + 1) ∧
        InSession d₀ o (ms ++ [callPacket cfg u c (n + 1) payload])
          (fun H => G H ∧ ∃ x, (callPacket cfg u c (n + 1) payload, x) ∈ H ∧ r = cfg.strip c x) L)
      (fun e t L => e = .timeout ∧ t = u.at (n + 1) ∧
        InSession d₀ o (ms ++ [callPacket cfg u c (n + 1) payload]) G L) := by
  obtain ⟨hcall, hreq⟩ := isRequest_callPacket (n := n + 1) he hc hl
  generalize hm : callPacket cfg u c (n + 1) payload = m at *
  have hgood' : ∀ m' ∈ ms ++ [m], m' = o ∨ IsRequest d₀.auth.sessionKey m' := by
    intro m' hm'
    rcases List.mem_append.mp hm' with hm' | hm'
    · exact hgood m' hm'
    · rw [List.mem_singleton.mp hm']
      exact .inr hreq
  have hne : m ≠ o := by
    intro heq
    have hcode : c.code = Command.auth.code := by
      rw [show c.code = m.command by rw [hcall]; rfl, heq, he.proof]
      rfl
    obtain rfl := Command.code_inj.mp hcode
    exact absurd hc (by decide)
  -- Every response to the packet passes the check.
  have hsigned : ∀ {r L}, InSession d₀ o (ms ++ [m]) (fun H => G H ∧ (m, r) ∈ H) L →
      Verified cfg u c (n + 1) r ∧ isAuthRequired r = false := by
    rintro r L ⟨H, hin, -, hmem⟩
    obtain ⟨xs, -, -, -, -, hsigned⟩ := hin.server
    rcases hsigned _ hmem with heq | ⟨-, error, herror, hr⟩
    · exact absurd heq hne
    · obtain rfl : r = d₀.reply m error := hr
      exact verified_reply he hc (by rw [hcall]; rfl) (by rw [hcall]; rfl) herror
  have hguards : cfg.guards c = true := by
    simp [HostConfig.guards, he.authKey, c.isProtected_of_isOta hc]
  unfold request authenticateFor
  rw [if_pos hguards]
  refine Task.Spec.bind (R := fun _ t L => t = u.at n ∧ InSession d₀ o ms G L) ?_ fun _ => ?_
  · rw [authenticate_eq]
    rw [he.authKey]
    refine Task.Spec.read_bind fun t => Task.Spec.ite (fun _ => Task.Spec.pure ?_) fun ha => ?_
    · rintro _ L ⟨rfl, h⟩
      exact h
    · rintro _ L ⟨rfl, rfl, -⟩
      exact absurd he.client ha
  refine requestOnce_rule u (B := InSession d₀ o ms G)
    (A := fun r L => InSession d₀ o (ms ++ [m]) (fun H => G H ∧ (m, r) ∈ H) L) ?_ ?_ ?_ ?_ ?_ ?_
  · rw [if_pos hguards]
    simp only [protocolMaxPayload]
    omega
  · intro _ hk
    rw [he.sessionKey] at hk
    cases hk
  · intro _
    rw [hm]
    refine Task.Spec.bind ((Task.Spec.ordered (K := fun t => t = u.at (n + 1)) (answersOnce he)
      hms hgood' hG hI cfg.retries)) fun r => ?_
    cases r with
    | none =>
      refine Task.Spec.raise ?_
      rintro t L ⟨ht, H, hin, hg, -⟩
      exact ⟨rfl, ht, H, hin, hg⟩
    | some r =>
      refine Task.Spec.pure ?_
      rintro t L ⟨ht, H, hin, hg, hr⟩
      exact ⟨ht, H, hin, hg, hr r rfl⟩
  · intro _ e r L ha hv
    exact absurd (hsigned ha).1 hv
  · intro task _ r _ hr
    rintro t L ⟨-, ha⟩
    simp [(hsigned ha).2] at hr
  · rintro r t L ht ⟨H, hin, hg, hmem⟩ -
    refine ⟨?_, H, hin, hg, r, hmem, rfl⟩
    rcases ht with rfl | ⟨rfl | rfl, -⟩
    · rfl
    · exact absurd hc (by decide)
    · exact absurd hc (by decide)

/-- The client got the response the device has given to the packet, or none. -/
def Got (H : List (Packet β × Packet β)) (m : Packet β) (got : Option (Packet β)) : Prop :=
  ∀ r, got = some r → ∃ x, (m, x) ∈ H ∧
    r = { x with payload := x.payload.take (x.payload.length - authTagSize) }

omit [Alphabet β] in
theorem Got.mono {H H' : List (Packet β × Packet β)} (hpre : H <+: H') {m : Packet β}
    {got : Option (Packet β)} (h : Got H m got) : Got H' m got := by
  intro r hr
  obtain ⟨x, hx, heq⟩ := h r hr
  exact ⟨x, hpre.subset hx, heq⟩

omit [Alphabet β] in
/-- The response to the proof is not that to a call. -/
theorem forall₂_got_tail {x : Packet β × Packet β} {H : List (Packet β × Packet β)}
    {ms : List (Packet β)} {rs : List (Option (Packet β))} (h : List.Forall₂ (Got (x :: H)) ms rs)
    (hne : ∀ m ∈ ms, m ≠ x.1) : List.Forall₂ (Got H) ms rs := by
  induction h with
  | nil => exact .nil
  | cons hgot _ ih =>
    obtain ⟨hm, hms⟩ := List.forall_mem_cons.mp hne
    refine .cons (fun r hr => ?_) (ih hms)
    obtain ⟨y, hy, heq⟩ := hgot r hr
    refine ⟨y, (List.mem_cons.mp hy).resolve_left ?_, heq⟩
    rintro rfl
    exact hm rfl

/-- **All calls**, by induction on them. -/
theorem requestAll_ordered (he : Established cfg u d₀ o) {all : List (Packet β)}
    (reqs : List (Command × List β)) (hreqs : ∀ x ∈ reqs, x.1.isOta = true ∧ x.2.length ≤ 1008) :
    ∀ n ms (G : List (Packet β × Packet β) → Prop), Monotone G →
      ((ms ++ sentBy cfg u n reqs).Pairwise fun a b =>
        rankFrom o a.sequence < rankFrom o b.sequence) →
      (∀ m ∈ ms, m = o ∨ IsRequest d₀.auth.sessionKey m) →
      (∀ m ∈ ms ++ sentBy cfg u n reqs, m ∈ all) →
      Task.Spec (linkEnv false (fun _ => true) (.free _ _)) (InSession d₀ o all fun _ => True)
        (fun t L => t = u.at n ∧ InSession d₀ o ms G L) (requestAll cfg reqs)
        (fun rs _ L => InSession d₀ o (ms ++ sentBy cfg u n reqs)
          (fun H => G H ∧ List.Forall₂ (Got H) (sentBy cfg u n reqs) rs) L)
        (fun _ _ _ => False) := by
  induction reqs with
  | nil =>
    intro n ms G _ _ _ _
    refine Task.Spec.pure ?_
    rintro t L ⟨-, H, hin, hg⟩
    exact ⟨H, by simpa [sentBy] using hin, hg, .nil⟩
  | cons x reqs ih =>
    obtain ⟨c, payload⟩ := x
    obtain ⟨⟨hc, hl⟩, hreqs⟩ := List.forall_mem_cons.mp hreqs
    intro n ms G hG hms hgood hall
    have hsplit : ms ++ sentBy cfg u n ((c, payload) :: reqs) =
        (ms ++ [callPacket cfg u c (n + 1) payload]) ++ sentBy cfg u (n + 1) reqs := by
      simp [sentBy]
    rw [hsplit] at hms hall ⊢
    have hreq := (isRequest_callPacket (n := n + 1) he hc hl).2
    generalize hm : callPacket cfg u c (n + 1) payload = m at *
    have hsub : ∀ {G : List (Packet β × Packet β) → Prop} L, InSession d₀ o (ms ++ [m]) G L →
        InSession d₀ o all (fun _ => True) L := by
      rintro G L ⟨H, hin, -⟩
      exact ⟨H, hin.mono fun m' h => hall m' (List.mem_append_left _ h), trivial⟩
    -- The first call, with its timeout caught.
    refine Task.Spec.bind (R := fun got t L => t = u.at (n + 1) ∧ InSession d₀ o (ms ++ [m])
      (fun H => G H ∧ Got H m got) L) ?_ fun got => ?_
    · refine Task.Spec.handle (W := fun e t L => e = .timeout ∧ t = u.at (n + 1) ∧
        InSession d₀ o (ms ++ [m]) G L) ?_ fun e => ?_
      · have hcall := @request_ordered _ _ _ _ _ _ he _ hc _ hl n ms
          (hm.symm ▸ (List.pairwise_append.mp hms).1) hgood _ hG _ (hm.symm ▸ hsub)
        rw [hm] at hcall
        refine Task.Spec.bind hcall fun r => Task.Spec.pure ?_
        rintro t L ⟨ht, H, hin, hg, y, hy, rfl⟩
        refine ⟨ht, H, hin, hg, ?_⟩
        rintro _ ⟨⟩
        refine ⟨y, hy, ?_⟩
        simp [HostConfig.strip, HostConfig.guards, he.authKey, c.isProtected_of_isOta hc]
      · cases e with
        | timeout =>
          refine Task.Spec.pure ?_
          rintro t L ⟨-, ht, H, hin, hg⟩
          exact ⟨ht, H, hin, hg, fun r hr => by cases hr⟩
        | _ => exact Task.Spec.raise fun t L h => by cases h.1
    -- The other calls.
    refine Task.Spec.bind (ih hreqs (n + 1) (ms ++ [m]) (fun H => G H ∧ Got H m got) ?_ hms ?_ hall)
      fun rs => Task.Spec.pure ?_
    · rintro H H' hpre ⟨hg, hgot⟩
      exact ⟨hG hpre hg, hgot.mono hpre⟩
    · intro m' hm'
      rcases List.mem_append.mp hm' with hm' | hm'
      · exact hgood m' hm'
      · rw [List.mem_singleton.mp hm']
        exact .inr hreq
    · rintro t L ⟨H, hin, ⟨hg, hgot⟩, hrest⟩
      refine ⟨H, hin, hg, ?_⟩
      rw [sentBy, hm]
      exact .cons hgot hrest

theorem isRequest_sentBy (he : Established cfg u d₀ o) {reqs : List (Command × List β)}
    (hreqs : ∀ x ∈ reqs, x.1.isOta = true ∧ x.2.length ≤ 1008) (n : UInt16) :
    ∀ m ∈ sentBy cfg u n reqs, IsRequest d₀.auth.sessionKey m := by
  induction reqs generalizing n with
  | nil => simp [sentBy]
  | cons x reqs ih =>
    obtain ⟨⟨hc, hl⟩, hreqs⟩ := List.forall_mem_cons.mp hreqs
    exact List.forall_mem_cons.mpr ⟨(isRequest_callPacket he hc hl (n + 1)).2, ih hreqs (n + 1)⟩

/-- What an ordered link says about the device. -/
theorem transparent_of_inOrder (he : Established cfg u d₀ o) {ms : List (Packet β)}
    (hms : (o :: ms).Pairwise fun a b => rankFrom o a.sequence < rankFrom o b.sequence)
    {H : List (Packet β × Packet β)} {L : Link (Packet β) (World β)}
    (h : InOrder Packet.sequence (rankFrom o) (Told d₀ o) (o :: ms) H L) :
    (∀ esp, L.server.device.step esp o =
        (L.server.device, [.receive o, .send (ackFrame o.sequence)])) ∧
      (∀ x ∈ exchanges L.server.trace, ∀ y ∈ exchanges L.server.trace, x.1 = y.1 → x.2 = y.2) ∧
      ∃ xs, (xs.map Prod.fst).Sublist ms ∧ Mirrors d₀ o xs L.server ∧
        H = (o, ackFrame o.sequence) :: exchanges (d₀.run (once xs)).2 := by
  obtain ⟨xs, hmirror, hH, hfst, hrem, -⟩ := h.server
  refine ⟨step_proof he hrem, fun x hx y hy hxy => ?_, xs, ?_, hmirror, hH⟩
  · have hmem : ∀ x ∈ exchanges L.server.trace, x ∈ H := fun x hx => by
      rw [hH]
      exact List.mem_cons.mpr (hmirror.answers x hx)
    exact congrArg Prod.snd (List.inj_on_of_nodup_map hrem.distinct (hmem x hx) (hmem y hy)
      (congrArg Packet.sequence hxy))
  · -- Both lists are sorted, so the packets that arrived are a part of those that were sent.
    have hsorted := (List.pairwise_map (f := Prod.fst)
      (R := fun a b : Packet β => rankFrom o a.sequence < rankFrom o b.sequence)).mpr h.sorted
    have hmem : ∀ m ∈ H.map Prod.fst, m ∈ o :: ms := by
      intro m hm
      obtain ⟨x, hx, rfl⟩ := List.mem_map.mp hm
      exact h.mem x hx
    rw [hH, List.map_cons, ← hfst] at hsorted hmem
    exact (sublist_of_sorted hsorted hms hmem).of_cons_cons

end Client

/-- **Retry transparency.** In a session with fewer than 65536 calls, whatever is lost,
every run mirrors the run in which each packet that arrives at all arrives once, and the
client gets the responses of that run. A copy always gets the response of the first one,
and the proof of the session can be sent again at any time. -/
theorem retry_transparent {cfg : HostConfig β} {u : HostState β} {d : Device β} {o : Packet β}
    (he : Established cfg u d o) {reqs : List (Command × List β)}
    (hreqs : ∀ x ∈ reqs, x.1.isOta = true ∧ x.2.length ≤ 1008) (hfew : reqs.length < 65536)
    {L₀ : Link (Packet β) (World β)} (hserver : L₀.server = ⟨d, []⟩)
    (hrequests : ∀ m ∈ L₀.requests, m = o)
    (hreplies : ∀ q ∈ L₀.replies, q.request = o ∧ q.response = ackFrame o.sequence)
    {p : Prog Ask (Answer β) (Packet β) (Except HostError (List (Option (Packet β))) × HostState β)}
    {L : Link (Packet β) (World β)}
    (h : (linkEnv false (fun _ => true) (.free _ _)).Reaches
      (requestAll cfg reqs (u.at o.sequence), L₀) (p, L)) :
    (∀ esp, L.server.device.step esp o =
        (L.server.device, [.receive o, .send (ackFrame o.sequence)])) ∧
      (∀ x ∈ exchanges L.server.trace, ∀ y ∈ exchanges L.server.trace, x.1 = y.1 → x.2 = y.2) ∧
      ∃ xs, (xs.map Prod.fst).Sublist (sentBy cfg u o.sequence reqs) ∧ Mirrors d o xs L.server ∧
        ∀ r t, p = .ret (r, t) → ∃ rs, r = .ok rs ∧
          List.Forall₂ (Got (exchanges (d.run (once xs)).2)) (sentBy cfg u o.sequence reqs) rs := by
  have hzero : rankFrom o o.sequence = 0 := by simp [rankFrom]
  obtain ⟨hgt, hsorted⟩ := @sentBy_sorted _ _ cfg u o reqs o.sequence (by omega)
  have hall : (o :: sentBy cfg u o.sequence reqs).Pairwise fun a b =>
      rankFrom o a.sequence < rankFrom o b.sequence :=
    List.pairwise_cons.mpr ⟨hgt, hsorted⟩
  have hgood : ∀ m ∈ o :: sentBy cfg u o.sequence reqs, m = o ∨ IsRequest d.auth.sessionKey m := by
    refine List.forall_mem_cons.mpr ⟨.inl rfl, fun m hm => .inr ?_⟩
    exact isRequest_sentBy he hreqs o.sequence m hm
  have hstart : InSession d o [o] (fun _ => True) L₀ := by
    refine ⟨[(o, ackFrame o.sequence)], ⟨?_, by simp, by simp, ?_, ?_, ?_, ?_, ?_⟩, trivial⟩
    · rw [hserver]
      exact told_start he
    · simp [ackFrame, frame]
    · simpa using hrequests
    · exact List.pairwise_of_forall_mem_list fun a ha b hb => by
        rw [hrequests a ha, hrequests b hb]
    · simp only [List.mem_singleton, forall_eq]
      exact fun m hm => by rw [hrequests m hm]
    · intro q hq
      obtain ⟨hreq, hrep⟩ := hreplies q hq
      simp [hreq, hrep]
  have hspec := requestAll_ordered he reqs hreqs o.sequence [o] (fun _ => True) (fun _ _ => trivial)
    hall (by simp) (fun _ h => h)
  have hstable : ∀ {G : List (Packet β × Packet β) → Prop}, Monotone G →
      (linkEnv false (fun _ => true) (.free _ _)).Stable
        (InSession d o (o :: sentBy cfg u o.sequence reqs) G) :=
    fun hG L L' hmove h => h.move (answersOnce he) hall hgood hG hmove
  have hend := Safe.reaches (fun r => ?_) (hspec _ L₀ ⟨rfl, hstart⟩) h
  · -- A run that is not over has no responses to speak about.
    have hinv : InSession d o (o :: sentBy cfg u o.sequence reqs) (fun H => ∀ r t, p = .ret (r, t) →
        ∃ rs, r = .ok rs ∧ List.Forall₂ (Got H) (sentBy cfg u o.sequence reqs) rs) L := by
      cases p with
      | ret a =>
        obtain ⟨r, t⟩ := a
        cases r with
        | ok rs =>
          obtain ⟨H, hin, -, hrs⟩ := hend
          refine ⟨H, hin, ?_⟩
          rintro _ _ ⟨⟩
          exact ⟨rs, rfl, hrs⟩
        | error e => exact hend.elim
      | ask q k =>
        obtain ⟨H, hin, -⟩ := hend.now.1
        exact ⟨H, hin, fun _ _ h => by cases h⟩
      | send m next =>
        obtain ⟨H, hin, -⟩ := hend.now.1
        exact ⟨H, hin, fun _ _ h => by cases h⟩
      | recv accept k =>
        obtain ⟨H, hin, -⟩ := hend.now.1
        exact ⟨H, hin, fun _ _ h => by cases h⟩
    obtain ⟨H, hin, hgot⟩ := hinv
    obtain ⟨hproof, hsame, xs, hsub, hmirror, rfl⟩ := transparent_of_inOrder he hall hin
    refine ⟨hproof, hsame, xs, hsub, hmirror, fun r t hp => ?_⟩
    obtain ⟨rs, rfl, hrs⟩ := hgot r t hp
    refine ⟨rs, rfl, forall₂_got_tail hrs fun m hm heq => ?_⟩
    have := hgt m hm
    rw [heq, hzero] at this
    omega
  · obtain ⟨r, t⟩ := r
    cases r with
    | error e => exact fun _ _ _ h => h
    | ok rs =>
      refine hstable fun hpre h => ⟨trivial, h.2.imp fun _ _ hgot => hgot.mono hpre⟩

/-! ### A session with a lost acknowledgment -/

/-- The proof that ends the sample handshake. -/
def sampleProof : Packet Octet :=
  frame .auth 2 (sampleClientNonce ++
    authProofOf (pskOctets 1) sampleClientNonce sampleServerNonce)

/-- The device after the sample handshake, and the client that has led it. -/
def sampleSession : Device Octet := (lockedDevice.run handshake).1
def sampleMember : HostState Octet :=
  ⟨2, some (sessionKeyOf (pskOctets 1) sampleClientNonce sampleServerNonce), true⟩

/-- `OTA_BEGIN` is executed, its response is lost, and its copy is answered; then
`OTA_ABORT` is executed. -/
def beginTwice : List (Choice (EspIdf Octet)) :=
  [.proceed, .deliver sampleEsp, .loseReply, .expire] ++ roundTrip ++ roundTrip

theorem retry_transparent_beginTwice : ∃ c,
    play (deviceServer false fun _ => true) (.free _ _) sampleAnswer beginTwice
        (requestAll sampleHost [(.otaBegin, sampleBegin), (.otaAbort, [])] (sampleMember.at 2),
          .quiet ⟨sampleSession, []⟩) = some c ∧
      ∃ xs, Mirrors sampleSession sampleProof xs c.2.server := by
  obtain ⟨⟨p, L⟩, hplay⟩ := Option.isSome_iff_exists.mp
    (show (play (deviceServer false fun _ => true) (.free _ _) sampleAnswer beginTwice
      (requestAll sampleHost [(.otaBegin, sampleBegin), (.otaAbort, [])] (sampleMember.at 2),
        .quiet ⟨sampleSession, []⟩)).isSome = true by decide +kernel)
  obtain ⟨-, -, xs, -, hmirror, -⟩ := retry_transparent (d := sampleSession) (o := sampleProof)
    ⟨by decide, by decide, by decide, rfl, by decide, by decide, by decide, by decide⟩
    (by decide) (by decide) (show (Link.quiet _).server = _ from rfl) (by simp [Link.quiet])
    (by simp [Link.quiet]) (reaches_of_play hplay)
  exact ⟨_, hplay, xs, hmirror⟩

end OtaLink
