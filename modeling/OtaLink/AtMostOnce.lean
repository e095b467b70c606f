import OtaLink.Link
import OtaLink.Replay

/-!
# One reboot for one call

A reboot or a rollback destroys the session that makes its retry safe. While the session
lives, the cache answers a copy of the request, and after the restart the device refuses
it until the client has authenticated again. So the command can be executed a second time
in one way only: the client takes the refusal of a copy for a refusal of the command,
authenticates, and sends the command as a new request. Without a key nothing protects a
copy at all.

## Main definitions

* `restartCount`, `arrivals` — how often the command was executed, and the copies of it that
  have reached the device.
* `Spent` — the device does not execute this request any more.
* `Policy.once` — the runs without the second way.
* `restart_at_most_once` — in these runs the command is executed at most once.
-/

namespace OtaLink
open Lib

variable {β : Type}

/-- The call by which a command restarts the device. -/
def Event.restarts : Command → Event β → Bool
  | .reboot, .restart => true
  | .rollback, .markInvalidRollbackAndReboot _ => true
  | _, _ => false

/-- How often the device has executed the command. -/
def restartCount (c : Command) (w : World β) : ℕ := w.trace.countP (Event.restarts c)

/-- The sequence number of a packet with the command that has reached the device. -/
def Event.arrival? (c : Command) : Event β → Option UInt16
  | .receive packet => if packet.command = c.code then some packet.sequence else none
  | _ => none

/-- The sequence numbers under which the command has reached the device. -/
def arrivals (c : Command) (w : World β) : List UInt16 := w.trace.filterMap (Event.arrival? c)

theorem Event.restarts_of_isCall {e : Event β} (h : e.isCall = true) (c : Command) :
    e.restarts c = false := by
  cases e <;> cases c <;> first | rfl | exact absurd h (by simp [Event.isCall])

theorem countP_restarts_of_isCall {events : List (Event β)} (h : ∀ e ∈ events, e.isCall = true)
    (c : Command) : events.countP (Event.restarts c) = 0 :=
  List.countP_eq_zero.mpr fun e he => by simp [Event.restarts_of_isCall (h e he)]

theorem Event.arrival?_of_isCall {e : Event β} (h : e.isCall = true) (c : Command) :
    e.arrival? c = none := by
  cases e <;> first | rfl | exact absurd h (by simp [Event.isCall])

variable [Alphabet β]

/-- A command is executed by its own request only, at most once, and only if the request
passes the gate while no OTA session is open. -/
theorem countP_restarts_step (d : Device β) (esp : EspIdf β) (packet : Packet β) (c : Command) :
    (d.step esp packet).2.countP (Event.restarts c) = 0 ∨
      ((d.step esp packet).2.countP (Event.restarts c) = 1 ∧ packet.command = c.code ∧
        d.ota.active = false ∧ ∃ payload, d.auth.gate packet = .run payload) := by
  have h := step_cases d esp packet
  generalize d.step esp packet = r at h
  cases h with
  | status | info | challenge | proof | resend | refuse =>
    left
    cases c <;> rfl
  | @run c' _ hc _ payload hg o ho =>
    have hb := countP_restarts_of_isCall
      (isCall_of_execute esp d.ota payload c' packet.sequence) c
    have hsend : ∀ q p : Packet β, Event.restarts c (.send q) = false ∧
        Event.restarts c (.receive p) = false := by
      intro q p
      cases c <;> exact ⟨rfl, rfl⟩
    rw [ho] at hb
    simp only [List.countP_cons, List.countP_append, hb, (hsend _ packet).1, (hsend packet _).2,
      Bool.false_eq_true, if_false, Nat.zero_add, Nat.add_zero]
    rcases after_execute esp d.ota payload c' packet.sequence with
      h | ⟨rfl, hactive, -, h⟩ | ⟨rfl, hactive, -, -, h⟩
    · simp [← ho, h]
    · cases c <;> simp [← ho, h, hc, hg, hactive, Event.restarts]
    · cases c <;> simp [← ho, h, hc, hg, hactive, Event.restarts]

/-- Handling a packet is its own arrival. -/
theorem arrivals_step (d : Device β) (esp : EspIdf β) (packet : Packet β) (c : Command) :
    (d.step esp packet).2.filterMap (Event.arrival? c) =
      if packet.command = c.code then [packet.sequence] else [] := by
  have hone : ∀ events : List (Event β), (∀ e ∈ events, e.arrival? c = none) →
      (.receive packet :: events).filterMap (Event.arrival? c) =
        if packet.command = c.code then [packet.sequence] else [] := by
    intro events h
    rw [List.filterMap_cons, List.filterMap_eq_nil_iff.mpr h, Event.arrival?]
    split_ifs <;> rfl
  have h := step_cases d esp packet
  generalize d.step esp packet = r at h
  cases h with
  | status | info | challenge | proof | resend | refuse => exact hone _ (by simp [Event.arrival?])
  | @run c' _ _ _ payload _ o ho =>
    refine hone _ fun e he => ?_
    rw [List.mem_append, List.mem_cons] at he
    rcases he with he | rfl | he
    · rw [← ho] at he
      exact Event.arrival?_of_isCall (isCall_of_execute esp d.ota payload c' packet.sequence e he) c
    · rfl
    · rw [← ho] at he
      rcases after_execute esp d.ota payload c' packet.sequence with
        h | ⟨-, -, -, h⟩ | ⟨-, -, -, -, h⟩ <;> rw [h] at he
      · cases he
      all_goals
        simp only [List.mem_cons, List.not_mem_nil, or_false] at he
        rcases he with rfl | rfl <;> rfl

/-! ## A request that is spent -/

/-- The device refuses `m`, or answers it from its cache. -/
def Spent (m : Packet β) (w : World β) : Prop :=
  w.device.auth.required = true ∧ (w.device.auth.authenticated = false ∨
    ∃ entry ∈ w.device.auth.replayCache.entries,
      entry.requestCommand = m.command ∧ entry.sequence = m.sequence)

theorem Spent.reset {m : Packet β} {w : World β} (h : Spent m w) : Spent m w.reset :=
  ⟨h.1, .inl rfl⟩

/-- A spent request does not pass the gate. -/
theorem Spent.gate_ne {m : Packet β} {w : World β} (h : Spent m w) (payload : List β) :
    w.device.auth.gate m ≠ .run payload := by
  intro hg
  obtain ⟨ha, hl, -⟩ := lookup_of_run hg h.1
  rcases h.2 with hn | ⟨entry, hmem, hcommand, hsequence⟩
  · simp [ha] at hn
  · exact lookup_eq_fresh_iff.mp hl entry hmem ⟨hcommand, hsequence⟩

/-- **A request is spent once it has been handled.** -/
theorem spent_step {m : Packet β} {w : World β} (hm : m.isGuarded = true)
    (hr : w.device.auth.required = true) (esp : EspIdf β) : Spent m (w.step esp m) := by
  refine ⟨(required_step _ _ _).trans hr, ?_⟩
  have hstep := step_auth w.device esp m
  change (w.device.step esp m).1.auth.authenticated = false ∨
    ∃ entry ∈ (w.device.step esp m).1.auth.replayCache.entries, _
  generalize (w.device.step esp m).1.auth = s at hstep
  cases hstep with
  | same hs =>
    cases ha : w.device.auth.authenticated
    · exact .inl rfl
    · right
      simp only [AuthState.stores, hm, hr, ha, Bool.and_self, Bool.true_and] at hs
      cases hl : w.device.auth.lookup m with
      | duplicate entry =>
        obtain ⟨hmem, hcommand, hsequence, -⟩ := mem_of_duplicate hl
        exact ⟨entry, hmem, hcommand, hsequence⟩
      | fresh => simp [hl] at hs
      | conflict => simp [hl] at hs
  | stored error => exact .inr ⟨_, Ring.mem_entries_insert_self _ _, rfl, rfl⟩
  | challenged _ hc =>
    simp only [Packet.isChallenge, Packet.isGuarded, Bool.and_eq_true, beq_iff_eq] at hc hm
    simp [hc.1, Command.isProtected] at hm
  | proved _ hg => simp [hm] at hg
  | restarted => exact .inl rfl

/-! ## One call -/

/-- The runs in which, with a key, the client accepts no demand to authenticate for the first
request of the call once the command has been executed (for the second one the demand only ends
the call), and in which, without a key, after one copy of the request no other reaches the device
while no OTA session is open. -/
def Policy.once (cfg : HostConfig β) (c : Command) : Policy (Packet β) (World β) where
  deliver w q := cfg.authKey.isSome || q.command != c.code || (arrivals c w).isEmpty ||
    w.device.ota.active
  lose _ := true
  accept w r := !cfg.authKey.isSome || !isAuthRequired r || restartCount c w == 0 ||
    (arrivals c w).any (· != r.sequence)
  expire _ := true

/-- The command has not been executed, and in the first pass of the call it has not arrived. -/
structure Unused (cfg : HostConfig β) (c : Command) (retried : Bool) (w : World β) : Prop where
  count : restartCount c w = 0
  required : w.device.auth.required = cfg.authKey.isSome
  first : retried = false → arrivals c w = []

/-- The command has arrived and been executed at most once, with a key not again for `m`, and in
the first pass it has arrived under the number of `m` only. -/
structure Used (cfg : HostConfig β) (c : Command) (retried : Bool) (m : Packet β) (w : World β) :
    Prop where
  count : restartCount c w ≤ 1
  required : w.device.auth.required = cfg.authKey.isSome
  arrived : arrivals c w ≠ []
  spent : cfg.authKey.isSome = true → Spent m w
  first : retried = false → ∀ n ∈ arrivals c w, n = m.sequence

theorem restartCount_step (c : Command) (w : World β) (esp : EspIdf β) (q : Packet β) :
    restartCount c (w.step esp q) =
      restartCount c w + (w.device.step esp q).2.countP (Event.restarts c) := by
  simp [restartCount, World.step]

theorem arrivals_world_step (c : Command) (w : World β) (esp : EspIdf β) (q : Packet β) :
    arrivals c (w.step esp q) =
      arrivals c w ++ if q.command = c.code then [q.sequence] else [] := by
  rw [arrivals, World.step, List.filterMap_append, arrivals_step]
  rfl

@[simp] theorem restartCount_reset (c : Command) (w : World β) :
    restartCount c w.reset = restartCount c w := by
  cases c <;> simp [restartCount, World.reset, Event.restarts]

@[simp] theorem arrivals_reset (c : Command) (w : World β) :
    arrivals c w.reset = arrivals c w := by
  simp [arrivals, World.reset, Event.arrival?]

section Serves
variable {cfg : HostConfig β} {c : Command} {retried : Bool} {m q r : Packet β} {w w' : World β}
  {allowed : EspIdf β → Bool}

theorem Unused.tick (h : Unused cfg c retried w)
    (ht : (deviceServer true allowed).tick w = some w') : Unused cfg c retried w' := by
  obtain ⟨-, rfl⟩ := tick_iff.mp ht
  exact ⟨by simpa using h.count, h.required, fun hf => by simpa using h.first hf⟩

theorem Used.tick (h : Used cfg c retried m w)
    (ht : (deviceServer true allowed).tick w = some w') : Used cfg c retried m w' := by
  obtain ⟨-, rfl⟩ := tick_iff.mp ht
  exact ⟨by simpa using h.count, h.required, by simpa using h.arrived, fun hk => (h.spent hk).reset,
    fun hf => by simpa using h.first hf⟩

/-- Other packets do not execute the command. -/
theorem Unused.serves (h : Unused cfg c retried w) (hq : q.command ≠ c.code)
    (hs : (deviceServer true allowed).Serves w q r w') : Unused cfg c retried w' := by
  obtain ⟨esp, -, -, rfl⟩ := serves_iff.mp hs
  refine ⟨?_, (required_step _ _ _).trans h.required, fun hf => ?_⟩
  · rw [restartCount_step, h.count]
    rcases countP_restarts_step w.device esp q c with h0 | ⟨-, hc, -⟩
    · omega
    · exact absurd hc hq
  · rw [arrivals_world_step, h.first hf, if_neg hq]
    rfl

/-- A spent request does not execute the command. -/
theorem Unused.serves_spent (h : Unused cfg c true w) (hm : Spent m w) (hg : m.isGuarded = true)
    (hs : (deviceServer true allowed).Serves w m r w') : Unused cfg c true w' ∧ Spent m w' := by
  obtain ⟨esp, -, -, rfl⟩ := serves_iff.mp hs
  refine ⟨⟨?_, (required_step _ _ _).trans h.required, by simp⟩, spent_step hg hm.1 esp⟩
  rw [restartCount_step, h.count]
  rcases countP_restarts_step w.device esp m c with h0 | ⟨-, -, -, payload, hrun⟩
  · omega
  · exact absurd hrun (hm.gate_ne payload)

/-- The request itself executes it at most once. -/
theorem Unused.serves_request (h : Unused cfg c retried w) (hm : m.command = c.code)
    (hg : m.isGuarded = true) (hs : (deviceServer true allowed).Serves w m r w') :
    Used cfg c retried m w' := by
  obtain ⟨esp, -, -, rfl⟩ := serves_iff.mp hs
  refine ⟨?_, (required_step _ _ _).trans h.required, ?_,
    fun hk => spent_step hg (h.required.trans hk) esp, fun hf n hn => ?_⟩
  · rw [restartCount_step, h.count]
    rcases countP_restarts_step w.device esp m c with h0 | ⟨h1, -⟩ <;> omega
  · simp [arrivals_world_step, hm]
  · rw [arrivals_world_step, h.first hf, if_pos hm] at hn
    simpa using hn

/-- A copy of the request does not execute it again. -/
theorem Used.serves_copy (h : Used cfg c retried m w) (hm : m.command = c.code)
    (hg : m.isGuarded = true) (hp : (Policy.once cfg c).deliver w m = true)
    (hs : (deviceServer true allowed).Serves w m r w') : Used cfg c retried m w' := by
  obtain ⟨esp, -, -, rfl⟩ := serves_iff.mp hs
  refine ⟨?_, (required_step _ _ _).trans h.required, by simp [arrivals_world_step, hm],
    fun hk => spent_step hg (h.spent hk).1 esp, fun hf n hn => ?_⟩
  · have hcount := h.count
    rw [restartCount_step]
    rcases countP_restarts_step w.device esp m c with h0 | ⟨-, -, hidle, payload, hrun⟩
    · omega
    · cases hk : cfg.authKey.isSome
      · simp [Policy.once, hk, hm, hidle, h.arrived] at hp
      · exact absurd hrun ((h.spent hk).gate_ne payload)
  · rw [arrivals_world_step, if_pos hm] at hn
    rcases List.mem_append.mp hn with hn | hn
    · exact h.first hf n hn
    · simpa using hn

end Serves

section Call
variable {cfg : HostConfig β} {c : Command}

theorem isGuarded_callPacket (hp : c.isProtected = true) (u : HostState β) (o : Packet β)
    (payload : List β) : (callPacket cfg u c (o.sequence + 1) payload).isGuarded = true := by
  simp [Packet.isGuarded, callPacket, frame, hp]

/-- Before a handshake: only in the second pass the request may be in flight, and it is spent. -/
def Unpaired (cfg : HostConfig β) (c : Command) (retried : Bool) (o : Packet β) (w : World β) :
    Prop :=
  Unused cfg c retried w ∧
    (o.command = c.code → retried = true ∧ o.isGuarded = true ∧ Spent o w)

/-- The request is in flight, and replies to it. -/
def Underway (cfg : HostConfig β) (c : Command) (retried : Bool) (m : Packet β)
    (mine : List (Reply (Packet β) (World β))) (w : World β) : Prop :=
  Used cfg c retried m w ∧ ∀ q ∈ mine, q.response.sequence = m.sequence

/-- The handshake, with or without spent requests in flight. -/
theorem handshake_once (hp : c.isProtected = true) (retried : Bool) (o : Packet β) :
    Handshake (deviceServer true fun _ => true) (· = o) (Unpaired cfg c retried o)
      (Unused cfg c retried) where
  old {o' w r w'} ho h hs := by
    obtain rfl := ho
    by_cases hc : o'.command = c.code
    · obtain ⟨rfl, hg, hspent⟩ := h.2 hc
      obtain ⟨hu, hspent'⟩ := h.1.serves_spent hspent hg hs
      exact ⟨hu, fun _ => ⟨rfl, hg, hspent'⟩⟩
    · exact ⟨h.1.serves hc hs, fun h => absurd h hc⟩
  tick h ht := by
    refine ⟨h.1.tick ht, fun hc => ⟨(h.2 hc).1, (h.2 hc).2.1, ?_⟩⟩
    obtain ⟨-, rfl⟩ := tick_iff.mp ht
    exact (h.2 hc).2.2.reset
  challenge _ h hs := h.1.serves (by cases c <;> simp_all [frame, Command.isProtected]) hs
  again h hs := h.serves (by cases c <;> simp_all [frame, Command.isProtected]) hs
  tick' := Unused.tick

/-- One pass of the command, after packets of other kinds. -/
theorem callRule_once (hp : c.isProtected = true) (retried : Bool) :
    CallRule true (fun _ => true) (Policy.once cfg c) cfg c [] (fun o => o.command ≠ c.code)
      (Unpaired cfg c retried) (Unused cfg c retried) (Underway cfg c retried) where
  length_le := by split <;> simp [protocolMaxPayload]
  auth hm := by
    obtain ⟨n, payload, rfl⟩ := hm
    cases c <;> simp_all [frame, Command.isProtected]
  handshake := handshake_once hp retried
  old ho h hs := h.serves ho hs
  tick := Unused.tick
  exchange {o} u ho _ := {
    tag_ne := sequence_ne _
    old := fun h _ hs => h.serves ho hs
    tick := Unused.tick
    first := fun h _ hs => ⟨h.serves_request rfl (isGuarded_callPacket hp u o []) hs, by
      simpa using sequence_of_serves hs⟩
    again := fun h hdeliver hs =>
      ⟨h.1.serves_copy rfl (isGuarded_callPacket hp u o []) hdeliver hs, fun q hq => by
        rcases List.mem_append.mp hq with hq | hq
        · exact h.2 q hq
        · rw [List.mem_singleton.mp hq]
          exact sequence_of_serves hs⟩
    tick' := fun h ht => ⟨h.1.tick ht, h.2⟩
    lose := fun h _ => ⟨h.1, fun q hq => h.2 q (by simp at hq ⊢; tauto)⟩ }

/-- Where the client accepts in the first pass that it has to authenticate, the command has not
been executed and will not be for this request. -/
theorem Underway.retry (hp : c.isProtected = true) {u : HostState β} {o : Packet β}
    {q : Reply (Packet β) (World β)} {mine : List (Reply (Packet β) (World β))} {w : World β}
    (h : Underway cfg c false (callPacket cfg u c (o.sequence + 1) []) (q :: mine) w)
    (hk : cfg.authKey.isSome = true) (hq : isAuthRequired q.response = true)
    (haccept : (Policy.once cfg c).accept w q.response = true) :
    Unpaired cfg c true (callPacket cfg u c (o.sequence + 1) []) w := by
  have hsame : (arrivals c w).any (· != q.response.sequence) = false := by
    rw [h.2 q List.mem_cons_self, List.any_eq_false]
    intro n hn
    simpa using h.1.first rfl n hn
  have h0 : restartCount c w = 0 := by simpa [Policy.once, hk, hq, hsame] using haccept
  exact ⟨⟨h0, h.1.required, by simp⟩, fun _ => ⟨rfl, isGuarded_callPacket hp u o [], h.1.spent hk⟩⟩

/-- The command is executed at most once, now and whatever the link still does. -/
def KeepsOnce (cfg : HostConfig β) (c : Command) (L : Link (Packet β) (World β)) : Prop :=
  L.Keeps (deviceServer true fun _ => true) (Policy.once cfg c) fun w => restartCount c w ≤ 1

theorem request_once (hp : c.isProtected = true) (u : HostState β) :
    Task.Spec (linkEnv true (fun _ => true) (Policy.once cfg c))
      (fun L => restartCount c L.server ≤ 1)
      (fun t L => t = u ∧ (∃ w, L = .quiet w) ∧ Unused cfg c false L.server)
      (request cfg c []) (fun _ _ => KeepsOnce cfg c) (fun _ _ => KeepsOnce cfg c) := by
  have hsafe : ∀ (retried : Bool) (w : World β), Unused cfg c retried w → restartCount c w ≤ 1 :=
    fun _ w h => by
      rw [h.count]
      omega
  refine (request_spec (fun retried => callRule_once hp retried) ?_
    (fun retried o w h => hsafe retried w h.1) hsafe (fun _ m mine w h => h.1.count)
    (fun _ L _ h => h) (fun _ _ _ L _ h => h) ?_).pre ?_
  · intro o u q mine w _ hg hq haccept h
    simp only [HostConfig.guards, Bool.and_eq_true] at hg
    exact h.retry hp hg.1 hq haccept
  · rintro retried o u r t L ho hk - ⟨-, q, -, htaken⟩ -
    exact htaken.keeps ((callRule_once hp retried).exchange u ho hk) sequence_of_serves
      fun _ w h => h.1.count
  · rintro t L ⟨rfl, ⟨w, rfl⟩, hunused⟩
    have hping : (frame .ping t.sequence [] : Packet β).command ≠ c.code := by
      cases c <;> simp_all [frame, Command.isProtected]
    exact ⟨t, frame .ping t.sequence [], rfl, Idle.quiet _ _,
      hping, ⟨hunused, fun h => absurd h hping⟩, fun _ _ => hunused, fun _ => hunused⟩

end Call

/-- **At most once.** In the runs of `Policy.once`, one call reboots the device or rolls it
back at most once, whatever is lost, however often the device restarts, and whatever the
platform answers. -/
theorem restart_at_most_once {cfg : HostConfig β} {c : Command}
    (hc : c = .reboot ∨ c = .rollback) {d : Device β}
    (hshared : d.auth.required = cfg.authKey.isSome) {u : HostState β}
    {p : Prog Ask (Answer β) (Packet β) (Except HostError (Packet β) × HostState β)}
    {L : Link (Packet β) (World β)}
    (h : (linkEnv true (fun _ => true) (Policy.once cfg c)).Reaches
      (request cfg c [] u, .quiet ⟨d, []⟩) (p, L)) : restartCount c L.server ≤ 1 := by
  have hp : c.isProtected = true := by rcases hc with rfl | rfl <;> rfl
  refine Task.Spec.reaches_inv (request_once hp u) (fun _ _ L L' hm h => h.move hm)
    (fun _ _ L L' hm h => h.move hm) (fun _ _ L h => h.now) (fun _ _ L h => h.now) ?_ h
  exact ⟨rfl, ⟨_, rfl⟩, by simp [restartCount, Link.quiet], hshared,
    fun _ => by simp [arrivals, Link.quiet]⟩

/-! ### A lost acknowledgment -/

/-- A client that sends every request up to twice, and has no session. -/
def sampleHost : HostConfig Octet := ⟨2, some (pskOctets 1)⟩
def sampleClient : HostState Octet := ⟨0, none, false⟩

/-- The nonce the client draws. -/
def sampleAnswer : ∀ q, Answer Octet q
  | .urandom => ⟨sampleClientNonce, length_sampleClientNonce⟩

/-- Send a packet, let it reach the device, and accept the reply. -/
def roundTrip : List (Choice (EspIdf Octet)) := [.proceed, .deliver sampleEsp, .proceed]

/-- Authenticate, and send the command; the device executes it, but its response is lost,
and the timer of the client expires. -/
def lostAck : List (Choice (EspIdf Octet)) :=
  .proceed :: roundTrip ++ roundTrip ++ [.proceed, .deliver sampleEsp, .loseReply, .expire]

/-- The client sends the request again, is told to authenticate, does so, and sends the
command under a new sequence number. -/
def sentAgain : List (Choice (EspIdf Octet)) :=
  lostAck ++ roundTrip ++ .proceed :: roundTrip ++ roundTrip ++ [.proceed, .deliver sampleEsp]

/-- One call rolls the device back twice. -/
theorem restart_twice :
    ¬∀ (cfg : HostConfig Octet) (c : Command) (d : Device Octet) (u : HostState Octet)
      (p : Prog Ask (Answer Octet) (Packet Octet)
        (Except HostError (Packet Octet) × HostState Octet))
      (L : Link (Packet Octet) (World Octet)), (c = .reboot ∨ c = .rollback) →
      (cfg.authKey = if d.auth.required then some d.auth.key else none) →
      (linkEnv true (fun _ => true) (Policy.free _ _)).Reaches
        (request cfg c [] u, .quiet ⟨d, []⟩) (p, L) → restartCount c L.server ≤ 1 := by
  intro h
  obtain ⟨⟨p, L⟩, hr, hcount⟩ := exists_reaches_of_play (deviceServer true fun _ => true)
    (.free _ _) sampleAnswer sentAgain
    (request sampleHost .rollback [] sampleClient, .quiet ⟨lockedDevice, []⟩)
    (fun c => restartCount .rollback c.2.server == 2) (by decide +kernel)
  have := h sampleHost .rollback lockedDevice sampleClient p L (.inr rfl) rfl hr
  simp only [beq_iff_eq] at hcount
  omega

/-- Up to the lost response the call is one of `Policy.once`. -/
theorem restart_at_most_once_lostAck :
    ∃ c, play (deviceServer true fun _ => true) (Policy.once sampleHost .rollback) sampleAnswer
      lostAck (request sampleHost .rollback [] sampleClient, .quiet ⟨lockedDevice, []⟩) = some c ∧
      restartCount .rollback c.2.server ≤ 1 := by
  obtain ⟨⟨p, L⟩, hplay⟩ := Option.isSome_iff_exists.mp
    (show (play (deviceServer true fun _ => true) (Policy.once sampleHost .rollback) sampleAnswer
      lostAck (request sampleHost .rollback [] sampleClient, .quiet ⟨lockedDevice, []⟩)).isSome
      from by decide +kernel)
  exact ⟨_, hplay, restart_at_most_once (.inr rfl) rfl (reaches_of_play hplay)⟩

end OtaLink
