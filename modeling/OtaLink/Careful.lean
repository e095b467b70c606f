import OtaLink.Host
import OtaLink.Lib.Trace

/-!
# A client with a key fails closed

Whatever answers the client, and whatever it answers, a client with a key puts no proof and no
protected packet on the link before somebody has answered its latest challenge with a proof of
the key, and it reports no protected command as done that was not acknowledged under the
session key. Nothing is assumed of the other side or of the MAC.

## Main definitions

* `Vouched` — somebody has proved to know the key since the client's latest challenge.
* `Permitted` — the packets that the client may send.
* `Performed` — calls whose packets were acknowledged under a session key, in this order.
-/

namespace OtaLink
open Lib

variable {β : Type} [Alphabet β]

/-- The packet opens a handshake. -/
def Packet.opens (m : Packet β) : Bool :=
  m.command == Command.auth.code && m.payload.length == authNonceSize

/-- Somebody has answered the client's latest challenge with a proof of the key. -/
def Vouched (psk clientNonce serverNonce : List β) (trace : List (Spoken (Packet β))) : Prop :=
  ∃ before n after r status,
    trace = before ++ .sent (frame .auth n clientNonce) :: after ∧
    clientNonce.length = authNonceSize ∧ serverNonce.length = authNonceSize ∧
    (∀ m, .sent m ∈ after → m.opens = false) ∧ .received r ∈ after ∧
    r.command = Command.ack.code ∧
    r.payload = status :: (serverNonce ++ deviceProofOf psk clientNonce serverNonce)

/-- What the client may send where it is `asked` for protected calls. -/
inductive Permitted (psk : List β) (asked : Command → List β → Prop)
    (before : List (Spoken (Packet β))) : Packet β → Prop
  /-- A question that needs no session. -/
  | query {c n} (hc : c = .ping ∨ c = .getInfo) : Permitted psk asked before (frame c n [])
  /-- A challenge. -/
  | challenge {n nonce} (hl : nonce.length = authNonceSize) :
      Permitted psk asked before (frame .auth n nonce)
  /-- A proof of the key for somebody who has proved it. -/
  | proof {n cn sn} (h : Vouched psk cn sn before) :
      Permitted psk asked before (frame .auth n (cn ++ authProofOf psk cn sn))
  /-- The packet of a protected call in a session with somebody who has proved the key. -/
  | guarded {c n payload cn sn} (hc : c.isProtected = true) (ha : asked c payload)
      (h : Vouched psk cn sn before) : Permitted psk asked before
        (frame c n (payload ++ requestTag (sessionKeyOf psk cn sn) c.code n payload))

/-- An ACK without a status or with the status of success. -/
def Packet.Acknowledges (r : Packet β) : Prop :=
  r.command = Command.ack.code ∧ ∀ status ∈ r.payload.head?, status = ofByte ProtocolError.ok.code

/-- These calls were acknowledged under the key of their session, in this order. -/
inductive Performed (psk : List β) :
    List (Command × List β) → List (Spoken (Packet β)) → Prop
  | start : Performed psk [] []
  /-- Something else was sent or received. -/
  | other {calls trace} (x : Spoken (Packet β)) (h : Performed psk calls trace) :
      Performed psk calls (trace ++ [x])
  /-- The packet of a call was sent and acknowledged. -/
  | call {calls trace c n payload cn sn r} (answer : List β) (h : Performed psk calls trace)
      (hv : Vouched psk cn sn trace) (hr : Packet.Acknowledges { r with payload := answer })
      (htag : r.payload =
        answer ++ responseTag (sessionKeyOf psk cn sn) c.code Command.ack.code n answer) :
      Performed psk (calls ++ [(c, payload)])
        (trace ++ [.sent (frame c n (payload ++
          requestTag (sessionKeyOf psk cn sn) c.code n payload)), .received r])

section Rules
variable {psk cn sn : List β} {trace : List (Spoken (Packet β))} {m r : Packet β}

theorem Vouched.concat {x : Spoken (Packet β)} (h : Vouched psk cn sn trace)
    (hx : ∀ m, x = .sent m → m.opens = false) : Vouched psk cn sn (trace ++ [x]) := by
  obtain ⟨before, n, after, r, status, rfl, hl, hl', hafter, hr, hack⟩ := h
  refine ⟨before, n, after ++ [x], r, status, by simp, hl, hl', fun m hm => ?_,
    List.mem_append_left _ hr, hack⟩
  rcases List.mem_append.mp hm with hm | hm
  · exact hafter m hm
  · exact hx m (List.mem_singleton.mp hm).symm

theorem Vouched.sent (h : Vouched psk cn sn trace) (hm : m.opens = false) :
    Vouched psk cn sn (trace ++ [.sent m]) := h.concat fun m' h' => by cases h'; exact hm

theorem Vouched.received (h : Vouched psk cn sn trace) (r : Packet β) :
    Vouched psk cn sn (trace ++ [.received r]) := h.concat fun m' h' => by cases h'

theorem Vouched.exchanged (h : Vouched psk cn sn trace) (hm : m.opens = false) (r : Packet β) :
    Vouched psk cn sn (trace ++ [.sent m, .received r]) := by
  have := (h.sent hm).received r
  rwa [List.append_assoc] at this

/-- The answer to a challenge that carries the proof. -/
theorem Vouched.answered {n : UInt16} (hl : cn.length = authNonceSize)
    (hl' : sn.length = authNonceSize) (hack : r.command = Command.ack.code) {status : β}
    (hr : r.payload = status :: (sn ++ deviceProofOf psk cn sn)) :
    Vouched psk cn sn (trace ++ [.sent (frame .auth n cn), .received r]) :=
  ⟨trace, n, [.received r], r, status, rfl, hl, hl', by simp, by simp, hack, hr⟩

theorem opens_proof {n : UInt16} (hl : cn.length = authNonceSize) :
    (frame .auth n (cn ++ authProofOf psk cn sn)).opens = false := by
  simp [Packet.opens, frame, hl, authNonceSize]

omit [Alphabet β] in
theorem opens_frame {c : Command} {n : UInt16} {payload : List β} (hc : c ≠ .auth) :
    (frame c n payload).opens = false := by
  cases c <;> first | rfl | exact absurd rfl hc

end Rules

/-! ## The state of the client -/

/-- The client has kept to what is permitted, and what it takes for a session is one. -/
structure Standing (psk : List β) (asked : Command → List β → Prop)
    (calls : List (Command × List β)) (t : HostState β) (trace : List (Spoken (Packet β))) :
    Prop where
  lawful : Lawful (Permitted psk asked) trace
  performed : Performed psk calls trace
  keyed (ha : t.authenticated = true) : ∃ cn sn,
    t.sessionKey = some (sessionKeyOf psk cn sn) ∧ Vouched psk cn sn trace

section Standing
variable {psk cn sn : List β} {asked : Command → List β → Prop}
  {calls : List (Command × List β)} {t u : HostState β} {trace : List (Spoken (Packet β))}
  {m r : Packet β}

theorem standing_opened (n : UInt16) : Standing psk asked [] (.opened n) [] :=
  ⟨lawful_nil, .start, fun h => by cases h⟩

theorem Performed.append (h : Performed psk calls trace) (more : List (Spoken (Packet β))) :
    Performed psk calls (trace ++ more) := by
  induction more generalizing trace with
  | nil => rwa [List.append_nil]
  | cons x more ih =>
    rw [← List.singleton_append, ← List.append_assoc]
    exact ih (h.other x)

/-- What was performed need not be counted. -/
theorem Performed.fewer {more : List (Command × List β)}
    (h : Performed psk (calls ++ more) trace) : Performed psk calls trace := by
  generalize hall : calls ++ more = all at h
  induction h generalizing more with
  | start =>
    obtain ⟨rfl, -⟩ := List.append_eq_nil_iff.mp hall
    exact .start
  | other x h ih => exact (ih hall).other x
  | @call before trace c n payload cn sn r answer h hv hr htag ih =>
    rcases List.eq_nil_or_concat more with rfl | ⟨more, last, rfl⟩
    · rw [List.append_nil] at hall
      exact hall ▸ .call answer h hv hr htag
    · rw [List.concat_eq_append, ← List.append_assoc] at hall
      exact (ih (List.append_inj_left' hall rfl)).append _

theorem Standing.fewer {more : List (Command × List β)}
    (h : Standing psk asked (calls ++ more) t trace) : Standing psk asked calls t trace :=
  ⟨h.lawful, h.performed.fewer, h.keyed⟩

/-- Without a session only the record counts. -/
theorem Standing.unauthenticated (h : Standing psk asked calls t trace)
    (hu : u.authenticated = false) : Standing psk asked calls u trace :=
  ⟨h.lawful, h.performed, fun ha => absurd ha (by simp [hu])⟩

theorem Standing.at (h : Standing psk asked calls t trace) (n : UInt16) :
    Standing psk asked calls (t.at n) trace := ⟨h.lawful, h.performed, h.keyed⟩

theorem Standing.sent (h : Standing psk asked calls t trace) (hm : Permitted psk asked trace m)
    (hopens : m.opens = false ∨ t.authenticated = false) :
    Standing psk asked calls t (trace ++ [.sent m]) where
  lawful := h.lawful.sent hm
  performed := h.performed.other _
  keyed ha := by
    obtain ⟨cn, sn, hk, hv⟩ := h.keyed ha
    exact ⟨cn, sn, hk, hv.sent (hopens.resolve_right (by simp [ha]))⟩

theorem Standing.received (h : Standing psk asked calls t trace) (r : Packet β) :
    Standing psk asked calls t (trace ++ [.received r]) where
  lawful := h.lawful.received r
  performed := h.performed.other _
  keyed ha := by
    obtain ⟨cn, sn, hk, hv⟩ := h.keyed ha
    exact ⟨cn, sn, hk, hv.received r⟩

/-- One copy of a packet and the answer to it. -/
theorem Standing.exchanged (h : Standing psk asked calls t trace) (hm : Permitted psk asked trace m)
    (hopens : m.opens = false ∨ t.authenticated = false) (r : Packet β) :
    Standing psk asked calls t (trace ++ [.sent m, .received r]) := by
  have := (h.sent hm hopens).received r
  rwa [List.append_assoc] at this

end Standing

/-! ## The parts of a call -/

/-- The packet of a call was sent once more and this is the answer, without its tag. -/
def Obtained (psk : List β) (calls : List (Command × List β)) (c : Command) (payload : List β)
    (r : Packet β) (trace : List (Spoken (Packet β))) : Prop :=
  ∃ before n cn sn r', Performed psk calls before ∧ Vouched psk cn sn before ∧
    trace = before ++ [.sent (frame c n (payload ++ requestTag (sessionKeyOf psk cn sn) c.code n
      payload)), .received r'] ∧
    r = { r' with payload := r.payload } ∧
    r'.payload = r.payload ++
      responseTag (sessionKeyOf psk cn sn) c.code r'.command n r.payload

theorem Obtained.performed {psk : List β} {calls : List (Command × List β)} {c : Command}
    {payload : List β} {r : Packet β} {trace : List (Spoken (Packet β))}
    (h : Obtained psk calls c payload r trace) (hr : r.Acknowledges) :
    Performed psk (calls ++ [(c, payload)]) trace := by
  obtain ⟨before, n, cn, sn, r', hc, hv, rfl, hstrip, htag⟩ := h
  have hack : r'.command = Command.ack.code := by rw [hstrip] at hr; exact hr.1
  exact .call r.payload hc hv (hstrip ▸ hr) (hack ▸ htag)

/-- Every execution keeps to what is permitted. -/
abbrev Cautious {σ ε α : Type} (E : Env Ask (Answer β) (Packet β) σ) (psk : List β)
    (asked : Command → List β → Prop) (P : HostState β → List (Spoken (Packet β)) → Prop)
    (x : Task Ask (Answer β) (Packet β) (HostState β) ε α)
    (Ok : α → HostState β → List (Spoken (Packet β)) → Prop)
    (Err : ε → HostState β → List (Spoken (Packet β)) → Prop) : Prop :=
  Task.Spec E.traced (fun s => Lawful (Permitted psk asked) s.2) (fun t s => P t s.2) x
    (fun a t s => Ok a t s.2) fun e t s => Err e t s.2

section Client
variable {σ : Type} {E : Env Ask (Answer β) (Packet β) σ} {psk : List β}
  {asked : Command → List β → Prop} {calls : List (Command × List β)} {cfg : HostConfig β}
  {c : Command} {payload : List β}

/-- The copies of a packet of which `F` says why it may be sent. -/
theorem requestPacket_cautious {m : Packet β} {v : HostState β}
    {F : List (Spoken (Packet β)) → Prop}
    (hF : ∀ trace, F trace → Standing psk asked calls v trace)
    (hagain : ∀ trace, F trace → F (trace ++ [.sent m])) :
    Cautious E psk asked (fun t trace => t = v ∧ F trace) (requestPacket cfg m)
      (fun r t trace => t = v ∧ ∃ before, F before ∧ trace = before ++ [.sent m, .received r])
      (fun _ t trace => t = v ∧ F trace) := by
  refine Task.Spec.bind (Task.Spec.exchange_traced (F := fun t trace => t = v ∧ F trace)
    (fun _ trace h => (hF trace h.2).lawful) (fun _ trace h => ⟨h.1, hagain trace h.2⟩) _)
    fun r => ?_
  cases r with
  | none => exact Task.Spec.raise fun _ _ h => h
  | some r =>
    refine Task.Spec.pure ?_
    rintro t s ⟨before, ⟨ht, h⟩, hs⟩
    exact ⟨ht, before, h, hs⟩

theorem requestUnprotected_cautious (v : HostState β) {n : UInt16}
    {F : List (Spoken (Packet β)) → Prop} (hl : payload.length ≤ protocolMaxPayload)
    (hF : ∀ trace, F trace → Standing psk asked calls v trace)
    (hagain : ∀ trace, F trace → F (trace ++ [.sent (frame c (n + 1) payload)])) :
    Cautious E psk asked (fun t trace => t = v.at n ∧ F trace) (requestUnprotected cfg c payload)
      (fun r t trace => t = v.at (n + 1) ∧ ∃ before, F before ∧
        trace = before ++ [.sent (frame c (n + 1) payload), .received r])
      (fun _ t trace => t = v.at (n + 1) ∧ F trace) := by
  refine Task.Spec.bind (R := fun m t s => (t = v.at (n + 1) ∧ F s.2) ∧ m = n + 1) ?_ fun m => ?_
  · refine nextSequence_spec.consequence (fun _ _ h => h) ?_ (fun _ _ _ h => h)
    rintro m t s ⟨t₀, ⟨rfl, h⟩, rfl, rfl⟩
    exact ⟨⟨rfl, h⟩, rfl⟩
  refine Task.Spec.bind (buildPacket_spec fun t s _ hlt => absurd hl (by omega)) fun q => ?_
  rintro t s ⟨⟨⟨rfl, h⟩, rfl⟩, rfl, -⟩
  exact requestPacket_cautious (fun trace h => (hF trace h).at _) hagain _ _ ⟨rfl, h⟩

/-- An acknowledged packet. -/
theorem ensureAck_acknowledges {P : HostState β → σ × List (Spoken (Packet β)) → Prop}
    {I : σ × List (Spoken (Packet β)) → Prop} (r : Packet β) (x : Context) :
    Task.Spec E.traced I P (ensureAck r x) (fun _ t s => P t s ∧ r.Acknowledges)
      fun _ t s => P t s := by
  unfold ensureAck
  refine Task.Spec.ite (fun hc => ?_)
    (fun _ => Task.Spec.ite (fun _ => ?_) (fun _ => ?_))
  · cases hp : r.payload with
    | nil => exact Task.Spec.pure fun t s h => ⟨h, hc, by simp [hp]⟩
    | cons status rest =>
      refine Task.Spec.ite (fun hok => ?_) (fun _ => ?_)
      · exact Task.Spec.pure fun t s h => ⟨h, hc, by simp [hp, hok]⟩
      · exact Task.Spec.raise fun t s h => h
  · exact Task.Spec.raise fun t s h => h
  · exact Task.Spec.raise fun t s h => h

/-- The handshake. -/
theorem authenticate_cautious (hkey : cfg.authKey = some psk) (u : HostState β) :
    Cautious E psk asked (fun t trace => t = u ∧ Standing psk asked calls u trace)
      (authenticate cfg)
      (fun _ t trace => t.authenticated = true ∧ Standing psk asked calls t trace)
      (fun _ t trace => Standing psk asked calls t trace) := by
  cases hu : u.authenticated with
  | true =>
    refine (authenticate_authenticated hu).consequence (fun _ _ h => h) ?_ fun _ _ _ h => h.elim
    rintro _ t s ⟨rfl, h⟩
    exact ⟨hu, h⟩
  | false =>
  rw [authenticate_eq]
  rw [hkey]
  refine Task.Spec.read_bind fun t₀ => Task.Spec.ite (fun ha => ?_) (fun _ => ?_)
  · rintro t s ⟨rfl, rfl, -⟩
    exact absurd ha (by simp [hu])
  -- The nonce.
  refine Task.Spec.bind (R := fun _ t s => t = u.at u.sequence ∧ Standing psk asked calls u s.2) ?_
    fun nonce => ?_
  · refine Task.Spec.ask ?_ (fun _ s h => h.2.2.lawful) ?_
    · rintro t s s' ⟨-, hs⟩ h
      exact hs ▸ h
    · rintro t s a s' ⟨rfl, rfl, h⟩ ⟨-, hs⟩
      exact ⟨rfl, hs ▸ h⟩
  obtain ⟨nonce, hl⟩ := nonce
  -- The challenge.
  refine Task.Spec.bind ((requestUnprotected_cautious u (F := Standing psk asked calls u)
    (by rw [hl]; decide) (fun _ h => h)
    fun trace h => h.sent (.challenge hl) (.inr hu)).consequence (fun _ _ h => h)
    (fun _ _ _ h => h) ?_) fun challenge => ?_
  · rintro e t s ⟨rfl, h⟩
    exact h.at _
  have hraise : ∀ (t : HostState β) (s : σ × List (Spoken (Packet β))),
      (t = u.at (u.sequence + 1) ∧ ∃ before, Standing psk asked calls u before ∧
        s.2 = before ++ [.sent (frame .auth (u.sequence + 1) nonce), .received challenge]) →
      Standing psk asked calls t s.2 := by
    rintro t s ⟨rfl, before, h, hs⟩
    exact hs ▸ (h.exchanged (.challenge hl) (.inr hu) challenge).at _
  refine Task.Spec.ite (fun _ => Task.Spec.raise hraise) fun hc => ?_
  refine Task.Spec.bind (ensureAck_spec fun _ t s h _ => hraise t s h) fun _ => ?_
  refine Task.Spec.ite (fun _ => Task.Spec.raise fun t s h => hraise t s h.1) fun hproved => ?_
  simp only [not_or, ne_eq, not_not] at hc hproved
  refine Task.Spec.update_bind ?_
  -- The proof, for somebody who has proved the key.
  have hlen := hc.2
  obtain ⟨status, rest, hpay⟩ : ∃ status rest, challenge.payload = status :: rest := by
    cases h : challenge.payload with
    | nil => simp [h, authNonceSize, authTagSize] at hlen
    | cons status rest => exact ⟨status, rest, rfl⟩
  rw [hpay] at hproved ⊢
  set serverNonce := ((status :: rest).drop 1).take authNonceSize with hserver
  have hl' : serverNonce.length = authNonceSize := by
    rw [hpay, List.length_cons, authNonceSize, authTagSize] at hlen
    simp only [hserver, List.drop_succ_cons, List.drop_zero, List.length_take, authNonceSize]
    omega
  have hsplit : challenge.payload =
      status :: (serverNonce ++ deviceProofOf psk nonce serverNonce) := by
    rw [hpay, ← hproved]
    simp [hserver, Nat.add_comm 1]
  refine Task.Spec.bind ((requestUnprotected_cautious
    (v := { u with sessionKey := some (sessionKeyOf psk nonce serverNonce) })
    (F := fun trace => Standing psk asked calls
        { u with sessionKey := some (sessionKeyOf psk nonce serverNonce) } trace ∧
      Vouched psk nonce serverNonce trace)
    (n := u.sequence + 1) (by simp [hl, authNonceSize, protocolMaxPayload]) (fun _ h => h.1)
    fun trace h => ⟨h.1.sent (.proof h.2) (.inr hu), h.2.sent (opens_proof hl)⟩).consequence ?_
    (fun _ _ _ h => h) ?_) fun response => ?_
  · rintro t s ⟨t₁, rfl, ⟨rfl, before, h, hs⟩, -⟩
    refine ⟨rfl, ?_, hs ▸ .answered hl hl' hc.1 hsplit⟩
    exact hs ▸ (h.exchanged (.challenge hl) (.inr hu) challenge).unauthenticated hu
  · rintro e t s ⟨rfl, h, -⟩
    exact h.at _
  have hend : ∀ (t : HostState β) (s : σ × List (Spoken (Packet β))),
      (t = HostState.at { u with sessionKey := some (sessionKeyOf psk nonce serverNonce) }
          (u.sequence + 1 + 1) ∧
        ∃ before, (Standing psk asked calls
            { u with sessionKey := some (sessionKeyOf psk nonce serverNonce) } before ∧
          Vouched psk nonce serverNonce before) ∧
        s.2 = before ++ [.sent (frame .auth (u.sequence + 1 + 1)
          (nonce ++ authProofOf psk nonce serverNonce)), .received response]) →
      t.sessionKey = some (sessionKeyOf psk nonce serverNonce) ∧ t.authenticated = false ∧
        Standing psk asked calls t s.2 ∧ Vouched psk nonce serverNonce s.2 := by
    rintro t s ⟨rfl, before, ⟨h, hv⟩, hs⟩
    exact ⟨rfl, hu, hs ▸ (h.exchanged (.proof hv) (.inr hu) response).at _,
      hs ▸ hv.exchanged (opens_proof hl) response⟩
  refine Task.Spec.bind (ensureAck_spec fun _ t s h _ => (hend t s h).2.2.1) fun _ =>
    Task.Spec.update ?_
  rintro t s ⟨h, -⟩
  obtain ⟨hk, -, hstand, hv⟩ := hend t s h
  exact ⟨rfl, hstand.lawful, hstand.performed, fun _ => ⟨nonce, serverNonce, hk, hv⟩⟩

/-! ## Calls -/

/-- The calls that a session protects. -/
def protectedCall (c : Command) (payload : List β) : List (Command × List β) :=
  if c.isProtected then [(c, payload)] else []

omit [Alphabet β] in
theorem guards_eq (hkey : cfg.authKey = some psk) : cfg.guards c = c.isProtected := by
  simp [HostConfig.guards, hkey]

/-- A protected call that is asked for, or a question that carries nothing. -/
def Proper (asked : Command → List β → Prop) (c : Command) (payload : List β) : Prop :=
  c.isProtected = true ∧ asked c payload ∨ (c = .ping ∨ c = .getInfo) ∧ payload = []

/-- One pass of `request`, with a session if the command needs one. -/
theorem requestOnce_cautious (hkey : cfg.authKey = some psk) (hc : Proper asked c payload)
    (u : HostState β) (hu : c.isProtected = true → u.authenticated = true)
    {again : Option (HostTask β (Packet β))}
    (hagain : ∀ task, again = some task →
      Cautious E psk asked (fun t trace => Standing psk asked calls t trace) task
        (fun r t trace => Standing psk asked calls t trace ∧
          (c.isProtected = true → Obtained psk calls c payload r trace))
        (fun _ t trace => Standing psk asked calls t trace)) :
    Cautious E psk asked (fun t trace => t = u ∧ Standing psk asked calls u trace)
      (requestOnce cfg c payload again)
      (fun r t trace => Standing psk asked calls t trace ∧
        (c.isProtected = true → Obtained psk calls c payload r trace))
      (fun _ t trace => Standing psk asked calls t trace) := by
  have hg : cfg.guards c = c.isProtected := guards_eq hkey
  by_cases hlen : payload.length + (if cfg.guards c then 16 else 0) ≤ protocolMaxPayload
  swap
  · exact (requestOnce_tooLarge u (n := u.sequence)
      (B := fun s : σ × List (Spoken (Packet β)) => Standing psk asked calls u s.2) (by omega)
      fun _ _ h => h.at _).pre fun _ _ h => h
  -- The packet may be sent, again and again.
  have hpacket : ∀ n (trace : List (Spoken (Packet β))), Standing psk asked calls u trace →
      Permitted psk asked trace (callPacket cfg u c n payload) ∧
        (callPacket cfg u c n payload).opens = false := by
    intro n trace h
    rcases hc with ⟨hp, ha⟩ | ⟨hq, rfl⟩
    · obtain ⟨cn, sn, hk, hv⟩ := h.keyed (hu hp)
      have : callPacket cfg u c n payload =
          frame c n (payload ++ requestTag (sessionKeyOf psk cn sn) c.code n payload) := by
        simp [callPacket, HostConfig.tagFor, hg, hp, hk]
      rw [this]
      exact ⟨.guarded hp ha hv, opens_frame (by rintro rfl; cases hp)⟩
    · have hp : c.isProtected = false := by rcases hq with rfl | rfl <;> rfl
      have : callPacket cfg u c n [] = frame c n [] := by
        simp [callPacket, HostConfig.tagFor, hg, hp]
      rw [this]
      exact ⟨.query hq, opens_frame (by rcases hq with rfl | rfl <;> decide)⟩
  have hexchanged : ∀ n (r : Packet β) (trace : List (Spoken (Packet β))),
      (∃ before, Standing psk asked calls u before ∧
        trace = before ++ [.sent (callPacket cfg u c n payload), .received r]) →
      Standing psk asked calls u trace := by
    rintro n r _ ⟨before, h, rfl⟩
    exact h.exchanged (hpacket n before h).1 (.inl (hpacket n before h).2) r
  refine requestOnce_rule u (n := u.sequence)
    (B := fun s : σ × List (Spoken (Packet β)) => Standing psk asked calls u s.2)
    (A := fun r s => ∃ before, Standing psk asked calls u before ∧
      s.2 = before ++ [.sent (callPacket cfg u c (u.sequence + 1) payload), .received r])
    hlen (fun _ _ s h => h.at _) (fun _ => ?_)
    (fun _ _ r s h _ _ => (hexchanged _ r _ h).at _) (fun task ht r _ _ => ?_) ?_
  · refine (requestPacket_cautious (v := u.at (u.sequence + 1)) (F := Standing psk asked calls u)
      (fun _ h => h.at _) fun trace h => h.sent (hpacket _ trace h).1
        (.inl (hpacket _ trace h).2)).consequence (fun _ _ h => h) (fun _ _ _ h => h) ?_
    rintro e t s ⟨rfl, h⟩
    exact h.at _
  · refine (hagain task ht).pre ?_
    rintro t s ⟨rfl, h⟩
    exact (hexchanged _ r _ h).at _
  · rintro r t s ht h hv
    have hstand : Standing psk asked calls t s.2 := by
      rcases ht with rfl | ⟨-, rfl⟩
      · exact (hexchanged _ r _ h).at _
      · exact (hexchanged _ r _ h).unauthenticated rfl
    refine ⟨hstand, fun hp => ?_⟩
    obtain ⟨before, hbefore, hs⟩ := h
    obtain ⟨cn, sn, hk, hvouched⟩ := hbefore.keyed (hu hp)
    obtain ⟨key, hkey', hpay⟩ := hv (hg.trans hp)
    obtain rfl : sessionKeyOf psk cn sn = key := by
      rw [hk] at hkey'
      exact Option.some.inj hkey'
    refine ⟨before, u.sequence + 1, cn, sn, r, hbefore.performed, hvouched, ?_, ?_, hpay⟩
    · rw [hs]
      simp [callPacket, HostConfig.tagFor, hg, hp, hk]
    · simp [HostConfig.strip, hg, hp]

/-- `OtaLinkClient.request`. -/
theorem request_cautious (hkey : cfg.authKey = some psk) (hc : Proper asked c payload) :
    Cautious E psk asked (fun t trace => Standing psk asked calls t trace) (request cfg c payload)
      (fun r t trace => Standing psk asked calls t trace ∧
        (c.isProtected = true → Obtained psk calls c payload r trace))
      (fun _ t trace => Standing psk asked calls t trace) := by
  have hauthenticate : Cautious E psk asked (fun t trace => Standing psk asked calls t trace)
      (authenticate cfg)
      (fun _ t trace => t.authenticated = true ∧ Standing psk asked calls t trace)
      (fun _ t trace => Standing psk asked calls t trace) :=
    fun t s h => authenticate_cautious hkey t t s ⟨rfl, h⟩
  unfold request
  refine Task.Spec.bind (R := fun _ t s => (c.isProtected = true → t.authenticated = true) ∧
    Standing psk asked calls t s.2) ?_ fun _ => ?_
  · unfold authenticateFor
    rw [guards_eq hkey]
    refine Task.Spec.ite (fun _ => ?_)
      (fun hp => Task.Spec.pure fun t s h => ⟨fun h => absurd h hp, h⟩)
    exact hauthenticate.consequence (fun _ _ h => h) (fun _ _ _ h => ⟨fun _ => h.1, h.2⟩)
      fun _ _ _ h => h
  rintro t s ⟨ht, h⟩
  refine requestOnce_cautious hkey hc t ht ?_ t s ⟨rfl, h⟩
  rintro task ⟨⟩
  -- Once more with a new session.
  refine Task.Spec.bind (R := fun _ t s => Standing psk asked calls t s.2) ?_ fun _ => ?_
  · refine clearAuthentication_spec.consequence (fun _ _ h => h) ?_ (fun _ _ _ h => h)
    rintro _ t s ⟨t₀, h, rfl⟩
    exact h.unauthenticated rfl
  refine Task.Spec.bind hauthenticate fun _ => ?_
  rintro t s ⟨ha, h⟩
  exact @requestOnce_cautious β _ σ E psk asked calls cfg c payload hkey hc t (fun _ => ha) none
    (fun _ h => by cases h) t s ⟨rfl, h⟩

/-- A command that reports success has been acknowledged. -/
theorem runCommand_cautious (hkey : cfg.authKey = some psk) (hc : Proper asked c payload)
    (x : Context) : Cautious E psk asked (fun t trace => Standing psk asked calls t trace)
      (runCommand cfg c payload x)
      (fun _ t trace => Standing psk asked (calls ++ protectedCall c payload) t trace)
      (fun _ t trace => Standing psk asked calls t trace) := by
  refine Task.Spec.bind (Task.Spec.handle (request_cautious hkey hc) fun e => ?_) fun r => ?_
  · cases e <;> exact Task.Spec.raise fun _ _ h => h
  · refine (ensureAck_acknowledges r x).consequence (fun _ _ h => h) ?_ fun _ _ _ h => h.1
    rintro _ t s ⟨⟨h, hanswered⟩, hr⟩
    refine ⟨h.lawful, ?_, h.keyed⟩
    cases hp : c.isProtected with
    | true =>
      rw [protectedCall, if_pos hp]
      exact (hanswered hp).performed hr
    | false => simpa [protectedCall, hp] using h.performed

end Client

end OtaLink
