import OtaLink.Belongs

/-!
# Sequence numbers that come round again

The counter of the client counts every packet, the replay cache of the device only the
responses to protected requests. What connects the two is the order of the link: when a
protected call is answered, every packet of an earlier call has left the link, and the response
to this call is in the cache behind those to the earlier ones. So once a protected call has been
answered nothing on the link has an older number, and once eight have been answered nothing in
the cache has.

## Main definitions

* `CallRecord` — a call the client has made.
* `answeredSince` — how many protected calls have been answered since one of these.
* `Renewed` — a number has not been used for so long that it is new again.
* `Accounted` — whatever is on the link and in the cache comes from recent calls.
* `Accounted.unaliased` — then nothing is left under a renewed number.
-/

namespace OtaLink
open Lib

variable {β : Type} [Alphabet β]

/-! ## The calls of a client -/

/-- A call of `request`: its command, its first sequence number, whether the client has
authenticated again in it, and whether it has returned a response. -/
structure CallRecord where
  command : Command
  first : UInt16
  again : Bool
  answered : Bool

/-- The call may have sent packets under this number. A call that authenticates again uses four
numbers at most: of the request, of the two packets of the handshake, of the new request. -/
def CallRecord.uses (r : CallRecord) (n : UInt16) : Bool :=
  n == r.first || r.again && decide (n - r.first ≤ 3)

/-- The call may have sent requests of this command under this number. -/
def CallRecord.usesFor (r : CallRecord) (command : UInt8) (n : UInt16) : Bool :=
  r.command.code == command && r.uses n

/-- The call is a protected one whose request has been answered. -/
def CallRecord.ages (r : CallRecord) : Bool := r.command.isProtected && r.answered && !r.again

/-- How many protected calls of the log, newest first, have been answered since the last call
that satisfies `p`. -/
def answeredSince (log : List CallRecord) (p : CallRecord → Bool) : ℕ :=
  (log.takeWhile fun r => !p r).countP CallRecord.ages

/-- A call of the log satisfies `p`, or `base` was there before, and at most `k` protected calls
have been answered since. -/
def Within (log : List CallRecord) (p : CallRecord → Bool) (base : Prop) (k : ℕ) : Prop :=
  ((∃ r ∈ log, p r = true) ∨ base) ∧ answeredSince log p ≤ k

section Within
variable {log : List CallRecord} {p : CallRecord → Bool} {base : Prop} {k j : ℕ} {r : CallRecord}

@[simp] theorem answeredSince_nil : answeredSince [] p = 0 := rfl

theorem answeredSince_cons : answeredSince (r :: log) p =
    if p r then 0 else answeredSince log p + if r.ages then 1 else 0 := by
  cases hp : p r <;> simp [answeredSince, hp, List.countP_cons]

theorem within_nil (h : base) (k : ℕ) : Within [] p base k := ⟨.inr h, by simp⟩

/-- The newest call satisfies `p`. -/
theorem within_cons (h : p r = true) : Within (r :: log) p base k :=
  ⟨.inl ⟨r, List.mem_cons_self, h⟩, by simp [answeredSince_cons, h]⟩

theorem Within.mono (h : Within log p base k) (hk : k ≤ j) : Within log p base j :=
  ⟨h.1, h.2.trans hk⟩

/-- One more call is at most one more answered call. -/
theorem Within.cons (h : Within log p base k) (hk : (if r.ages then k + 1 else k) ≤ j) :
    Within (r :: log) p base j := by
  obtain ⟨hsome, hle⟩ := h
  refine ⟨hsome.imp_left fun ⟨x, hx, hp⟩ => ⟨x, List.mem_cons_of_mem _ hx, hp⟩, ?_⟩
  rw [answeredSince_cons]
  split
  · exact Nat.zero_le j
  · split at hk <;> simp_all <;> omega

end Within

/-! ## What is left of earlier calls -/

/-- A packet under this number is on the link. -/
def InTransit (L : Link (Packet β) (World β)) (n : UInt16) : Prop :=
  (∃ q ∈ L.requests, q.sequence = n) ∨ ∃ q ∈ L.replies, q.response.sequence = n

/-- A request under this command and number, or the response to one, is on its way to the
device or stored there. -/
def AtDevice (L : Link (Packet β) (World β)) (command : UInt8) (n : UInt16) : Prop :=
  (∃ q ∈ L.requests, q.command = command ∧ q.sequence = n) ∨
    ∃ e ∈ L.server.device.auth.replayCache.entries, e.requestCommand = command ∧ e.sequence = n

/-- The number is new to the link and the command and number to the cache: since the number was
last used, for any command, a protected call has been answered, and since it was last used for
this command, eight have been. What was there at the start `L₀` counts as used. -/
structure Renewed (L₀ : Link (Packet β) (World β)) (log : List CallRecord) (c : Command)
    (n : UInt16) : Prop where
  link : (∃ r ∈ log, r.uses n = true) ∨ InTransit L₀ n → 1 ≤ answeredSince log (·.uses n)
  cache : (∃ r ∈ log, r.usesFor c.code n = true) ∨ AtDevice L₀ c.code n →
    authReplayCacheSize ≤ answeredSince log (·.usesFor c.code n)

/-- Whatever is on the link and in the cache comes from a call of the log, or was there at the
start `L₀`, or has one of the numbers `S` of a call of `c` that is under way. What is on the link
is from the last answered call at the latest, and an entry of the cache is at least as old as the
number of calls answered since. -/
structure Accounted (L₀ : Link (Packet β) (World β)) (log : List CallRecord) (c : Command)
    (S : UInt16 → Prop) (L : Link (Packet β) (World β)) : Prop where
  required : L.server.device.auth.required = true
  idle : L.server.device.auth.authenticated = false →
    L.server.device.auth.replayCache.History []
  requests : ∀ q ∈ L.requests,
    S q.sequence ∨ Within log (·.uses q.sequence) (InTransit L₀ q.sequence) 0
  guarded : ∀ q ∈ L.requests, q.isGuarded = true → (q.command = c.code ∧ S q.sequence) ∨
    Within log (·.usesFor q.command q.sequence) (AtDevice L₀ q.command q.sequence) 0
  replies : ∀ q ∈ L.replies, S q.response.sequence ∨
    Within log (·.uses q.response.sequence) (InTransit L₀ q.response.sequence) 0
  entries : ∀ k e, L.server.device.auth.replayCache.ago k = some e →
    (e.requestCommand = c.code ∧ S e.sequence) ∨
      Within log (·.usesFor e.requestCommand e.sequence)
        (AtDevice L₀ e.requestCommand e.sequence) k

/-- No number is in use. -/
def unused (_ : UInt16) : Prop := False

section Accounted
variable {L₀ L L' : Link (Packet β) (World β)} {log : List CallRecord} {c : Command}
  {S : UInt16 → Prop} {n : UInt16}

omit [Alphabet β] in
/-- **Nothing is left under a renewed number.** -/
theorem Accounted.unaliased (h : Accounted L₀ log c unused L) (hs : Renewed L₀ log c n) :
    Unaliased c n L where
  entries := by
    rintro e he ⟨hcommand, rfl⟩
    obtain ⟨k, hk, hago⟩ := Ring.mem_entries_iff_ago.mp he
    obtain ⟨hused, hle⟩ := (h.entries k e hago).resolve_left fun h => h.2
    rw [hcommand] at hused hle
    have := hs.cache hused
    simp only [authReplayCacheSize] at this
    omega
  requests := by
    rintro q hq rfl
    obtain ⟨hused, hle⟩ := (h.requests q hq).resolve_left id
    have := hs.link hused
    omega
  replies := by
    rintro q hq rfl
    obtain ⟨hused, hle⟩ := (h.replies q hq).resolve_left id
    have := hs.link hused
    omega

omit [Alphabet β] in
/-- What has one of these numbers may have one of those. -/
theorem Accounted.mono (h : Accounted L₀ log c S L) {S' : UInt16 → Prop} (hS : ∀ n, S n → S' n) :
    Accounted L₀ log c S' L where
  required := h.required
  idle := h.idle
  requests q hq := (h.requests q hq).imp_left (hS _)
  guarded q hq hg := (h.guarded q hq hg).imp_left fun h => ⟨h.1, hS _ h.2⟩
  replies q hq := (h.replies q hq).imp_left (hS _)
  entries k e he := (h.entries k e he).imp_left fun h => ⟨h.1, hS _ h.2⟩

/-- The entries of the cache after a packet, with their ages. -/
theorem ago_of_authStep {d : Device β} {q : Packet β} {s : AuthState β} (h : AuthStep d q s)
    {k : ℕ} {e : ReplayEntry β} (he : s.replayCache.ago k = some e) :
    (d.auth.stores q = false ∧ d.auth.replayCache.ago k = some e) ∨
      (d.auth.stores q = true ∧ ((k = 0 ∧ e.requestCommand = q.command ∧ e.sequence = q.sequence) ∨
        ∃ j, k = j + 1 ∧ d.auth.replayCache.ago j = some e)) := by
  cases h with
  | same hs => exact .inl ⟨hs, he⟩
  | proved _ hg => exact .inl ⟨by simp [AuthState.stores, hg], he⟩
  | challenged | restarted => simp [AuthState.challenged, Device.restarted, AuthState.cleared] at he
  | stored error hs =>
    refine .inr ⟨hs, ?_⟩
    have hk := Ring.lt_of_ago he
    cases k with
    | zero =>
      rw [Ring.ago_insert_zero, Option.some.injEq] at he
      exact .inl ⟨rfl, he ▸ rfl, he ▸ rfl⟩
    | succ k =>
      rw [Ring.ago_insert_succ hk] at he
      exact .inr ⟨k, rfl, he⟩

theorem guarded_of_stores {s : AuthState β} {q : Packet β} (h : s.stores q = true) :
    q.isGuarded = true := by
  simp only [AuthState.stores, Bool.and_eq_true] at h
  exact h.1.1.1

/-- **A move of the link** leaves everything accounted for. -/
theorem Accounted.move (h : Accounted L₀ log c S L)
    (hmove : Link.Move (deviceServer true fun _ => true) (.free _ _) L L') :
    Accounted L₀ log c S L' := by
  cases hmove with
  | @deliver q rest replies n w r w' _ hs =>
    have hseq := sequence_of_serves hs
    obtain ⟨esp, -, -, rfl⟩ := serves_iff.mp hs
    have hauth := step_auth w.device esp q
    refine ⟨(required_step w.device esp q).trans h.required, fun hn => hauth.history_nil h.idle hn,
      fun x hx => h.requests x (List.mem_cons_of_mem _ hx),
      fun x hx => h.guarded x (List.mem_cons_of_mem _ hx), fun x hx => ?_, fun k e he => ?_⟩
    · rcases List.mem_append.mp hx with hx | hx
      · exact h.replies x hx
      · rw [List.mem_singleton.mp hx]
        dsimp only
        rw [hseq]
        exact h.requests q List.mem_cons_self
    · rcases ago_of_authStep hauth he with ⟨-, hold⟩ | ⟨hstores, ⟨rfl, hc, hn⟩ | ⟨j, rfl, hold⟩⟩
      · exact h.entries k e hold
      · rw [hc, hn]
        exact h.guarded q List.mem_cons_self (guarded_of_stores hstores)
      · exact (h.entries j e hold).imp_right fun h => h.mono (Nat.le_succ j)
  | @loseRequest as q bs =>
    have hsub := ((List.sublist_cons_self q bs).append_left as).subset
    exact ⟨h.required, h.idle, fun x hx => h.requests x (hsub hx),
      fun x hx => h.guarded x (hsub hx), h.replies, h.entries⟩
  | @loseReply _ as r bs =>
    have hsub := ((List.sublist_cons_self r bs).append_left as).subset
    exact ⟨h.required, h.idle, h.requests, h.guarded, fun x hx => h.replies x (hsub hx), h.entries⟩
  | tick ht =>
    obtain ⟨-, rfl⟩ := tick_iff.mp ht
    refine ⟨h.required, fun _ => Ring.history_empty, h.requests, h.guarded, h.replies,
      fun k e he => ?_⟩
    simp [World.reset, Device.restarted, AuthState.cleared] at he

/-- A packet of a call of `c` under one of the numbers. -/
def CallsOwn (c : Command) (S : UInt16 → Prop) (q : Packet β) : Prop :=
  S q.sequence ∧ (q.isGuarded = true → q.command = c.code)

/-- The packets of the call under way leave everything accounted for. -/
theorem carried_accounted : Carried (CallsOwn c S) (Accounted L₀ log c S) where
  move hmove h := h.move hmove
  send {L q} hq h := by
    refine ⟨h.required, h.idle, fun x hx => ?_, fun x hx hg => ?_, h.replies, h.entries⟩
    · rcases List.mem_append.mp hx with hx | hx
      · exact h.requests x hx
      · obtain rfl := List.mem_singleton.mp hx
        exact .inl hq.1
    · rcases List.mem_append.mp hx with hx | hx
      · exact h.guarded x hx hg
      · obtain rfl := List.mem_singleton.mp hx
        exact .inl ⟨hq.2 hg, hq.1⟩
  read {L accept r L'} hread h := by
    cases hread with
    | answer => exact ⟨h.required, h.idle, h.requests, h.guarded,
        fun x hx => h.replies x (by simp_all), h.entries⟩
    | expire => exact ⟨h.required, h.idle, h.requests, h.guarded,
        fun x hx => h.replies x (by simp_all), h.entries⟩

omit [Alphabet β] in
/-- After a call that does not age the others, what has its numbers is accounted for by it. -/
theorem Accounted.cons (h : Accounted L₀ log c S L) {r : CallRecord} (hr : r.command = c)
    (hS : ∀ n, S n → r.uses n = true) (hages : r.ages = false) :
    Accounted L₀ (r :: log) c unused L := by
  have hfor : ∀ {x n}, x = c.code ∧ S n → r.usesFor x n = true := by
    rintro x n ⟨rfl, hn⟩
    simp [CallRecord.usesFor, hr, hS n hn]
  have hcons : ∀ {p : CallRecord → Bool} {base : Prop} {k : ℕ}, Within log p base k →
      Within (r :: log) p base k := fun hw => hw.cons (by simp [hages])
  exact ⟨h.required, h.idle,
    fun q hq => .inr ((h.requests q hq).elim (fun hs => within_cons (hS _ hs)) hcons),
    fun q hq hg => .inr ((h.guarded q hq hg).elim (fun hs => within_cons (hfor hs)) hcons),
    fun q hq => .inr ((h.replies q hq).elim (fun hs => within_cons (hS _ hs)) hcons),
    fun k e he => .inr ((h.entries k e he).elim (fun hs => within_cons (hfor hs)) hcons)⟩

omit [Alphabet β] in
/-- Between calls the command does not matter. -/
theorem Accounted.between (h : Accounted L₀ log c unused L) (c' : Command) (S' : UInt16 → Prop) :
    Accounted L₀ log c' S' L :=
  ⟨h.required, h.idle, fun q hq => .inr ((h.requests q hq).resolve_left id),
    fun q hq hg => .inr ((h.guarded q hq hg).resolve_left fun h => h.2),
    fun q hq => .inr ((h.replies q hq).resolve_left id),
    fun k e he => .inr ((h.entries k e he).resolve_left fun h => h.2)⟩

end Accounted

/-! ## A protected call -/

/-- The device has stored a response to `m` behind those to all earlier requests, which have left
the link. -/
structure Aged (L₀ : Link (Packet β) (World β)) (log : List CallRecord) (m : Packet β)
    (L : Link (Packet β) (World β)) : Prop where
  requests : ∀ q ∈ L.requests, q.sequence = m.sequence
  entries : ∀ k e, L.server.device.auth.replayCache.ago k = some e →
    (e.requestCommand = m.command ∧ e.sequence = m.sequence) ∨
      ∃ j, k = j + 1 ∧ Within log (·.usesFor e.requestCommand e.sequence)
        (AtDevice L₀ e.requestCommand e.sequence) j

/-- `m` is on its way, behind the packets of earlier calls; once it is answered or stored, these
are behind it. -/
structure Passing (L₀ : Link (Packet β) (World β)) (log : List CallRecord) (c : Command)
    (m : Packet β) (L : Link (Packet β) (World β)) : Prop where
  accounted : Accounted L₀ log c (· = m.sequence) L
  own : ∀ q ∈ L.requests, q.sequence = m.sequence → q = m
  requests : L.requests.Pairwise fun p q => p.sequence = m.sequence → q.sequence = m.sequence
  replies : L.replies.Pairwise fun p q =>
    p.response.sequence = m.sequence → q.response.sequence = m.sequence
  answered : ∀ q ∈ L.replies, q.response.sequence = m.sequence → Aged L₀ log m L
  stored : ∀ e ∈ L.server.device.auth.replayCache.entries, e.requestCommand = m.command →
    e.sequence = m.sequence → Aged L₀ log m L

/-- The client has read the response to `m`: only packets under its number are left. -/
structure Flushed (L₀ : Link (Packet β) (World β)) (log : List CallRecord) (c : Command)
    (m : Packet β) (L : Link (Packet β) (World β)) : Prop where
  passing : Passing L₀ log c m L
  aged : Aged L₀ log m L
  replies : ∀ q ∈ L.replies, q.response.sequence = m.sequence

section Passing
variable {L₀ L L' : Link (Packet β) (World β)} {log : List CallRecord} {c : Command}
  {m : Packet β}

/-- The response to `m` is stored in front of all older ones. -/
theorem Passing.serve (h : Passing L₀ log c m L) (hm : m.isGuarded = true)
    (hc : m.command = c.code) (esp : EspIdf β) (k : ℕ) (e : ReplayEntry β)
    (he : (L.server.device.step esp m).1.auth.replayCache.ago k = some e) :
    (e.requestCommand = m.command ∧ e.sequence = m.sequence) ∨
      ∃ j, k = j + 1 ∧ Within log (·.usesFor e.requestCommand e.sequence)
        (AtDevice L₀ e.requestCommand e.sequence) j := by
  rcases ago_of_authStep (step_auth L.server.device esp m) he with
    ⟨hstores, hold⟩ | ⟨-, ⟨-, hkey⟩ | ⟨j, rfl, hold⟩⟩
  · -- Nothing is stored: there is no session, or the response is there already.
    cases ha : L.server.device.auth.authenticated
    · have hnone := (h.accounted.idle ha).ago (Ring.lt_of_ago hold)
      rw [hold] at hnone
      cases hnone
    · simp only [AuthState.stores, hm, h.accounted.required, ha, Bool.and_self, Bool.true_and]
        at hstores
      cases hl : L.server.device.auth.lookup m with
      | duplicate entry =>
        obtain ⟨hmem, hcommand, hsequence, -⟩ := mem_of_duplicate hl
        exact (h.stored entry hmem hcommand hsequence).entries k e hold
      | _ => simp [hl] at hstores
  · exact .inl hkey
  · rcases h.accounted.entries j e hold with ⟨hcommand, hsequence⟩ | hwithin
    · exact .inl ⟨hcommand.trans hc.symm, hsequence⟩
    · exact .inr ⟨j, rfl, hwithin⟩

/-- What is in front of the older responses stays there. -/
theorem Passing.aged_move (h : Passing L₀ log c m L) (hm : m.isGuarded = true)
    (hc : m.command = c.code) (ha : Aged L₀ log m L)
    (hmove : Link.Move (deviceServer true fun _ => true) (.free _ _) L L') : Aged L₀ log m L' := by
  cases hmove with
  | @deliver q rest replies n w r w' _ hs =>
    obtain ⟨esp, -, -, rfl⟩ := serves_iff.mp hs
    obtain rfl := h.own q List.mem_cons_self (ha.requests q List.mem_cons_self)
    exact ⟨fun x hx => ha.requests x (List.mem_cons_of_mem _ hx), h.serve hm hc esp⟩
  | @loseRequest as q bs =>
    have hsub := ((List.sublist_cons_self q bs).append_left as).subset
    exact ⟨fun x hx => ha.requests x (hsub hx), ha.entries⟩
  | loseReply => exact ⟨ha.requests, ha.entries⟩
  | tick ht =>
    obtain ⟨-, rfl⟩ := tick_iff.mp ht
    refine ⟨ha.requests, fun k e he => ?_⟩
    simp [World.reset, Device.restarted, AuthState.cleared] at he

/-- **A move of the link** keeps the order. -/
theorem Passing.move (h : Passing L₀ log c m L) (hm : m.isGuarded = true)
    (hc : m.command = c.code)
    (hmove : Link.Move (deviceServer true fun _ => true) (.free _ _) L L') :
    Passing L₀ log c m L' := by
  have haccounted := h.accounted.move hmove
  have haged := fun ha => h.aged_move hm hc ha hmove
  cases hmove with
  | @deliver q rest replies n w r w' _ hs =>
    have hseq := sequence_of_serves hs
    obtain ⟨esp, -, -, rfl⟩ := serves_iff.mp hs
    obtain ⟨hfirst, hrest⟩ := List.pairwise_cons.mp h.requests
    have hown : ∀ x ∈ rest, x.sequence = m.sequence → x = m :=
      fun x hx => h.own x (List.mem_cons_of_mem _ hx)
    by_cases hq : q.sequence = m.sequence
    · obtain rfl := h.own q List.mem_cons_self hq
      have haged' : Aged L₀ log q
          ⟨rest, replies ++ [⟨q, r, w⟩], n, w.step esp q⟩ :=
        ⟨fun x hx => hfirst x hx rfl, h.serve hm hc esp⟩
      refine ⟨haccounted, hown, hrest, ?_, fun _ _ _ => haged', fun _ _ _ _ => haged'⟩
      refine List.pairwise_append.mpr ⟨h.replies, List.pairwise_singleton _ _, fun p _ x hx _ => ?_⟩
      rw [List.mem_singleton.mp hx]
      exact hseq
    · -- An older packet: neither a response to `m` nor an entry for it is there yet.
      have hnone : ∀ ha : Aged L₀ log m ⟨q :: rest, replies, n, w⟩, False :=
        fun ha => hq (ha.requests q List.mem_cons_self)
      refine ⟨haccounted, hown, hrest, ?_, fun x hx hxs => ?_, fun e he hcommand hsequence => ?_⟩
      · refine List.pairwise_append.mpr
          ⟨h.replies, List.pairwise_singleton _ _, fun p hp x _ hps => ?_⟩
        exact (hnone (h.answered p hp hps)).elim
      · rcases List.mem_append.mp hx with hx | hx
        · exact (hnone (h.answered x hx hxs)).elim
        · rw [List.mem_singleton.mp hx] at hxs
          exact absurd (hseq.symm.trans hxs) hq
      · obtain ⟨k, -, hago⟩ := Ring.mem_entries_iff_ago.mp he
        rcases ago_of_authStep (step_auth w.device esp q) hago with
          ⟨-, hold⟩ | ⟨-, ⟨-, -, hn⟩ | ⟨j, -, hold⟩⟩
        · exact (hnone (h.stored e (Ring.mem_entries_iff_ago.mpr
            ⟨k, Ring.lt_of_ago hold, hold⟩) hcommand hsequence)).elim
        · exact absurd (hn.symm.trans hsequence) hq
        · exact (hnone (h.stored e (Ring.mem_entries_iff_ago.mpr
            ⟨j, Ring.lt_of_ago hold, hold⟩) hcommand hsequence)).elim
  | @loseRequest as q bs =>
    have hsub := (List.sublist_cons_self q bs).append_left as
    exact ⟨haccounted, fun x hx => h.own x (hsub.subset hx), h.requests.sublist hsub, h.replies,
      fun x hx hxs => haged (h.answered x hx hxs),
      fun e he hcommand hsequence => haged (h.stored e he hcommand hsequence)⟩
  | @loseReply _ as r bs =>
    have hsub := (List.sublist_cons_self r bs).append_left as
    exact ⟨haccounted, h.own, h.requests, h.replies.sublist hsub,
      fun x hx hxs => haged (h.answered x (hsub.subset hx) hxs),
      fun e he hcommand hsequence => haged (h.stored e he hcommand hsequence)⟩
  | tick ht =>
    obtain ⟨-, rfl⟩ := tick_iff.mp ht
    refine ⟨haccounted, h.own, h.requests, h.replies,
      fun x hx hxs => haged (h.answered x hx hxs), fun e he => ?_⟩
    simp [World.reset, Device.restarted, AuthState.cleared] at he

/-- The client sends `m`, again. -/
theorem Passing.send (h : Passing L₀ log c m L) (hc : m.command = c.code) :
    Passing L₀ log c m { L with requests := L.requests ++ [m] } := by
  have haged : Aged L₀ log m L → Aged L₀ log m { L with requests := L.requests ++ [m] } := by
    refine fun ha => ⟨fun x hx => ?_, ha.entries⟩
    rcases List.mem_append.mp hx with hx | hx
    · exact ha.requests x hx
    · rw [List.mem_singleton.mp hx]
  refine ⟨carried_accounted.send ⟨rfl, fun _ => hc⟩ h.accounted, fun x hx hxs => ?_, ?_, h.replies,
    fun x hx hxs => haged (h.answered x hx hxs),
    fun e he hcommand hsequence => haged (h.stored e he hcommand hsequence)⟩
  · rcases List.mem_append.mp hx with hx | hx
    · exact h.own x hx hxs
    · exact List.mem_singleton.mp hx
  · refine List.pairwise_append.mpr ⟨h.requests, List.pairwise_singleton _ _, fun p _ x hx _ => ?_⟩
    rw [List.mem_singleton.mp hx]

/-- **Reading the response to `m`** leaves nothing of earlier calls on the link. -/
theorem Passing.read (h : Passing L₀ log c m L) {r : Option (Packet β)}
    (hread : Link.Read (.free _ _) (fun r => r.sequence == m.sequence) L r L') :
    Passing L₀ log c m L' ∧ ∀ r', r = some r' → Flushed L₀ log c m L' := by
  have haccounted := carried_accounted.read hread h.accounted
  cases hread with
  | @answer requests pre q post k w _ hq _ =>
    have hqs : q.response.sequence = m.sequence := eq_of_beq hq
    obtain ⟨hfirst, hpost⟩ := List.pairwise_cons.mp (List.pairwise_append.mp h.replies).2.1
    have haged : Aged L₀ log m ⟨requests, post, 0, w⟩ :=
      let ha := h.answered q (by simp) hqs
      ⟨ha.requests, ha.entries⟩
    have hpassing : Passing L₀ log c m ⟨requests, post, 0, w⟩ :=
      ⟨haccounted, h.own, h.requests, hpost, fun _ _ _ => haged, fun _ _ _ _ => haged⟩
    exact ⟨hpassing, fun _ _ => ⟨hpassing, haged, fun x hx => hfirst x hx hqs⟩⟩
  | @expire requests pre post k w _ _ =>
    have haged : Aged L₀ log m ⟨requests, pre ++ post, k, w⟩ →
        Aged L₀ log m ⟨requests, post, k + 1, w⟩ := fun ha => ⟨ha.requests, ha.entries⟩
    exact ⟨⟨haccounted, h.own, h.requests, (List.pairwise_append.mp h.replies).2.1,
      fun x hx hxs => haged (h.answered x (List.mem_append_right _ hx) hxs),
      fun e he hcommand hsequence => haged (h.stored e he hcommand hsequence)⟩,
      fun _ hr => by cases hr⟩

omit [Alphabet β] in
/-- After an answered call everything older has aged. -/
theorem Flushed.accounted (h : Flushed L₀ log c m L) (hm : m.isGuarded = true)
    (hc : m.command = c.code) {r : CallRecord} (hr : r.command = c)
    (hn : r.uses m.sequence = true) : Accounted L₀ (r :: log) c unused L := by
  have hfor : r.usesFor m.command m.sequence = true := by simp [CallRecord.usesFor, hr, hc, hn]
  have hp := h.passing.accounted
  refine ⟨hp.required, hp.idle, fun q hq => .inr ?_, fun q hq hg => .inr ?_, fun q hq => .inr ?_,
    fun k e he => .inr ?_⟩
  · rw [h.aged.requests q hq]
    exact within_cons hn
  · obtain rfl := h.passing.own q hq (h.aged.requests q hq)
    exact within_cons hfor
  · rw [h.replies q hq]
    exact within_cons hn
  · rcases h.aged.entries k e he with ⟨hcommand, hsequence⟩ | ⟨j, rfl, hwithin⟩
    · rw [hcommand, hsequence]
      exact within_cons hfor
    · refine hwithin.cons ?_
      split <;> omega

omit [Alphabet β] in
/-- A call of `c` begins where nothing has its command and number. -/
theorem Accounted.passing (h : Accounted L₀ log c unused L) {n : UInt16} (hu : Unaliased c n L)
    (hc : m.command = c.code) (hn : m.sequence = n) : Passing L₀ log c m L where
  accounted := h.between c _
  own q hq hs := absurd (hs.trans hn) (hu.requests q hq)
  requests := List.pairwise_of_forall_mem_list fun p hp _ _ hs =>
    absurd (hs.trans hn) (hu.requests p hp)
  replies := List.pairwise_of_forall_mem_list fun p hp _ _ hs =>
    absurd (hs.trans hn) (hu.replies p hp)
  answered q hq hs := absurd (hs.trans hn) (hu.replies q hq)
  stored e he hcommand hs := absurd ⟨hcommand.trans hc, hs.trans hn⟩ (hu.entries e he)

end Passing

/-! ## One more call -/

/-- The record of a call that the client has made from `t` and that has left it as `t'`. -/
def HostState.record (t t' : HostState β) (c : Command) (answered : Bool) : CallRecord :=
  ⟨c, t.sequence + 1, t'.sequence != t.sequence + 1, answered⟩

section Call
variable {cfg : HostConfig β} {u : HostState β} {c : Command} {payload key : List β}
  {L₀ : Link (Packet β) (World β)} {log : List CallRecord}

omit [Alphabet β] in
theorem uses_record (t' : HostState β) (answered : Bool) :
    (u.record t' c answered).uses (u.sequence + 1) = true := by
  simp [CallRecord.uses, HostState.record]

omit [Alphabet β] in
/-- A call that authenticates again may use any of the four numbers, and ages nothing. -/
theorem record_again {t' : HostState β} (h : t'.sequence ≠ u.sequence + 1) (answered : Bool) :
    (u.record t' c answered).ages = false ∧
      ∀ n, n - (u.sequence + 1) ≤ 3 → (u.record t' c answered).uses n = true := by
  refine ⟨by simp [CallRecord.ages, HostState.record, h], fun n hn => ?_⟩
  simp [CallRecord.uses, HostState.record, h, hn]

/-- The other numbers of a call that authenticates again. -/
theorem sub_le_three (n : UInt16) : n - n ≤ 3 ∧ n + 1 - n ≤ 3 ∧ n + 1 + 1 - n ≤ 3 ∧
    n + 1 + 1 + 1 - n ≤ 3 := by
  refine ⟨?_, ?_, ?_, ?_⟩ <;> grind

/-- **A protected call** leaves everything accounted for, with its own record. -/
theorem request_accounted (hg : cfg.guards c = true) (ha : u.authenticated = true)
    (hk : u.sessionKey = some key) {m : Packet β} (hm : m = tagged key c (u.sequence + 1) payload) :
    Task.Spec lossyEnv (fun _ => True) (fun t L => t = u ∧ Passing L₀ log c m L)
      (request cfg c payload)
      (fun _ t L => Accounted L₀ (u.record t c true :: log) c unused L)
      (fun _ t L => Accounted L₀ (u.record t c false :: log) c unused L) := by
  have hn : m.sequence = u.sequence + 1 := by rw [hm]; rfl
  have hcode : m.command = c.code := by rw [hm]; rfl
  obtain ⟨hkey, hp⟩ : cfg.authKey ≠ none ∧ c.isProtected = true := by
    simpa only [HostConfig.guards, Bool.and_eq_true, Option.isSome_iff_ne_none] using hg
  have hguarded : m.isGuarded = true := by
    simp [Packet.isGuarded, hcode, hp, show m.version = protocolVersion by rw [hm]; rfl]
  have hcall : callPacket cfg u c (u.sequence + 1) payload = m := by
    rw [callPacket_guarded hg hk, hm]
  -- A call that is not answered has used one number.
  have hfailed : ∀ L, Passing L₀ log c m L →
      Accounted L₀ (u.record (u.at (u.sequence + 1)) c false :: log) c unused L := fun L h =>
    h.accounted.cons rfl (fun x hx => by rw [hx, hn]; exact uses_record _ _)
      (by simp [CallRecord.ages, HostState.record])
  unfold request authenticateFor
  rw [if_pos hg]
  refine Task.Spec.bind (R := fun _ t L => t = u.at u.sequence ∧ Passing L₀ log c m L) ?_
    fun _ => ?_
  · exact (authenticate_authenticated ha).consequence (fun _ _ h => h)
      (fun _ _ _ h => h) fun _ _ _ h => h.elim
  by_cases hl : payload.length + (if cfg.guards c then 16 else 0) ≤ protocolMaxPayload
  swap
  · exact requestOnce_tooLarge u (by omega) fun _ L h => hfailed L h
  refine requestOnce_rule u (A := fun _ L => Flushed L₀ log c m L) hl ?_ ?_ ?_ ?_ ?_
  · intro _ hnone
    rw [hk] at hnone
    cases hnone
  · intro _
    rw [hcall]
    refine ((requestPacket_reads (K := fun t => t = u.at (u.sequence + 1))
      (R := fun _ L => Flushed L₀ log c m L) (fun _ _ hmove h => h.move hguarded hcode hmove)
      (fun _ h => h.send hcode) fun _ _ _ hread h => ⟨(h.read hread).1, ?_⟩).weaken
        fun _ _ => trivial).consequence (fun _ _ h => h) (fun _ _ _ h => ⟨h.1, h.2.2⟩) ?_
    · exact fun q hq => (h.read hread).2 q hq
    · rintro _ _ L ⟨rfl, h⟩
      exact hfailed L h
  · exact fun _ _ _ L h _ _ => hfailed L h.passing
  · -- The client authenticates again.
    rintro task ⟨⟩ r - -
    obtain ⟨h0, h1, h2, h3⟩ := sub_le_three (u.sequence + 1)
    obtain ⟨g1, g2, g3⟩ := add_ne (u.sequence + 1)
    have hcarried := @carried_accounted β _ L₀ log c fun n => n - (u.sequence + 1) ≤ 3
    have hend : ∀ (t : HostState β) answered L, t.sequence ≠ u.sequence + 1 →
        Accounted L₀ log c (fun n => n - (u.sequence + 1) ≤ 3) L →
        Accounted L₀ (u.record t c answered :: log) c unused L := fun t answered L ht h =>
      h.cons rfl (record_again ht answered).2 (record_again ht answered).1
    refine ((again_carried hcarried (k := u.sequence + 1) (fun _ => ⟨h1, fun hg => ?_⟩)
      (fun _ => ⟨h2, fun hg => ?_⟩) (fun _ => ⟨h3, fun _ => rfl⟩) hkey).weaken
        fun _ _ => trivial).consequence ?_ ?_ ?_
    · cases hg
    · cases hg
    · rintro t L ⟨rfl, h⟩
      exact ⟨rfl, h.passing.accounted.mono fun x hx => by rw [hx, hn]; exact h0⟩
    · exact fun _ t L h => hend t _ L (by rw [h.1]; exact g3) h.2
    · rintro e t L ⟨ht | ht | ht, h⟩
      · exact hend t _ L (by rw [ht]; exact g1) h
      · exact hend t _ L (by rw [ht]; exact g2) h
      · exact hend t _ L (by rw [ht]; exact g3) h
  · rintro r t L ht h -
    refine h.accounted hguarded hcode rfl ?_
    rw [hn]
    exact uses_record _ _

/-- **A call that needs no session** leaves everything accounted for, too. -/
theorem request_accounted_open (hc : c = .ping ∨ c = .getInfo) :
    Task.Spec lossyEnv (fun _ => True)
      (fun t L => t = u ∧ Accounted L₀ log c (· = u.sequence + 1) L) (request cfg c payload)
      (fun _ t L => Accounted L₀ (u.record t c true :: log) c unused L)
      (fun _ t L => Accounted L₀ (u.record t c false :: log) c unused L) := by
  have hp : c.isProtected = false := by rcases hc with rfl | rfl <;> rfl
  have hg : cfg.guards c = false := by simp [HostConfig.guards, hp]
  have hend : ∀ answered L, Accounted L₀ log c (· = u.sequence + 1) L →
      Accounted L₀ (u.record (u.at (u.sequence + 1)) c answered :: log) c unused L :=
    fun answered L h => h.cons rfl (fun x hx => by rw [hx]; exact uses_record _ _)
      (by simp [CallRecord.ages, HostState.record, hp])
  unfold request authenticateFor
  rw [if_neg (by simp [hg])]
  refine Task.Spec.bind (R := fun _ t L => t = u.at u.sequence ∧
    Accounted L₀ log c (· = u.sequence + 1) L) (Task.Spec.pure fun _ _ h => h) fun _ => ?_
  by_cases hl : payload.length + (if cfg.guards c then 16 else 0) ≤ protocolMaxPayload
  swap
  · exact requestOnce_tooLarge u (by omega) fun _ L h => hend _ L h
  refine requestOnce_rule u (A := fun _ L => Accounted L₀ log c (· = u.sequence + 1) L) hl
    (fun h => ?_) (fun _ => ?_) (fun h => ?_) (fun _ _ _ h => ?_) ?_
  · simp [hg] at h
  · refine ((requestPacket_carried (K := (· = u.at (u.sequence + 1)))
      (@carried_accounted β _ L₀ log c (· = u.sequence + 1)) ⟨rfl, fun _ => rfl⟩).weaken
        fun _ _ => trivial).consequence (fun _ _ h => h) (fun _ _ _ h => h) ?_
    rintro _ _ L ⟨rfl, h⟩
    exact hend _ L h
  · simp [hg] at h
  · simp [hg] at h
  · rintro r t L (rfl | ⟨hc', -⟩) h -
    · exact hend _ L h
    · rcases hc with rfl | rfl <;> simp at hc'

end Call

end OtaLink
