import OtaLink.Lib.Interaction

/-!
# A server behind a lossy FIFO link

A client program talks to a server over two queues, one in each direction. Messages
arrive in order but any of them may be lost, a timer may expire at any time, and the
server may take steps of its own, such as a restart. A `Policy` restricts these
choices where a theorem speaks about some of the runs only.

The flight rule is the proof rule for a client that stops and waits: one packet is
sent, and sent again, until a reply under its tag arrives. While it is in flight the
only other packet on the link is the one before it.

## Main definitions

* `Server`, `Link`, `Policy` — the server, the state of the link, the restrictions.
* `fifo` — the environment of a client.
* `Idle`, `Flight` — the link between and during exchanges.
* `Task.Spec.flight_link` — the flight rule.
* `play` — runs in which every choice is written down.
-/

namespace OtaLink.Lib

/-- A server answers a message with a message, after consulting an oracle of type `O`
for what is outside of it, and may move on its own. -/
structure Server (M D O : Type) where
  serve : D → O → M → Option (M × D)
  tick : D → Option D

/-- Some answers of the oracle make the server respond so. -/
def Server.Serves {M D O : Type} (S : Server M D O) (d : D) (m r : M) (d' : D) : Prop :=
  ∃ o, S.serve d o m = some (r, d')

/-- A response on its way, with the request it answers and the state that answered. -/
structure Reply (M D : Type) where
  request : M
  response : M
  asOf : D

/-- Two queues, oldest message first, and the number of timers that have expired since
the last response was accepted. -/
structure Link (M D : Type) where
  requests : List M
  replies : List (Reply M D)
  expired : ℕ
  server : D

/-- A link with nothing on it. -/
def Link.quiet {M D : Type} (d : D) : Link M D := ⟨[], [], 0, d⟩

/-- Which of its choices the link has. -/
structure Policy (M D : Type) where
  /-- This message may reach the server in this state. -/
  deliver : D → M → Bool
  /-- This response may be lost. -/
  lose : Reply M D → Bool
  /-- The client may accept this response in this state. -/
  accept : D → M → Bool
  /-- A timer may expire after this many others. -/
  expire : ℕ → Bool

/-- The link has every choice. -/
def Policy.free (M D : Type) : Policy M D where
  deliver _ _ := true
  lose _ := true
  accept _ _ := true
  expire _ := true

section Fifo
variable {Q : Type} {A : Q → Type} {M D O : Type}

/-- A step of the link or the server. -/
inductive Link.Move (S : Server M D O) (P : Policy M D) : Link M D → Link M D → Prop
  | deliver {m rest replies n d r d'} (hp : P.deliver d m = true) (hs : S.Serves d m r d') :
      Move S P ⟨m :: rest, replies, n, d⟩ ⟨rest, replies ++ [⟨m, r, d⟩], n, d'⟩
  | loseRequest {xs m ys replies n d} :
      Move S P ⟨xs ++ m :: ys, replies, n, d⟩ ⟨xs ++ ys, replies, n, d⟩
  | loseReply {requests xs r ys n d} (hp : P.lose r = true) :
      Move S P ⟨requests, xs ++ r :: ys, n, d⟩ ⟨requests, xs ++ ys, n, d⟩
  | tick {requests replies n d d'} (ht : S.tick d = some d') :
      Move S P ⟨requests, replies, n, d⟩ ⟨requests, replies, n, d'⟩

/-- What a client that reads the reply queue can get: it skips what it does not accept,
and stops at what it accepts or when its timer expires. -/
inductive Link.Read (P : Policy M D) (accept : M → Bool) : Link M D → Option M → Link M D → Prop
  | answer {requests pre q post n d} (hpre : ∀ r ∈ pre, accept r.response = false)
      (hq : accept q.response = true) (hp : P.accept d q.response = true) :
      Read P accept ⟨requests, pre ++ q :: post, n, d⟩ (some q.response) ⟨requests, post, 0, d⟩
  | expire {requests pre post n d} (hpre : ∀ r ∈ pre, accept r.response = false)
      (hp : P.expire n = true) :
      Read P accept ⟨requests, pre ++ post, n, d⟩ none ⟨requests, post, n + 1, d⟩

/-- The environment of a client at the other end of the link. -/
def fifo (S : Server M D O) (P : Policy M D) : Env Q A M (Link M D) where
  rely := Link.Move S P
  ask s _ _ s' := s' = s
  send s m s' := s' = { s with requests := s.requests ++ [m] }
  recv s accept r s' := Link.Read P accept s r s'

end Fifo

/-! ## Stop and wait -/

section Flight
variable {M D O T : Type} (tag : M → T)

/-- Nothing but copies of `old` and replies to it is on the link. -/
structure Idle (old : M) (L : Link M D) : Prop where
  requests : ∀ m ∈ L.requests, m = old
  replies : ∀ r ∈ L.replies, tag r.response = tag old
  expired : L.expired = 0

/-- What a proof about one exchange has to show: `Before` describes the server until it
first answers `m`, and `After` the replies to `m` on the link and the server from then on. -/
structure Exchange (S : Server M D O) (P : Policy M D) (old m : M) (Before : D → Prop)
    (After : List (Reply M D) → D → Prop) : Prop where
  tag_ne : tag old ≠ tag m
  old {d r d'} (h : Before d) (hp : P.deliver d old = true) (hs : S.Serves d old r d') : Before d'
  tick {d d'} (h : Before d) (ht : S.tick d = some d') : Before d'
  first {d r d'} (h : Before d) (hp : P.deliver d m = true) (hs : S.Serves d m r d') :
    After [⟨m, r, d⟩] d'
  again {mine d r d'} (h : After mine d) (hp : P.deliver d m = true) (hs : S.Serves d m r d') :
    After (mine ++ [⟨m, r, d⟩]) d'
  tick' {mine d d'} (h : After mine d) (ht : S.tick d = some d') : After mine d'
  lose {xs r ys d} (h : After (xs ++ r :: ys) d) (hp : P.lose r = true) : After (xs ++ ys) d

/-- `m` is in flight: stale replies come first, then the replies to `m`, and while there
may be one, only copies of `m` are on their way to the server. -/
def Flight (old m : M) (Before : D → Prop) (After : List (Reply M D) → D → Prop)
    (L : Link M D) : Prop :=
  ∃ stale mine, L.replies = stale ++ mine ∧ (∀ r ∈ stale, tag r.response = tag old) ∧
    (∀ r ∈ mine, tag r.response = tag m) ∧
    ((mine = [] ∧ Before L.server ∧ ∃ xs ys, L.requests = xs ++ ys ∧ (∀ x ∈ xs, x = old) ∧
        ∀ y ∈ ys, y = m) ∨
      ((∀ y ∈ L.requests, y = m) ∧ After mine L.server))

/-- The client has taken `q` off the link as the reply to `m`; the rest is idle. -/
structure Taken (m : M) (After : List (Reply M D) → D → Prop) (q : Reply M D) (L : Link M D) :
    Prop where
  idle : Idle tag m L
  after : After (q :: L.replies) L.server

/-- The server satisfies `I` now and whatever the link still does. -/
def Link.Keeps (S : Server M D O) (P : Policy M D) (I : D → Prop) (L : Link M D) : Prop :=
  ∀ L', Relation.ReflTransGen (Link.Move S P) L L' → I L'.server

variable {tag} {S : Server M D O} {P : Policy M D} {old m : M} {Before : D → Prop}
  {After : List (Reply M D) → D → Prop} {I : D → Prop}

theorem Link.Keeps.now {L : Link M D} (h : L.Keeps S P I) : I L.server := h L .refl

theorem Link.Keeps.move {L L' : Link M D} (h : L.Keeps S P I) (hmove : Link.Move S P L L') :
    L'.Keeps S P I := fun L'' hL => h L'' (.head hmove hL)

theorem Link.Keeps.of_stable {J : Link M D → Prop} (hJ : ∀ L L', Link.Move S P L L' → J L → J L')
    (hI : ∀ L, J L → I L.server) {L : Link M D} (h : J L) : L.Keeps S P I := by
  intro L' hL
  refine hI L' ?_
  induction hL with
  | refl => exact h
  | tail _ hmove ih => exact hJ _ _ hmove ih

/-- Where nothing is in flight, any message can stand for the one before. -/
theorem Idle.quiet (m : M) (d : D) : Idle tag m (.quiet d) :=
  ⟨by simp [Link.quiet], by simp [Link.quiet], rfl⟩

/-- An idle link stays idle, and the server keeps what handling `old` keeps. -/
theorem Idle.move (hold : ∀ {d r d'}, Before d → P.deliver d old = true → S.Serves d old r d' →
      Before d') (htick : ∀ {d d'}, Before d → S.tick d = some d' → Before d')
    (htag : ∀ {d q r d'}, S.Serves d q r d' → tag r = tag q) {L L' : Link M D}
    (h : Idle tag old L) (hb : Before L.server) (hmove : Link.Move S P L L') :
    Idle tag old L' ∧ Before L'.server := by
  obtain ⟨hreq, hrep, hexp⟩ := h
  cases hmove with
  | @deliver q rest replies n d r d' hp hs =>
    obtain rfl := hreq q List.mem_cons_self
    refine ⟨⟨fun x hx => hreq x (List.mem_cons_of_mem _ hx), fun x hx => ?_, hexp⟩,
      hold hb hp hs⟩
    rcases List.mem_append.mp hx with hx | hx
    · exact hrep x hx
    · rw [List.mem_singleton.mp hx]
      exact htag hs
  | loseRequest => exact ⟨⟨fun x hx => hreq x (by simp_all; tauto), hrep, hexp⟩, hb⟩
  | loseReply => exact ⟨⟨hreq, fun x hx => hrep x (by simp_all; tauto), hexp⟩, hb⟩
  | tick ht => exact ⟨⟨hreq, hrep, hexp⟩, htick hb ht⟩

theorem Idle.keeps (hold : ∀ {d r d'}, Before d → P.deliver d old = true → S.Serves d old r d' →
      Before d') (htick : ∀ {d d'}, Before d → S.tick d = some d' → Before d')
    (htag : ∀ {d q r d'}, S.Serves d q r d' → tag r = tag q) (hI : ∀ d, Before d → I d)
    {L : Link M D} (h : Idle tag old L) (hb : Before L.server) : L.Keeps S P I :=
  Link.Keeps.of_stable (J := fun L => Idle tag old L ∧ Before L.server)
    (fun _ _ hmove h => h.1.move hold htick htag h.2 hmove) (fun _ h => hI _ h.2) ⟨h, hb⟩

/-- What is left of an exchange stays what it is. -/
theorem Taken.move (H : Exchange tag S P old m Before After)
    (htag : ∀ {d q r d'}, S.Serves d q r d' → tag r = tag q) {q : Reply M D} {L L' : Link M D}
    (h : Taken tag m After q L) (hmove : Link.Move S P L L') : Taken tag m After q L' := by
  obtain ⟨⟨hreq, hrep, hexp⟩, ha⟩ := h
  cases hmove with
  | @deliver x rest replies n d r d' hp hs =>
    obtain rfl := hreq x List.mem_cons_self
    refine ⟨⟨fun y hy => hreq y (List.mem_cons_of_mem _ hy), fun y hy => ?_, hexp⟩,
      H.again ha hp hs⟩
    rcases List.mem_append.mp hy with hy | hy
    · exact hrep y hy
    · rw [List.mem_singleton.mp hy]
      exact htag hs
  | loseRequest => exact ⟨⟨fun x hx => hreq x (by simp_all; tauto), hrep, hexp⟩, ha⟩
  | @loseReply _ xs =>
    exact ⟨⟨hreq, fun x hx => hrep x (by simp_all; tauto), hexp⟩,
      H.lose (show After (q :: xs ++ _) _ from ha) ‹_›⟩
  | tick ht => exact ⟨⟨hreq, hrep, hexp⟩, H.tick' ha ht⟩

theorem Taken.keeps (H : Exchange tag S P old m Before After)
    (htag : ∀ {d q r d'}, S.Serves d q r d' → tag r = tag q) (hI : ∀ mine d, After mine d → I d)
    {q : Reply M D} {L : Link M D} (h : Taken tag m After q L) : L.Keeps S P I :=
  Link.Keeps.of_stable (fun _ _ hmove h => h.move H htag hmove) (fun _ h => hI _ _ h.after) h

theorem Idle.flight {L : Link M D} (h : Idle tag old L) (hb : Before L.server) :
    Flight tag old m Before After L :=
  ⟨L.replies, [], by simp, h.replies, by simp, .inl ⟨rfl, hb, L.requests, [], by simp,
    h.requests, by simp⟩⟩

theorem Flight.send {L : Link M D} (h : Flight tag old m Before After L) :
    Flight tag old m Before After { L with requests := L.requests ++ [m] } := by
  obtain ⟨stale, mine, hreplies, hstale, hmine, h⟩ := h
  refine ⟨stale, mine, hreplies, hstale, hmine, ?_⟩
  rcases h with ⟨hnil, hb, xs, ys, hreq, hxs, hys⟩ | ⟨hreq, ha⟩
  · refine .inl ⟨hnil, hb, xs, ys ++ [m], by simp [hreq], hxs, ?_⟩
    intro y hy
    rcases List.mem_append.mp hy with hy | hy
    · exact hys y hy
    · exact List.mem_singleton.mp hy
  · refine .inr ⟨?_, ha⟩
    intro y hy
    rcases List.mem_append.mp hy with hy | hy
    · exact hreq y hy
    · exact List.mem_singleton.mp hy

/-- An element removed from two queues in a row was in the first or in the second. -/
theorem remove_append {α : Type} {xs ys as bs : List α} {a : α} (h : xs ++ a :: ys = as ++ bs) :
    (∃ us vs, as = us ++ a :: vs ∧ xs ++ ys = (us ++ vs) ++ bs) ∨
      ∃ us vs, bs = us ++ a :: vs ∧ xs ++ ys = as ++ (us ++ vs) := by
  rcases List.append_eq_append_iff.mp h with ⟨ws, rfl, hw⟩ | ⟨ws, rfl, rfl⟩
  · cases ws with
    | nil => exact .inr ⟨[], ys, by simpa using hw.symm, by simp⟩
    | cons w ws =>
      simp only [List.cons_append, List.cons.injEq] at hw
      exact .inl ⟨xs, ws, by rw [hw.1], by rw [hw.2]; simp⟩
  · exact .inr ⟨ws, ys, rfl, by simp⟩

/-- The link keeps a packet in flight. -/
theorem Flight.move (H : Exchange tag S P old m Before After)
    (htag : ∀ {d q r d'}, S.Serves d q r d' → tag r = tag q) {L L' : Link M D}
    (h : Flight tag old m Before After L) (hmove : Link.Move S P L L') :
    Flight tag old m Before After L' := by
  obtain ⟨stale, mine, hreplies, hstale, hmine, h⟩ := h
  cases hmove with
  | @deliver q rest replies n d r d' hp hs =>
    dsimp only at hreplies h
    rcases h with ⟨hnil, hb, xs, ys, hreq, hxs, hys⟩ | ⟨hreq, ha⟩
    · subst hnil
      cases xs with
      | cons x xs =>
        simp only [List.cons_append, List.cons.injEq] at hreq
        obtain ⟨rfl, rfl⟩ := hreq
        obtain rfl := hxs q List.mem_cons_self
        refine ⟨stale ++ [⟨q, r, d⟩], [], by simp [hreplies], ?_, by simp, .inl ⟨rfl,
          H.old hb hp hs, xs, ys, rfl, fun x hx => hxs x (List.mem_cons_of_mem _ hx), hys⟩⟩
        intro x hx
        rcases List.mem_append.mp hx with hx | hx
        · exact hstale x hx
        · rw [List.mem_singleton.mp hx]
          exact htag hs
      | nil =>
        simp only [List.nil_append] at hreq
        subst hreq
        obtain rfl := hys q List.mem_cons_self
        refine ⟨stale, [⟨q, r, d⟩], by simp [hreplies], hstale, ?_, .inr ⟨fun y hy =>
          hys y (List.mem_cons_of_mem _ hy), H.first hb hp hs⟩⟩
        intro x hx
        rw [List.mem_singleton.mp hx]
        exact htag hs
    · obtain rfl := hreq q List.mem_cons_self
      refine ⟨stale, mine ++ [⟨q, r, d⟩], by simp [hreplies], hstale, ?_, .inr ⟨fun y hy =>
        hreq y (List.mem_cons_of_mem _ hy), H.again ha hp hs⟩⟩
      intro x hx
      rcases List.mem_append.mp hx with hx | hx
      · exact hmine x hx
      · rw [List.mem_singleton.mp hx]
        exact htag hs
  | @loseRequest xs q ys replies n d =>
    refine ⟨stale, mine, hreplies, hstale, hmine, ?_⟩
    rcases h with ⟨hnil, hb, us, vs, hreq, hus, hvs⟩ | ⟨hreq, ha⟩
    · refine .inl ⟨hnil, hb, ?_⟩
      rcases remove_append hreq with ⟨ts, ws, rfl, hrest⟩ | ⟨ts, ws, rfl, hrest⟩
      · exact ⟨ts ++ ws, vs, hrest, fun x hx => hus x (by simp_all; tauto), hvs⟩
      · exact ⟨us, ts ++ ws, hrest, hus, fun x hx => hvs x (by simp_all; tauto)⟩
    · exact .inr ⟨fun y hy => hreq y (by simp_all; tauto), ha⟩
  | @loseReply requests xs q ys n d hp =>
    rcases remove_append hreplies with ⟨ts, ws, rfl, hrest⟩ | ⟨ts, ws, rfl, hrest⟩
    · exact ⟨ts ++ ws, mine, hrest, fun x hx => hstale x (by simp_all; tauto), hmine, h⟩
    · refine ⟨stale, ts ++ ws, hrest, hstale, fun x hx => hmine x (by simp_all; tauto), ?_⟩
      rcases h with ⟨hnil, -⟩ | ⟨hreq, ha⟩
      · simp at hnil
      · exact .inr ⟨hreq, H.lose ha hp⟩
  | tick ht =>
    exact ⟨stale, mine, hreplies, hstale, hmine, h.imp
      (fun ⟨hnil, hb, hreq⟩ => ⟨hnil, H.tick hb ht, hreq⟩)
      (fun ⟨hreq, ha⟩ => ⟨hreq, H.tick' ha ht⟩)⟩

theorem Flight.server {L : Link M D} (h : Flight tag old m Before After L)
    (hI : ∀ d, Before d → I d) (hI' : ∀ mine d, After mine d → I d) : I L.server := by
  obtain ⟨-, mine, -, -, -, ⟨-, hb, -⟩ | ⟨-, ha⟩⟩ := h
  · exact hI _ hb
  · exact hI' _ _ ha

theorem Flight.keeps (H : Exchange tag S P old m Before After)
    (htag : ∀ {d q r d'}, S.Serves d q r d' → tag r = tag q) (hI : ∀ d, Before d → I d)
    (hI' : ∀ mine d, After mine d → I d) {L : Link M D} (h : Flight tag old m Before After L) :
    L.Keeps S P I :=
  Link.Keeps.of_stable (fun _ _ hmove h => h.move H htag hmove) (fun _ h => h.server hI hI') h

/-- What holds while `m` is in flight holds whatever the link does next. -/
theorem Flight.always {Q : Type} {A : Q → Type} {J : Link M D → Prop}
    (H : Exchange tag S P old m Before After)
    (htag : ∀ {d q r d'}, S.Serves d q r d' → tag r = tag q)
    (hJ : ∀ L, Flight tag old m Before After L → J L) {L : Link M D}
    (h : Flight tag old m Before After L) : (fifo S P : Env Q A M (Link M D)).Always J L :=
  (Env.Stable.always (fun _ _ hmove h => h.move H htag hmove) h).mono hJ

/-- What holds once a reply has been taken holds whatever the link does next. -/
theorem Taken.always {Q : Type} {A : Q → Type} {J : Link M D → Prop}
    (H : Exchange tag S P old m Before After)
    (htag : ∀ {d q r d'}, S.Serves d q r d' → tag r = tag q) {q : Reply M D}
    (hJ : ∀ L, Taken tag m After q L → J L) {L : Link M D} (h : Taken tag m After q L) :
    (fifo S P : Env Q A M (Link M D)).Always J L :=
  (Env.Stable.always (fun _ _ hmove h => h.move H htag hmove) h).mono hJ

/-- The first accepted reply is the first reply to `m` on the link. -/
theorem Flight.answer [DecidableEq T] (hne : tag old ≠ tag m) {L L' : Link M D} {r : M}
    (h : Flight tag old m Before After L)
    (hread : Link.Read P (fun r => tag r == tag m) L (some r) L') :
    ∃ q, q.response = r ∧ P.accept L'.server r = true ∧ Taken tag m After q L' := by
  obtain ⟨stale, mine, hreplies, hstale, hmine, h⟩ := h
  cases hread with
  | @answer requests pre q post n d hpre hq hp =>
    dsimp only at hreplies
    have hstale' : ∀ x ∈ stale, x.response ≠ q.response := by
      intro x hx heq
      have := hstale x hx
      rw [heq, eq_of_beq hq] at this
      exact hne this.symm
    have hsplit : pre = stale ∧ q :: post = mine := by
      rcases List.append_eq_append_iff.mp hreplies with ⟨ws, rfl, hw⟩ | ⟨ws, rfl, hw⟩
      · cases ws with
        | nil => exact ⟨by simp, by simpa using hw⟩
        | cons w ws =>
          simp only [List.cons_append, List.cons.injEq] at hw
          exact absurd (by rw [hw.1]) (hstale' w (by simp))
      · cases ws with
        | nil => exact ⟨by simp, by simpa using hw.symm⟩
        | cons w ws =>
          have hw' := hmine w (by rw [hw]; simp)
          have := hpre w (by simp)
          simp [hw'] at this
    obtain ⟨rfl, rfl⟩ := hsplit
    rcases h with ⟨hnil, -⟩ | ⟨hreq, ha⟩
    · cases hnil
    · exact ⟨q, rfl, hp, ⟨hreq, fun x hx => hmine x (List.mem_cons_of_mem _ hx), rfl⟩, ha⟩

/-- An expired timer drops stale replies only. -/
theorem Flight.expire [DecidableEq T] {L L' : Link M D} (h : Flight tag old m Before After L)
    (hread : Link.Read P (fun r => tag r == tag m) L none L') :
    Flight tag old m Before After L' ∧ L'.expired = L.expired + 1 ∧ P.expire L.expired = true ∧
      L'.server = L.server := by
  obtain ⟨stale, mine, hreplies, hstale, hmine, h⟩ := h
  cases hread with
  | @expire requests pre post n d hpre hp =>
    refine ⟨?_, rfl, hp, rfl⟩
    dsimp only at hreplies
    rcases List.append_eq_append_iff.mp hreplies with ⟨ws, rfl, rfl⟩ | ⟨ws, rfl, rfl⟩
    · exact ⟨ws, mine, rfl, fun x hx => hstale x (List.mem_append_right pre hx), hmine, h⟩
    · cases ws with
      | nil => exact ⟨[], post, by simp, by simp, hmine, h⟩
      | cons w ws =>
        have hw := hmine w (by simp)
        have := hpre w (by simp)
        simp [hw] at this

end Flight

/-! ## The flight rule -/

section Rule
variable {Q : Type} {A : Q → Type} {M D O T τ ε : Type} [DecidableEq T] {tag : M → T}
  {S : Server M D O} {P : Policy M D} {old m : M} {Before : D → Prop}
  {After : List (Reply M D) → D → Prop} {I : D → Prop}

/-- **The flight rule.** One exchange of a client that stops and waits: it starts on an
idle link, every state on the way satisfies an invariant that holds while the packet is in
flight, and it ends with the first reply to `m`, or after its last timer has expired. -/
theorem Task.Spec.flight_link {Pre : τ → Prop} {Err : ε → τ → Link M D → Prop}
    {J : Link M D → Prop} (H : Exchange tag S P old m Before After)
    (htag : ∀ {d q r d'}, S.Serves d q r d' → tag r = tag q)
    (hJ : ∀ L, Flight tag old m Before After L → J L) (n : ℕ) :
    Task.Spec (fifo S P : Env Q A M (Link M D)) J
      (fun t L => Pre t ∧ Idle tag old L ∧ Before L.server)
      (Task.exchange m (fun r => tag r == tag m) n : Task Q A M τ ε (Option M))
      (fun r t L => Pre t ∧ match r with
        | some r => P.accept L.server r = true ∧ ∃ q, q.response = r ∧ Taken tag m After q L
        | none => Flight tag old m Before After L ∧ ∀ e, n = e + 1 → P.expire e = true) Err := by
  have hst : ∀ k t, (fifo S P : Env Q A M (Link M D)).Stable fun L =>
      Pre t ∧ Flight tag old m Before After L ∧ L.expired + k = n ∧
        ∀ e, L.expired = e + 1 → P.expire e = true := by
    rintro k t L L' hmove ⟨hpre, hf, hk, he⟩
    refine ⟨hpre, hf.move H htag hmove, ?_⟩
    cases hmove <;> exact ⟨hk, he⟩
  refine (Task.Spec.exchange (W := fun k t L => Pre t ∧ Flight tag old m Before After L ∧
      L.expired + k = n ∧ ∀ e, L.expired = e + 1 → P.expire e = true)
    (V := fun k t L => Pre t ∧ Flight tag old m Before After L ∧ L.expired + (k + 1) = n ∧
      ∀ e, L.expired = e + 1 → P.expire e = true) hst (fun k => hst (k + 1)) ?_ ?_ ?_ ?_ ?_ ?_
        n).pre ?_
  · exact fun k t L h => hJ L h.2.1
  · exact fun k t L h => hJ L h.2.1
  · rintro k t L L' ⟨hpre, hf, hk, he⟩ rfl
    exact ⟨hpre, hf.send, hk, he⟩
  · rintro k t L L' ⟨hpre, hf, hk, he⟩ hread
    obtain ⟨hf', hexp, hp, -⟩ := hf.expire hread
    refine ⟨hpre, hf', by omega, fun e heq => ?_⟩
    obtain rfl : e = L.expired := by omega
    exact hp
  · rintro k t L r L' ⟨hpre, hf, -⟩ hread
    obtain ⟨q, hq, hp, htaken⟩ := hf.answer H.tag_ne hread
    exact ⟨hpre, hp, q, hq, htaken⟩
  · rintro t L ⟨hpre, hf, hk, he⟩
    exact ⟨hpre, hf, fun e heq => he e (by omega)⟩
  · rintro t L ⟨hpre, hidle, hb⟩
    exact ⟨hpre, hidle.flight hb, by rw [hidle.expired]; omega, by rw [hidle.expired]; simp⟩

end Rule
/-! ## Scripts

A run in which every choice is written down can be computed, so a concrete run is a
closed term and its end is found by evaluation. -/

section Script
variable {Q : Type} {A : Q → Type} {M D O α : Type}

/-- One choice of a run. -/
inductive Choice (O : Type)
  /-- The client sends, asks, or accepts the first reply it waits for. -/
  | proceed
  /-- The oldest request reaches the server. -/
  | deliver (o : O)
  | loseRequest
  | loseReply
  | tick
  /-- The timer expires; everything stays on the link. -/
  | expire

/-- The choice takes a message off the link that nobody has read. -/
def Choice.loses {O : Type} : Choice O → Bool
  | .loseRequest | .loseReply => true
  | _ => false

/-- Make one choice, if the run can. The oldest message is the one that is lost. -/
def choose (S : Server M D O) (P : Policy M D) (answer : ∀ q, A q) :
    Choice O → Prog Q A M α × Link M D → Option (Prog Q A M α × Link M D)
  | .proceed, (.ask q k, L) => some (k (answer q), L)
  | .proceed, (.send m next, L) => some (next, { L with requests := L.requests ++ [m] })
  | .proceed, (.recv accept k, L) =>
    match L.replies.dropWhile fun r => !accept r.response with
    | q :: post =>
      if P.accept L.server q.response then
        some (k (some q.response), { L with replies := post, expired := 0 })
      else none
    | [] => none
  | .expire, (.recv _ k, L) =>
    if P.expire L.expired then some (k none, { L with expired := L.expired + 1 }) else none
  | .deliver o, (p, L) =>
    match L.requests with
    | m :: rest =>
      if P.deliver L.server m then
        (S.serve L.server o m).map fun r => (p, { L with
          requests := rest
          replies := L.replies ++ [⟨m, r.1, L.server⟩]
          server := r.2 })
      else none
    | [] => none
  | .loseRequest, (p, L) =>
    match L.requests with
    | _ :: rest => some (p, { L with requests := rest })
    | [] => none
  | .loseReply, (p, L) =>
    match L.replies with
    | r :: rest => if P.lose r then some (p, { L with replies := rest }) else none
    | [] => none
  | .tick, (p, L) => (S.tick L.server).map fun d => (p, { L with server := d })
  | _, _ => none

/-- Make the choices one after another. -/
def play (S : Server M D O) (P : Policy M D) (answer : ∀ q, A q) :
    List (Choice O) → Prog Q A M α × Link M D → Option (Prog Q A M α × Link M D)
  | [], c => some c
  | x :: xs, c => (choose S P answer x c).bind (play S P answer xs)

variable {S : Server M D O} {P : Policy M D} {answer : ∀ q, A q}

theorem step_of_choose {x : Choice O} {c c' : Prog Q A M α × Link M D}
    (h : choose S P answer x c = some c') : (fifo S P).Step c c' := by
  obtain ⟨p, requests, replies, n, d⟩ := c
  cases x with
  | proceed =>
    cases p with
    | ret a => cases h
    | ask q k => cases h; exact .ask rfl
    | send m next => cases h; exact .send rfl
    | recv accept k =>
      simp only [choose] at h
      split at h
      · rename_i q post hdrop
        split at h
        · rename_i hp
          cases h
          have hsplit :=
            List.takeWhile_append_dropWhile (p := fun r => !accept r.response) (l := replies)
          rw [hdrop] at hsplit
          have hq : accept q.response = true := by
            have := List.head?_dropWhile_not (fun r => !accept r.response) replies
            simpa [hdrop] using this
          refine .recv ?_
          show Link.Read P accept ⟨requests, replies, n, d⟩ _ _
          rw [← hsplit]
          exact .answer (fun r hr => by
            simpa using List.all_eq_true.mp List.all_takeWhile r hr) hq hp
        · cases h
      · cases h
  | expire =>
    cases p with
    | recv accept k =>
      simp only [choose] at h
      split at h
      · cases h
        exact .recv (@Link.Read.expire M D P _ _ [] _ _ _ (by simp) ‹_›)
      · cases h
    | _ => cases h
  | deliver o =>
    simp only [choose] at h
    split at h
    · split at h
      · obtain ⟨r, hr, rfl⟩ := Option.map_eq_some_iff.mp h
        simp_all only
        exact .rely (.deliver ‹_› ⟨o, hr⟩)
      · cases h
    · cases h
  | loseRequest =>
    simp only [choose] at h
    split at h
    · cases h
      exact .rely (@Link.Move.loseRequest M D O S P [] _ _ _ _ _)
    · cases h
  | loseReply =>
    simp only [choose] at h
    split at h
    · split at h
      · cases h
        exact .rely (@Link.Move.loseReply M D O S P _ [] _ _ _ _ ‹_›)
      · cases h
    · cases h
  | tick =>
    simp only [choose] at h
    obtain ⟨d', hd, rfl⟩ := Option.map_eq_some_iff.mp h
    exact .rely (.tick hd)

theorem reaches_of_play {xs : List (Choice O)} {c c' : Prog Q A M α × Link M D}
    (h : play S P answer xs c = some c') : (fifo S P).Reaches c c' := by
  induction xs generalizing c with
  | nil => cases h; exact .refl
  | cons x xs ih =>
    simp only [play] at h
    obtain ⟨c₁, h₁, h₂⟩ := Option.bind_eq_some_iff.mp h
    exact .head (step_of_choose h₁) (ih h₂)

/-- A property of the end of a script holds at some configuration the run reaches. -/
theorem exists_reaches_of_play (S : Server M D O) (P : Policy M D) (answer : ∀ q, A q)
    (xs : List (Choice O)) (c : Prog Q A M α × Link M D) (check : Prog Q A M α × Link M D → Bool)
    (h : (play S P answer xs c).any check = true) :
    ∃ c', (fifo S P).Reaches c c' ∧ check c' = true := by
  cases hc : play S P answer xs c with
  | none => simp [hc] at h
  | some c' => exact ⟨c', reaches_of_play hc, by simpa [hc] using h⟩

end Script
end OtaLink.Lib
