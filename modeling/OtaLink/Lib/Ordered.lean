import OtaLink.Lib.Fifo
import Mathlib.Data.List.Sort
import Mathlib.Data.List.Perm.Subperm

/-!
# A server that answers in order

A client that gives up on a message and goes on leaves copies of it on the link, so more
than one message can be in flight. On a FIFO link they are in flight in the order in which
the client has sent them, and the server receives each new message after the last copy of
the one before. If it answers a copy of its latest message as it has answered that message,
it has answered each message once.

## Main definitions

* `AnswersOnce` — what the server has to do.
* `InOrder` — a link with messages in flight and their answers.
* `Task.Spec.ordered` — the rule for one message.
-/

namespace OtaLink.Lib

variable {M D O T : Type} (tag : M → T) (rank : T → ℕ)

/-- `J H d` describes the server after the messages and answers `H`, oldest first. A later
message adds its answer, and a copy of the last one gets the answer that is there. -/
structure AnswersOnce (S : Server M D O) (Good : M → Prop) (J : List (M × M) → D → Prop) :
    Prop where
  fresh {H d m r d'} (h : J H d) (hm : Good m) (hlast : ∀ x ∈ H, rank (tag x.1) < rank (tag m))
    (hs : S.Serves d m r d') : J (H ++ [(m, r)]) d'
  again {H d m r r' d'} (h : J (H ++ [(m, r)]) d) (hs : S.Serves d m r' d') :
    r' = r ∧ J (H ++ [(m, r)]) d'
  tick {H d d'} (h : J H d) (ht : S.tick d = some d') : J H d'
  tag_eq {d m r d'} (hs : S.Serves d m r d') : tag r = tag m

/-- The client has sent `ms`, and the server has given the answers `H`: on the link are
messages that are not older than the last answered one, and answers the server has given. -/
structure InOrder (J : List (M × M) → D → Prop) (ms : List M) (H : List (M × M))
    (L : Link M D) : Prop where
  server : J H L.server
  mem : ∀ x ∈ H, x.1 ∈ ms
  sorted : H.Pairwise fun x y => rank (tag x.1) < rank (tag y.1)
  tag_eq : ∀ x ∈ H, tag x.2 = tag x.1
  requests_mem : ∀ m ∈ L.requests, m ∈ ms
  requests_sorted : L.requests.Pairwise fun m m' => rank (tag m) ≤ rank (tag m')
  requests_le : ∀ x ∈ H, ∀ m ∈ L.requests, rank (tag x.1) ≤ rank (tag m)
  replies : ∀ q ∈ L.replies, (q.request, q.response) ∈ H

variable {tag rank} {S : Server M D O} {P : Policy M D} {Good : M → Prop}
  {J : List (M × M) → D → Prop} {ms : List M} {H : List (M × M)} {L L' : Link M D}

/-- Messages of a strictly increasing list are told apart by their tags. -/
theorem eq_of_rank_eq (hms : ms.Pairwise fun a b => rank (tag a) < rank (tag b)) {a b : M}
    (ha : a ∈ ms) (hb : b ∈ ms) (h : rank (tag a) = rank (tag b)) : a = b := by
  induction ms with
  | nil => simp at ha
  | cons m ms ih =>
    obtain ⟨hm, hms⟩ := List.pairwise_cons.mp hms
    rcases List.mem_cons.mp ha with rfl | ha' <;> rcases List.mem_cons.mp hb with rfl | hb'
    · rfl
    · have := hm b hb'
      omega
    · have := hm a ha'
      omega
    · exact ih hms ha' hb'

/-- A strictly increasing list of messages of another one is a sublist of it. -/
theorem sublist_of_sorted {ms' : List M}
    (hms' : ms'.Pairwise fun a b => rank (tag a) < rank (tag b))
    (hms : ms.Pairwise fun a b => rank (tag a) < rank (tag b)) (h : ∀ m ∈ ms', m ∈ ms) :
    ms'.Sublist ms := by
  have hanti : Std.Antisymm fun a b : M => rank (tag a) < rank (tag b) :=
    ⟨fun a b hab hba => absurd hab (Nat.lt_asymm hba)⟩
  have hirrefl : Std.Irrefl fun a b : M => rank (tag a) < rank (tag b) :=
    ⟨fun a => Nat.lt_irrefl _⟩
  exact List.sublist_of_subperm_of_pairwise (List.Nodup.subperm hms'.nodup h) hms' hms

/-- An answered message that is no older than any other is the last one. -/
theorem eq_append_of_last (hsorted : H.Pairwise fun x y => rank (tag x.1) < rank (tag y.1))
    {x : M × M} (hx : x ∈ H) (hlast : ∀ y ∈ H, rank (tag y.1) ≤ rank (tag x.1)) :
    ∃ H', H = H' ++ [x] := by
  obtain ⟨as, bs, rfl⟩ := List.append_of_mem hx
  cases bs with
  | nil => exact ⟨as, rfl⟩
  | cons y bs =>
    have hlt := (List.pairwise_cons.mp (List.pairwise_append.mp hsorted).2.1).1 y (by simp)
    have hle := hlast y (by simp)
    omega

theorem InOrder.mono (h : InOrder tag rank J ms H L) {ms' : List M} (hms : ∀ m ∈ ms, m ∈ ms') :
    InOrder tag rank J ms' H L :=
  { h with
    mem := fun x hx => hms _ (h.mem x hx)
    requests_mem := fun m hm => hms m (h.requests_mem m hm) }

/-- A message that no other is younger than can be sent. -/
theorem InOrder.send (h : InOrder tag rank J ms H L) {m : M} (hm : m ∈ ms)
    (hlast : ∀ m' ∈ ms, rank (tag m') ≤ rank (tag m)) :
    InOrder tag rank J ms H { L with requests := L.requests ++ [m] } := by
  refine { h with requests_mem := ?_, requests_sorted := ?_, requests_le := ?_ }
  · intro x hx
    rcases List.mem_append.mp hx with hx | hx
    · exact h.requests_mem x hx
    · rwa [List.mem_singleton.mp hx]
  · refine List.pairwise_append.mpr ⟨h.requests_sorted, by simp, fun x hx y hy => ?_⟩
    rw [List.mem_singleton.mp hy]
    exact hlast x (h.requests_mem x hx)
  · intro x hx y hy
    rcases List.mem_append.mp hy with hy | hy
    · exact h.requests_le x hx y hy
    · rw [List.mem_singleton.mp hy]
      exact hlast _ (h.mem x hx)

/-- The client only takes answers off the link. -/
theorem InOrder.read (h : InOrder tag rank J ms H L) {accept : M → Bool} {r : Option M}
    (hread : Link.Read P accept L r L') :
    InOrder tag rank J ms H L' ∧
      ∀ r', r = some r' → accept r' = true ∧ ∃ m, (m, r') ∈ H := by
  cases hread with
  | @answer requests pre q post n d _ hq _ =>
    refine ⟨{ h with replies := fun x hx => h.replies x (by simp_all) }, ?_⟩
    rintro _ ⟨⟩
    exact ⟨hq, q.request, h.replies q (by simp)⟩
  | expire =>
    exact ⟨{ h with replies := fun x hx => h.replies x (by simp_all) }, fun _ hr => by cases hr⟩

/-- **The link keeps the order**, and the server adds at most one answer. -/
theorem InOrder.move (A : AnswersOnce tag rank S Good J)
    (hms : ms.Pairwise fun a b => rank (tag a) < rank (tag b))
    (hgood : ∀ m ∈ ms, Good m) (h : InOrder tag rank J ms H L)
    (hmove : Link.Move S P L L') :
    ∃ H', H <+: H' ∧ InOrder tag rank J ms H' L' := by
  cases hmove with
  | @deliver m rest replies n d r d' hp hs =>
    obtain ⟨hle, hrest⟩ := List.pairwise_cons.mp h.requests_sorted
    by_cases hold : ∃ x ∈ H, rank (tag x.1) = rank (tag m)
    · -- A copy of the last message: the answer is the one that is there.
      obtain ⟨⟨m', r₀⟩, hx, heq⟩ := hold
      obtain rfl : m' = m := eq_of_rank_eq hms (h.mem _ hx) (h.requests_mem m (by simp)) heq
      obtain ⟨H', rfl⟩ := eq_append_of_last h.sorted hx fun y hy => h.requests_le y hy m' (by simp)
      obtain ⟨rfl, hJ⟩ := A.again h.server hs
      refine ⟨_, List.prefix_refl _, { h with
        server := hJ
        requests_mem := fun x hx => h.requests_mem x (List.mem_cons_of_mem _ hx)
        requests_sorted := hrest
        requests_le := fun x hx y hy => h.requests_le x hx y (List.mem_cons_of_mem _ hy)
        replies := ?_ }⟩
      intro q hq
      rcases List.mem_append.mp hq with hq | hq
      · exact h.replies q hq
      · rw [List.mem_singleton.mp hq]
        exact hx
    · have hlast : ∀ x ∈ H, rank (tag x.1) < rank (tag m) := fun x hx =>
        Nat.lt_of_le_of_ne (h.requests_le x hx m (by simp)) fun heq => hold ⟨x, hx, heq⟩
      have hm : Good m := hgood m (h.requests_mem m (by simp))
      refine ⟨_, List.prefix_append H [(m, r)], A.fresh h.server hm hlast hs, ?_, ?_, ?_,
        fun x hx => h.requests_mem x (List.mem_cons_of_mem _ hx), hrest, ?_, ?_⟩
      · intro x hx
        rcases List.mem_append.mp hx with hx | hx
        · exact h.mem x hx
        · rw [List.mem_singleton.mp hx]
          exact h.requests_mem m (by simp)
      · refine List.pairwise_append.mpr ⟨h.sorted, by simp, fun x hx y hy => ?_⟩
        rw [List.mem_singleton.mp hy]
        exact hlast x hx
      · intro x hx
        rcases List.mem_append.mp hx with hx | hx
        · exact h.tag_eq x hx
        · rw [List.mem_singleton.mp hx]
          exact A.tag_eq hs
      · intro x hx y hy
        rcases List.mem_append.mp hx with hx | hx
        · exact h.requests_le x hx y (List.mem_cons_of_mem _ hy)
        · rw [List.mem_singleton.mp hx]
          exact hle y hy
      · intro q hq
        rcases List.mem_append.mp hq with hq | hq
        · exact List.mem_append_left _ (h.replies q hq)
        · rw [List.mem_singleton.mp hq]
          simp
  | @loseRequest xs m ys =>
    have hsub : (xs ++ ys).Sublist (xs ++ m :: ys) := (List.sublist_cons_self m ys).append_left xs
    exact ⟨H, List.prefix_refl H, { h with
      requests_mem := fun x hx => h.requests_mem x (hsub.subset hx)
      requests_sorted := h.requests_sorted.sublist hsub
      requests_le := fun x hx y hy => h.requests_le x hx y (hsub.subset hy) }⟩
  | @loseReply requests xs r ys =>
    have hsub : (xs ++ ys).Sublist (xs ++ r :: ys) := (List.sublist_cons_self r ys).append_left xs
    exact ⟨H, List.prefix_refl H, { h with
      replies := fun q hq => h.replies q (hsub.subset hq) }⟩
  | tick ht => exact ⟨H, List.prefix_refl H, { h with server := A.tick h.server ht }⟩

section Rule
variable {Q : Type} {A : Q → Type} {τ ε : Type} [DecidableEq T]

/-- A property of the answers given so far that later answers do not falsify. -/
def Monotone (G : List (M × M) → Prop) : Prop := ∀ {H H'}, H <+: H' → G H → G H'

/-- The link is in order, and the answers satisfy `G`. -/
def Answered (tag : M → T) (rank : T → ℕ) (J : List (M × M) → D → Prop) (ms : List M)
    (G : List (M × M) → Prop) (L : Link M D) : Prop := ∃ H, InOrder tag rank J ms H L ∧ G H

omit [DecidableEq T] in
theorem Answered.move (hA : AnswersOnce tag rank S Good J)
    (hms : ms.Pairwise fun a b => rank (tag a) < rank (tag b)) (hgood : ∀ m ∈ ms, Good m)
    {G : List (M × M) → Prop} (hG : Monotone G) (h : Answered tag rank J ms G L)
    (hmove : Link.Move S P L L') : Answered tag rank J ms G L' := by
  obtain ⟨H, hin, hg⟩ := h
  obtain ⟨H', hpre, hin'⟩ := hin.move hA hms hgood hmove
  exact ⟨H', hin', hG hpre hg⟩

/-- **The rule for one message.** The message is younger than all before it; it is sent
until its answer arrives, or until the last timer has expired. -/
theorem Task.Spec.ordered {K : τ → Prop} {Err : ε → τ → Link M D → Prop}
    (hA : AnswersOnce tag rank S Good J) {m : M}
    (hms : (ms ++ [m]).Pairwise fun a b => rank (tag a) < rank (tag b))
    (hgood : ∀ m' ∈ ms ++ [m], Good m') {G : List (M × M) → Prop} (hG : Monotone G)
    {I : Link M D → Prop} (hI : ∀ L, Answered tag rank J (ms ++ [m]) G L → I L) (n : ℕ) :
    Task.Spec (fifo S P : Env Q A M (Link M D)) I
      (fun t L => K t ∧ Answered tag rank J ms G L)
      (Task.exchange m (fun r => tag r == tag m) n : Task Q A M τ ε (Option M))
      (fun r t L => K t ∧ Answered tag rank J (ms ++ [m])
        (fun H => G H ∧ ∀ r', r = some r' → (m, r') ∈ H) L) Err := by
  have hlast : ∀ m' ∈ ms ++ [m], rank (tag m') ≤ rank (tag m) := by
    intro m' hm'
    rcases List.mem_append.mp hm' with hm' | hm'
    · exact Nat.le_of_lt ((List.pairwise_append.mp hms).2.2 m' hm' m (by simp))
    · exact Nat.le_of_eq (by rw [List.mem_singleton.mp hm'])
  have hst : ∀ (k : ℕ) t, (fifo S P : Env Q A M (Link M D)).Stable fun L =>
      K t ∧ Answered tag rank J (ms ++ [m]) G L :=
    fun k t L L' hmove h => ⟨h.1, h.2.move hA hms hgood hG hmove⟩
  refine (Task.Spec.exchange (W := fun _ t L => K t ∧ Answered tag rank J (ms ++ [m]) G L)
    (V := fun _ t L => K t ∧ Answered tag rank J (ms ++ [m]) G L) hst hst
    (fun _ _ _ h => hI _ h.2) (fun _ _ _ h => hI _ h.2) ?_ ?_ ?_ ?_ n).pre ?_
  · rintro k t L _ ⟨hpre, H, hin, hg⟩ rfl
    exact ⟨hpre, H, hin.send (by simp) hlast, hg⟩
  · rintro k t L L' ⟨hpre, H, hin, hg⟩ hread
    exact ⟨hpre, H, (hin.read hread).1, hg⟩
  · rintro k t L r L' ⟨hpre, H, hin, hg⟩ hread
    obtain ⟨hin', hr⟩ := hin.read hread
    obtain ⟨heq, m', hmem⟩ := hr r rfl
    -- The answer carries the tag of its message, so that message is `m`.
    have htag := hin.tag_eq _ hmem
    rw [eq_of_beq heq] at htag
    obtain rfl : m = m' := eq_of_rank_eq hms (by simp) (hin.mem _ hmem) (congrArg rank htag)
    exact ⟨hpre, H, hin', hg, fun r' hr' => by cases hr'; exact hmem⟩
  · rintro t L ⟨hpre, H, hin, hg⟩
    exact ⟨hpre, H, hin, hg, fun _ h => by cases h⟩
  · rintro t L ⟨hpre, H, hin, hg⟩
    exact ⟨hpre, H, hin.mono fun _ h => List.mem_append_left _ h, hg⟩

end Rule
end OtaLink.Lib
