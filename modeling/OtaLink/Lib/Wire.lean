import OtaLink.Lib.Fifo
import OtaLink.Lib.Scanner
import OtaLink.Lib.Simulation

/-!
# Links made of octets

A FIFO link of messages is an idealisation. What there is are two streams of octets, a decoder at
the end of each, and noise that may change octets, drop them and add some. A client reads as many
octets as happen to have arrived, and forgets what it decodes behind the message it waits for.

As long as no error goes undetected, that is, a decoder makes of what arrives either the message
that was sent or nothing, the streams are a link that loses messages: every run over octets is
one over messages. So what is proved of all runs of the link holds of the octets.

## Main definitions

* `Coding` — a decoder and what it decodes.
* `Pipe`, `Pipe.Takes` — one direction, and what noise may do.
* `Wire`, `Wire.Step` — a program and a server on two pipes.
* `Wire.simulates` — the wire is a lossy link.
-/

namespace OtaLink.Lib
open Relation

/-- A decoder, with an encoder whose messages it decodes. -/
structure Coding (α M : Type) extends Scanner α M where
  encode : M → Option (List α)
  decode_encode : ∀ {m x}, encode m = some x → (toScanner.scan x).2 = [m]

/-! ## One direction -/

/-- What a decoder holds, and the octets on their way to it. -/
structure Pipe (α : Type) where
  held : List α
  moving : List α

namespace Pipe
variable {α M : Type} {S : Scanner α M} {c : Pipe α}

/-- The messages on their way. -/
def decoded (S : Scanner α M) (c : Pipe α) : List M := (S.scan (c.held ++ c.moving)).2

def write (c : Pipe α) (octets : List α) : Pipe α := { c with moving := c.moving ++ octets }

/-- The octets `x` arrive where `octets` were sent, and no error goes undetected: the decoder
makes of them what it makes of `octets`, or nothing. -/
def Takes (S : Scanner α M) (c : Pipe α) (octets x : List α) : Prop :=
  (c.write x).decoded S = c.decoded S ∨
    (c.write x).decoded S = c.decoded S ++ (S.scan octets).2

/-- The pipe after some octets have arrived. -/
def arrive (S : Scanner α M) (held chunk rest : List α) : Pipe α :=
  ⟨(S.scan (held ++ chunk)).1, rest⟩

/-- What has arrived comes before what has not. -/
theorem decoded_arrive (S : Scanner α M) (held chunk rest : List α) :
    (Pipe.mk held (chunk ++ rest)).decoded S =
      (S.scan (held ++ chunk)).2 ++ (arrive S held chunk rest).decoded S := by
  simp only [decoded, arrive]
  rw [← List.append_assoc, Scanner.scan_append]

/-- Noise is what arrives where nothing was sent. -/
theorem Takes.noise {x : List α} (h : c.Takes S [] x) : (c.write x).decoded S = c.decoded S := by
  rcases h with h | h
  · exact h
  · rwa [Scanner.scan_nil, List.append_nil] at h

end Pipe

/-! ## A program and a server -/

/-- Two directions and a server. -/
structure Wire (α D : Type) where
  there : Pipe α
  back : Pipe α
  server : D

section Wire
variable {Q : Type} {A : Q → Type} {α β M D O : Type}

/-- A step of the line or the server. The server reads octet after octet. -/
inductive Wire.Move (S : Server M D O) (T B : Coding α M) : Wire α D → Wire α D → Prop
  | noiseThere {there back d x} (h : there.Takes T.toScanner [] x) :
      Move S T B ⟨there, back, d⟩ ⟨there.write x, back, d⟩
  | noiseBack {there back d x} (h : back.Takes B.toScanner [] x) :
      Move S T B ⟨there, back, d⟩ ⟨there, back.write x, d⟩
  | octet {held b rest back d} (h : (T.scan (held ++ [b])).2 = []) :
      Move S T B ⟨⟨held, b :: rest⟩, back, d⟩ ⟨.arrive T.toScanner held [b] rest, back, d⟩
  | serve {held b rest back d m r d' octets x} (h : (T.scan (held ++ [b])).2 = [m])
      (hs : S.Serves d m r d') (he : B.encode r = some octets)
      (hx : back.Takes B.toScanner octets x) :
      Move S T B ⟨⟨held, b :: rest⟩, back, d⟩
        ⟨.arrive T.toScanner held [b] rest, back.write x, d'⟩
  /-- The decoder of the server forgets what it holds. -/
  | tick {there back rest d d'} (ht : S.tick d = some d') (hrest : rest <:+ there.moving)
      (h : (T.scan rest).2.Sublist (there.decoded T.toScanner)) :
      Move S T B ⟨there, back, d⟩ ⟨⟨[], rest⟩, back, d'⟩

/-- One step of a program on a wire. The program reads any number of octets at a time, and goes
on with the first message among them that it accepts. -/
inductive Wire.Step (S : Server M D O) (T B : Coding α M) :
    Prog Q A M β × Wire α D → Prog Q A M β × Wire α D → Prop
  | move {p w w'} (h : Wire.Move S T B w w') : Step S T B (p, w) (p, w')
  | ask {q k a w} : Step S T B (.ask q k, w) (k a, w)
  | send {m p there back d octets x} (he : T.encode m = some octets)
      (hx : there.Takes T.toScanner octets x) :
      Step S T B (.send m p, ⟨there, back, d⟩) (p, ⟨there.write x, back, d⟩)
  | skip {accept k there held chunk rest d} (h : (B.scan (held ++ chunk)).2.find? accept = none) :
      Step S T B (.recv accept k, ⟨there, ⟨held, chunk ++ rest⟩, d⟩)
        (.recv accept k, ⟨there, .arrive B.toScanner held chunk rest, d⟩)
  | answer {accept k there held chunk rest d r}
      (h : (B.scan (held ++ chunk)).2.find? accept = some r) :
      Step S T B (.recv accept k, ⟨there, ⟨held, chunk ++ rest⟩, d⟩)
        (k (some r), ⟨there, .arrive B.toScanner held chunk rest, d⟩)
  | expire {accept k w} : Step S T B (.recv accept k, w) (k none, w)

/-- The link carries the messages on the wire. -/
structure Wire.Shows (T B : Coding α M) (w : Wire α D) (L : Link M D) : Prop where
  requests : L.requests = w.there.decoded T.toScanner
  replies : L.replies.map Reply.response = w.back.decoded B.toScanner
  server : L.server = w.server

/-! ## Losses -/

section Lose
variable {S : Server M D O} {p : Prog Q A M β} {requests xs ys : List M}
  {replies rs ss : List (Reply M D)} {n : ℕ} {d : D}

theorem reaches_loseRequests (h : xs.Sublist ys) (front : List M) :
    (fifo S (.free M D)).Reaches (p, ⟨front ++ ys, replies, n, d⟩)
      (p, ⟨front ++ xs, replies, n, d⟩) := by
  induction h generalizing front with
  | slnil => exact .refl
  | cons y _ ih => exact .head (.rely .loseRequest) (ih front)
  | cons_cons y _ ih =>
    have h := ih (front ++ [y])
    rwa [List.append_assoc, List.append_assoc] at h

theorem reaches_loseReplies (h : rs.Sublist ss) (front : List (Reply M D)) :
    (fifo S (.free M D)).Reaches (p, ⟨requests, front ++ ss, n, d⟩)
      (p, ⟨requests, front ++ rs, n, d⟩) := by
  induction h generalizing front with
  | slnil => exact .refl
  | cons y _ ih => exact .head (.rely (.loseReply rfl)) (ih front)
  | cons_cons y _ ih =>
    have h := ih (front ++ [y])
    rwa [List.append_assoc, List.append_assoc] at h

end Lose

/-! ## The simulation -/

section Simulates
variable {S : Server M D O} {T B : Coding α M} {p : Prog Q A M β} {w w' : Wire α D} {L : Link M D}

/-- A reply that is on the link, or has been lost. -/
theorem reaches_reply {requests : List M} {replies : List (Reply M D)} {q : Reply M D} {n : ℕ}
    {d : D} {before after : List M} (hreplies : replies.map Reply.response = before)
    (h : after = before ∨ after = before ++ [q.response]) :
    ∃ rs, (fifo S (.free M D)).Reaches (p, ⟨requests, replies ++ [q], n, d⟩)
      (p, ⟨requests, rs, n, d⟩) ∧ rs.map Reply.response = after := by
  rcases h with rfl | rfl
  · refine ⟨replies, ?_, hreplies⟩
    have hlose :=
      @reaches_loseReplies Q A β M D O S p requests [] [q] n d (List.nil_sublist _) replies
    rwa [List.append_nil] at hlose
  · exact ⟨_, .refl, by rw [List.map_append, hreplies]; rfl⟩

theorem Wire.Move.matched (h : Wire.Move S T B w w') (hL : w.Shows T B L) :
    ∃ L', (fifo S (.free M D)).Reaches (p, L) (p, L') ∧ w'.Shows T B L' := by
  obtain ⟨requests, replies, n, d⟩ := L
  obtain ⟨hreq, hrep, hserver⟩ := hL
  dsimp only at hreq hrep hserver
  cases h with
  | noiseThere hx => exact ⟨_, .refl, hreq.trans hx.noise.symm, hrep, hserver⟩
  | noiseBack hx => exact ⟨_, .refl, hreq, hrep.trans hx.noise.symm, hserver⟩
  | @octet held b rest back _ hb =>
    refine ⟨_, .refl, hreq.trans ?_, hrep, hserver⟩
    rw [show b :: rest = [b] ++ rest from rfl, Pipe.decoded_arrive, hb, List.nil_append]
  | @serve held b rest back _ m r d' octets x hb hs he hx =>
    subst hserver
    have hm : requests = m :: (Pipe.arrive T.toScanner held [b] rest).decoded T.toScanner := by
      rw [hreq, show b :: rest = [b] ++ rest from rfl, Pipe.decoded_arrive, hb]
      rfl
    subst hm
    rw [Pipe.Takes, B.decode_encode he] at hx
    obtain ⟨rs, hlose, hrs⟩ := @reaches_reply Q A β M D O S p
      ((Pipe.arrive T.toScanner held [b] rest).decoded T.toScanner) replies ⟨m, r, d⟩ n d' _ _ hrep
        hx
    exact ⟨_, .head (.rely (.deliver rfl hs)) hlose, rfl, hrs, rfl⟩
  | @tick there back rest _ d' ht hrest hx =>
    subst hserver
    rw [← hreq] at hx
    refine ⟨_, .head (.rely (.tick ht))
      (@reaches_loseRequests Q A β M D O S p _ _ replies n d' hx []),
      ?_, hrep, rfl⟩
    rw [List.nil_append, Pipe.decoded, List.nil_append]

/-- The replies that a read decodes are the first on the link. -/
theorem Wire.Shows.split {there : Pipe α} {held chunk rest : List α} {d : D}
    (hL : Wire.Shows T B ⟨there, ⟨held, chunk ++ rest⟩, d⟩ L) : ∃ here later,
      L.replies = here ++ later ∧ here.map Reply.response = (B.scan (held ++ chunk)).2 ∧
      later.map Reply.response = (Pipe.arrive B.toScanner held chunk rest).decoded B.toScanner := by
  have hrep := hL.replies
  rw [Pipe.decoded_arrive, List.map_eq_append_iff] at hrep
  exact hrep

/-- **One step.** -/
theorem Wire.Step.matched {p' : Prog Q A M β} (h : Wire.Step S T B (p, w) (p', w'))
    (hL : w.Shows T B L) :
    ∃ L', (fifo S (.free M D)).Reaches (p, L) (p', L') ∧ w'.Shows T B L' := by
  cases h with
  | move h => exact h.matched hL
  | ask => exact ⟨L, .single (.ask rfl), hL⟩
  | @send m _ there back d octets x he hx =>
    obtain ⟨requests, replies, n, d'⟩ := L
    obtain ⟨hreq, hrep, hserver⟩ := hL
    obtain rfl : d' = d := hserver
    dsimp only at hreq hrep
    rw [Pipe.Takes, T.decode_encode he, ← hreq] at hx
    rcases hx with hx | hx
    · refine ⟨⟨requests, replies, n, d'⟩, .head (.send rfl) ?_, hx.symm, hrep, rfl⟩
      have hlose := @reaches_loseRequests Q A β M D O S p' [] [m] replies n d' (List.nil_sublist _)
        requests
      rwa [List.append_nil] at hlose
    · exact ⟨⟨requests ++ [m], replies, n, d'⟩, .single (.send rfl), hx.symm, hrep, rfl⟩
  | @skip accept k there held chunk rest d hskip =>
    obtain ⟨here, later, hsplit, -, hlater⟩ := hL.split
    obtain ⟨requests, replies, n, d'⟩ := L
    obtain ⟨hreq, -, hserver⟩ := hL
    obtain rfl : d' = d := hserver
    dsimp only at hreq hsplit
    subst hsplit
    exact ⟨⟨requests, later, n, d'⟩, reaches_loseReplies (List.sublist_append_right here later) [],
      hreq, hlater, rfl⟩
  | @answer accept k there held chunk rest d r hr =>
    obtain ⟨here, later, hsplit, hhere, hlater⟩ := hL.split
    obtain ⟨requests, replies, n, d'⟩ := L
    obtain ⟨hreq, -, hserver⟩ := hL
    obtain rfl : d' = d := hserver
    dsimp only at hreq hsplit
    -- What is decoded behind the message that the program accepts is lost.
    rw [← hhere] at hr
    obtain ⟨ha, ps, qs, hps, hnone⟩ := List.find?_eq_some_iff_append.mp hr
    obtain ⟨pre, post', rfl, rfl, hpost⟩ := List.map_eq_append_iff.mp hps
    obtain ⟨q, post, rfl, rfl, rfl⟩ := List.map_eq_cons_iff.mp hpost
    subst hsplit
    have hread : Link.Read (.free M D) accept
        ⟨requests, pre ++ q :: post ++ later, n, d'⟩ (some q.response)
        ⟨requests, post ++ later, 0, d'⟩ := by
      rw [List.append_assoc, List.cons_append]
      exact .answer (fun r hr => by simpa using hnone r.response (List.mem_map_of_mem hr)) ha rfl
    exact ⟨⟨requests, later, 0, d'⟩, .head (.recv hread)
      (reaches_loseReplies (List.sublist_append_right post later) []), hreq, hlater, rfl⟩
  | expire =>
    obtain ⟨requests, replies, n, d⟩ := L
    obtain ⟨hreq, hrep, hserver⟩ := hL
    refine ⟨⟨requests, replies, n + 1, d⟩, .single (.recv ?_), hreq, hrep, hserver⟩
    exact @Link.Read.expire M D (.free M D) _ requests [] replies n d (by simp) rfl

/-- **A wire is a link that loses messages.** -/
theorem Wire.simulates : Simulates (fun (c : Prog Q A M β × Wire α D) c' => c'.1 = c.1 ∧
      c.2.Shows T B c'.2) (Wire.Step S T B) (Env.Step (fifo S (.free M D))) := by
  rintro ⟨p, w⟩ ⟨p', w'⟩ ⟨_, L⟩ ⟨rfl, hL⟩ hstep
  obtain ⟨L', hr, hL'⟩ := hstep.matched hL
  exact ⟨(p', L'), hr, rfl, hL'⟩

end Simulates

end Wire
end OtaLink.Lib
