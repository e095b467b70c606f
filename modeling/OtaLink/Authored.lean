import OtaLink.Locked
import OtaLink.Secrecy

/-!
# Everything has its author

The invariant of the client, the device and the attacker. Every octet on the link has been
made by the client or by the device. The device's session is one it has drawn, and an
authenticated session is one the client has proved; what the client has proved the device
has drawn. A request is executed only if the client has built it under the session key of
the device, and an ACK is signed only for a request that has been executed.

## Main definitions

* `Authored` — the invariant.
* `Authored.rely` — what happens without the client keeps it.
* `Authored.challenge`, `Authored.proof`, `Authored.request`, `Authored.open` — so does every
  packet of the client.
-/

namespace OtaLink
open Lib

/-! ## The log grows -/

section Log
variable {log later : List (Happening Octet)} {psk key payload body : List Octet}
  {q : NoncePair Octet} {c : Command} {n : UInt16} {r : UInt8}

theorem Drawn.mono (h : Drawn log q) (hl : log ⊆ later) : Drawn later q := by
  obtain ⟨d, esp, m, hm, h⟩ := h
  exact ⟨d, esp, m, hl hm, h⟩

theorem Proved.mono (h : Proved log psk q) (hl : log ⊆ later) : Proved later psk q := by
  obtain ⟨m, hm, h⟩ := h
  exact ⟨m, hl hm, h⟩

theorem Built.mono (h : Built log key c n payload) (hl : log ⊆ later) :
    Built later key c n payload := ⟨h.1, hl h.2⟩

theorem Signed.mono (h : Signed log key c r n body) (hl : log ⊆ later) :
    Signed later key c r n body := by
  obtain ⟨d, esp, m, hm, h⟩ := h
  exact ⟨d, esp, m, hl hm, h⟩

theorem Executed.mono (h : Executed log key c n payload) (hl : log ⊆ later) :
    Executed later key c n payload := by
  obtain ⟨d, esp, hm, h⟩ := h
  exact ⟨d, esp, hl hm, h⟩

/-- What the device does adds nothing to what the client has sent. -/
@[simp] theorem proved_handled {d : Device Octet} {esp : EspIdf Octet} {m : Packet Octet} :
    Proved (.handled d esp m :: log) psk q ↔ Proved log psk q := by simp [Proved]
@[simp] theorem built_handled {d : Device Octet} {esp : EspIdf Octet} {m : Packet Octet} :
    Built (.handled d esp m :: log) key c n payload ↔ Built log key c n payload := by simp [Built]
@[simp] theorem proved_reset : Proved (.reset :: log) psk q ↔ Proved log psk q := by simp [Proved]
@[simp] theorem built_reset : Built (.reset :: log) key c n payload ↔
    Built log key c n payload := by simp [Built]
@[simp] theorem drawn_reset : Drawn (.reset :: log) q ↔ Drawn log q := by simp [Drawn]
@[simp] theorem signed_reset : Signed (.reset :: log) key c r n body ↔
    Signed log key c r n body := by simp [Signed]
@[simp] theorem executed_reset : Executed (.reset :: log) key c n payload ↔
    Executed log key c n payload := by simp [Executed]

/-- What the client does adds nothing to what the device has done. -/
@[simp] theorem drawn_built {m : Packet Octet} : Drawn (.built m :: log) q ↔ Drawn log q := by
  simp [Drawn]
@[simp] theorem signed_built {m : Packet Octet} : Signed (.built m :: log) key c r n body ↔
    Signed log key c r n body := by simp [Signed]
@[simp] theorem executed_built {m : Packet Octet} : Executed (.built m :: log) key c n payload ↔
    Executed log key c n payload := by simp [Executed]

variable {d : Device Octet} {esp : EspIdf Octet} {m : Packet Octet}

theorem drawn_handled : Drawn (.handled d esp m :: log) q ↔
    (m.draws = true ∧ m.payload = q.client ∧ esp.fillRandom = q.server) ∨ Drawn log q := by
  constructor
  · rintro ⟨d', esp', m', hmem, h⟩
    rcases List.mem_cons.mp hmem with heq | hmem
    · cases heq
      exact .inl h
    · exact .inr ⟨d', esp', m', hmem, h⟩
  · rintro (h | h)
    · exact ⟨d, esp, m, List.mem_cons_self, h⟩
    · exact h.mono (List.subset_cons_self _ _)

theorem signed_handled (h : Signed (.handled d esp m :: log) key c r n body) :
    (∃ p ∈ sent (d.step esp m).2, p.command = r ∧ p.sequence = n ∧
      p.payload = body ++ responseTag key c.code r n body) ∨ Signed log key c r n body := by
  obtain ⟨d', esp', m', hmem, h⟩ := h
  rcases List.mem_cons.mp hmem with heq | hmem
  · cases heq
    exact .inl h
  · exact .inr ⟨d', esp', m', hmem, h⟩

theorem executed_handled (h : Executed (.handled d esp m :: log) key c n payload) :
    (d.auth.authenticated = true ∧ d.auth.sessionKey = key ∧
      .operate c n payload .ok ∈ (d.step esp m).2) ∨ Executed log key c n payload := by
  obtain ⟨d', esp', hmem, ha, hkey, ho, hcarried⟩ := h
  rcases List.mem_cons.mp hmem with heq | hmem
  · cases heq
    exact .inl ⟨ha, hkey, ho⟩
  · exact .inr ⟨d', esp', hmem, ha, hkey, ho, hcarried⟩

end Log

/-! ## The invariant -/

/-- The device has a session for `q`, proved or not. -/
def Live (d : Device Octet) (q : NoncePair Octet) : Prop :=
  (d.auth.pending = true ∨ d.auth.authenticated = true) ∧ d.auth.pair = q

/-- Everything on the link has been made by the client or the device. -/
structure Authored (psk : List Octet) (s : Net) : Prop where
  required : s.device.auth.required = true
  key : s.device.auth.key = psk
  known : ∀ a, s.Knows a → Sym.Derives (Emitted psk s.log) a
  live : s.device.auth.pending = true ∨ s.device.auth.authenticated = true →
    s.device.auth.sessionKey = s.device.auth.pair.sessionKey psk ∧ Drawn s.log s.device.auth.pair
  proved : s.device.auth.authenticated = true → Proved s.log psk s.device.auth.pair
  drawn {q : NoncePair Octet} (h : Proved s.log psk q) : Drawn s.log q
  built {q : NoncePair Octet} {c : Command} {n : UInt16} {payload : List Octet}
    (h : Built s.log (q.sessionKey psk) c n payload) : Proved s.log psk q
  cache : ∀ entry ∈ s.device.auth.replayCache.entries, ∃ c body,
    entry.responsePayload = body ++
      responseTag s.device.auth.sessionKey c.code entry.responseCommand entry.sequence body ∧
    Signed s.log s.device.auth.sessionKey c entry.responseCommand entry.sequence body
  executed {q : NoncePair Octet} {c : Command} {n : UInt16} {payload : List Octet}
    (h : Executed s.log (q.sessionKey psk) c n payload) :
    Built s.log (q.sessionKey psk) c n payload
  acked {q : NoncePair Octet} {c : Command} {n : UInt16} {body : List Octet}
    (h : Signed s.log (q.sessionKey psk) c Command.ack.code n body) :
    body = statusPayload .ok ∧ ∃ payload, Executed s.log (q.sessionKey psk) c n payload
  /-- Nothing of the session of the device has happened before its challenge. -/
  recent {q : NoncePair Octet} (hl : Live s.device q) : ¬Proved (earlier s.log) psk q ∧
    (∀ c n payload, ¬Built (earlier s.log) (q.sessionKey psk) c n payload) ∧
    (s.device.auth.authenticated = true → Admitted (session s.log) psk q)

section Authored
variable {psk : List Octet} {s : Net} {esp : EspIdf Octet} {m : Packet Octet}

theorem Authored.derives (A : Authored psk s) {payload : List Octet} (h : s.Derives payload) :
    ∀ a ∈ payload, Sym.Derives (Emitted psk s.log) a := fun a ha => (h a ha).trans A.known

theorem derives_public {known : Octet → Prop} {payload : List Octet} (h : IsPublic payload) :
    ∀ a ∈ payload, Sym.Derives known a := by
  obtain ⟨bytes, rfl⟩ := h
  intro a ha
  obtain ⟨b, -, rfl⟩ := List.mem_map.mp ha
  exact .lit b

theorem isPublic_statusPayload (error : ProtocolError) : IsPublic (statusPayload error) :=
  ⟨[error.code], rfl⟩

/-- The tag of a response determines its key and the request. -/
theorem responseTag_inj {key key' body body' : List Octet} {c c' : Command} {r : UInt8}
    {n : UInt16} (h : body ++ responseTag key c.code r n body =
      body' ++ responseTag key' c'.code r n body') : key = key' ∧ c = c' ∧ body = body' := by
  obtain ⟨hbody, htag⟩ := List.append_inj' h (by simp)
  obtain ⟨hkey, hinput⟩ := (Sym.take_mac_inj (by decide)).mp htag
  exact ⟨hkey, Command.code_inj.mp (responseInput_inj hinput).1, hbody⟩

/-! ### A step of the device -/

section Device
variable (A : Authored psk s) (hpsk : IsSecret psk) (hm : s.Derives m.payload)
  (hesp : s.Allows esp m)
include A

theorem Authored.known_seen {r : Packet Octet} (h : ∃ x ∈ s.log, r ∈ x.said) :
    ∀ a ∈ r.payload, Sym.Derives (Emitted psk s.log) a := by
  intro a ha
  obtain ⟨x, hx, hr⟩ := h
  exact A.known a ⟨x, hx, r, hr, ha⟩

omit A in
/-- A signed response is on the log. -/
theorem signed_of_sent {key : List Octet} {c : Command} {n : UInt16} {error : ProtocolError}
    (hs : sent (s.device.step esp m).2 = [signed key c n error]) :
    Signed (s.handle esp m).log key c (responseFor error).code n (statusPayload error) :=
  ⟨s.device, esp, m, List.mem_cons_self, signed key c n error, by simp [hs], rfl, rfl, rfl⟩

omit A in
/-- A challenge that is answered draws a pair. -/
theorem drawn_of_challenge (hd : m.draws = true) (hn : m.payload.length = authNonceSize) :
    Drawn (s.handle esp m).log ⟨m.payload, esp.fillRandom, hn, esp.length_fillRandom⟩ :=
  drawn_handled.mpr (.inl ⟨hd, rfl, rfl⟩)

omit A in
theorem log_subset_handle : s.log ⊆ (s.handle esp m).log := List.subset_cons_self _ _

include hesp in
/-- Whatever the device says has an author. -/
theorem Authored.said {r : Packet Octet} (hr : r ∈ sent (s.device.step esp m).2) :
    ∀ a ∈ r.payload, Sym.Derives (Emitted psk (s.handle esp m).log) a := by
  have hstep := step_locked A.required esp m
  generalize hauth : (s.device.step esp m).1.auth = auth at hstep
  generalize hevents : (s.device.step esp m).2 = events at hstep
  cases hstep with
  | plain hd hs hpay =>
    rw [hevents, hs, List.mem_singleton] at hr
    rcases hpay with hpay | ⟨error, hpay⟩
    · rw [hr, hpay]
      exact derives_public hesp.info
    · rw [hr, hpay]
      exact derives_public (isPublic_statusPayload error)
  | challenge hd hn =>
    simp only [hevents, sent_cons, Event.sent?, Option.toList, sent_nil, List.nil_append,
      List.append_nil, List.mem_singleton] at hr
    subst hr
    intro a ha
    rcases List.mem_append.mp ha with ha | ha
    · rcases List.mem_append.mp ha with ha | ha
      · exact derives_public (isPublic_statusPayload .ok) a ha
      · exact derives_public hesp.nonce a ha
    · rw [A.key] at ha
      obtain ⟨i, rfl⟩ := Sym.exists_of_mem_mac (List.mem_of_mem_take ha)
      exact .seen (.deviceProof (drawn_of_challenge hd hn) i) trivial
  | proof =>
    simp only [hevents, sent_cons, Event.sent?, Option.toList, sent_nil, List.nil_append,
      List.append_nil, List.mem_singleton] at hr
    subst hr
    exact derives_public (isPublic_statusPayload .ok)
  | resent hd ha hentry hn =>
    simp only [hevents, sent_cons, Event.sent?, Option.toList, sent_nil, List.nil_append,
      List.append_nil, List.mem_singleton] at hr
    subst hr
    obtain ⟨c, body, hpay, d, e, p, hp, r, hr, -, -, hbody⟩ := A.cache _ hentry
    intro a ha
    refine (A.known_seen ⟨_, hp, hr⟩ a ?_).mono fun _ h => h.mono log_subset_handle
    rwa [hbody, ← hpay]
  | answered hd hp ha hs =>
    have hsigned := signed_of_sent (s := s) (by rw [hevents]; exact hs)
    rw [hevents, hs, List.mem_singleton] at hr
    subst hr
    intro a ha'
    rcases List.mem_append.mp ha' with ha' | ha'
    · exact derives_public (isPublic_statusPayload _) a ha'
    · rw [(A.live (.inr ha)).1] at ha' hsigned
      obtain ⟨i, rfl⟩ := Sym.exists_of_mem_mac (List.mem_of_mem_take ha')
      exact .seen (.response hsigned i) trivial

include hesp in
theorem Authored.known_handle {a : Octet} (h : (s.handle esp m).Knows a) :
    Sym.Derives (Emitted psk (s.handle esp m).log) a := by
  obtain ⟨x, hx, r, hr, ha⟩ := h
  rcases List.mem_cons.mp hx with rfl | hx
  · exact A.said hesp hr a ha
  · exact (A.known a ⟨x, hx, r, hr, ha⟩).mono fun _ h => h.mono log_subset_handle

/-- A live session after the step is the one before, or has just been drawn. -/
theorem Authored.live_handle (h : (s.handle esp m).device.auth.pending = true ∨
      (s.handle esp m).device.auth.authenticated = true) :
    (s.handle esp m).device.auth.sessionKey = (s.handle esp m).device.auth.pair.sessionKey psk ∧
      Drawn (s.handle esp m).log (s.handle esp m).device.auth.pair := by
  have hstep := step_locked A.required esp m
  simp only [Net.handle] at h ⊢
  generalize (s.device.step esp m).1.auth = auth at hstep h ⊢
  generalize (s.device.step esp m).2 = events at hstep
  have hold : s.device.auth.pending = true ∨ s.device.auth.authenticated = true →
      s.device.auth.sessionKey = s.device.auth.pair.sessionKey psk ∧
        Drawn (.handled s.device esp m :: s.log) s.device.auth.pair := fun h =>
    ⟨(A.live h).1, (A.live h).2.mono (List.subset_cons_self _ _)⟩
  cases hstep with
  | plain => exact hold h
  | challenge hd hn =>
    refine ⟨?_, drawn_of_challenge hd hn⟩
    rw [← A.key]
    rfl
  | proof _ hs => exact hold hs
  | resent => exact hold h
  | answered _ _ ha _ hauth =>
    rcases hauth with rfl | ⟨-, rfl⟩
    · simp [Device.restarted, AuthState.cleared] at h
    · simpa [AuthState.pair] using hold (.inr ha)

include hpsk hm in
theorem Authored.proved_handle (h : (s.handle esp m).device.auth.authenticated = true) :
    Proved (s.handle esp m).log psk (s.handle esp m).device.auth.pair := by
  have hstep := step_locked A.required esp m
  simp only [Net.handle] at h ⊢
  rw [proved_handled]
  generalize (s.device.step esp m).1.auth = auth at hstep h ⊢
  generalize (s.device.step esp m).2 = events at hstep
  cases hstep with
  | plain => exact A.proved h
  | challenge => cases h
  | proof _ _ hpay =>
    refine proved_of_derives hpsk fun a ha => A.derives hm a ?_
    rw [hpay, A.key]
    exact List.mem_append_right _ ha
  | resent => exact A.proved h
  | answered _ _ ha _ hauth =>
    rcases hauth with rfl | ⟨-, rfl⟩
    · cases h
    · simpa [AuthState.pair] using A.proved ha

theorem Authored.cache_handle : ∀ entry ∈ (s.handle esp m).device.auth.replayCache.entries,
    ∃ c body, entry.responsePayload = body ++ responseTag (s.handle esp m).device.auth.sessionKey
        c.code entry.responseCommand entry.sequence body ∧
      Signed (s.handle esp m).log (s.handle esp m).device.auth.sessionKey c entry.responseCommand
        entry.sequence body := by
  have hstep := step_locked A.required esp m
  have hdevice : (s.handle esp m).device = (s.device.step esp m).1 := rfl
  rw [hdevice]
  generalize (s.device.step esp m).1.auth = auth at hstep ⊢
  generalize hevents : (s.device.step esp m).2 = events at hstep
  have hold : ∀ entry ∈ s.device.auth.replayCache.entries, ∃ c body,
      entry.responsePayload = body ++ responseTag s.device.auth.sessionKey c.code
        entry.responseCommand entry.sequence body ∧
      Signed (s.handle esp m).log s.device.auth.sessionKey c entry.responseCommand entry.sequence
        body := by
    intro entry hentry
    obtain ⟨c, body, hpay, hs⟩ := A.cache entry hentry
    exact ⟨c, body, hpay, hs.mono log_subset_handle⟩
  cases hstep with
  | plain => exact hold
  | challenge => simp [AuthState.challenged]
  | proof => exact hold
  | resent => exact hold
  | answered _ hp ha hs hauth =>
    rcases hauth with rfl | ⟨hc, rfl⟩
    · simp [Device.restarted, AuthState.cleared]
    · have hsigns : s.device.auth.signs m.command = true := by
        simp [AuthState.signs, A.required, ha, hc, hp]
      have hsigned := signed_of_sent (s := s) (by rw [hevents]; exact hs)
      rw [AuthState.remember, if_pos hsigns]
      intro entry hentry
      rcases Ring.mem_entries_insert hentry with rfl | hentry
      · exact ⟨_, _, by simp [AuthState.entryFor, hc], hsigned⟩
      · exact hold entry hentry

include hpsk hm in
/-- Only a request of the client is executed. -/
theorem Authored.built_of_operate {c : Command} {n : UInt16} {payload : List Octet}
    {error : ProtocolError} (h : .operate c n payload error ∈ (s.device.step esp m).2) :
    m = tagged s.device.auth.sessionKey c n payload ∧ s.device.auth.authenticated = true ∧
      Built s.log s.device.auth.sessionKey c n payload := by
  have hstep := step_locked A.required esp m
  generalize (s.device.step esp m).1.auth = auth at hstep
  generalize (s.device.step esp m).2 = events at hstep h
  cases hstep with
  | plain _ _ _ ho => simpa [Event.isOperate] using ho _ h
  | challenge | proof | resent => simp at h
  | answered _ _ ha _ _ ho =>
    obtain ⟨p, htagged, heq⟩ := ho _ h rfl
    cases heq
    refine ⟨htagged, ha, ?_⟩
    rw [(A.live (.inr ha)).1] at htagged ⊢
    refine built_of_derives hpsk fun a ha => A.derives hm a ?_
    rw [htagged]
    exact List.mem_append_right _ ha

include hpsk hm in
theorem Authored.executed_handle {q : NoncePair Octet} {c : Command} {n : UInt16}
    {payload : List Octet} (h : Executed (s.handle esp m).log (q.sessionKey psk) c n payload) :
    Built (s.handle esp m).log (q.sessionKey psk) c n payload := by
  refine Built.mono ?_ log_subset_handle
  rcases executed_handled h with ⟨-, hkey, h⟩ | h
  · rw [← hkey]
    exact (A.built_of_operate hpsk hm h).2.2
  · exact A.executed h

omit A in
/-- No tag is public. -/
theorem not_isPublic_tag {key body : List Octet} {c r : UInt8} {n : UInt16} :
    ¬IsPublic (body ++ responseTag key c r n body) := by
  rintro ⟨bytes, h⟩
  have hmem : Sym.macAt (Sym.pack key) (Sym.pack (responseInput c r n body)) 0 ∈ octets bytes := by
    rw [← h]
    exact List.mem_append_right _ (Sym.macAt_zero_mem_take (by decide) _ _)
  obtain ⟨b, -, hb⟩ := List.mem_map.mp hmem
  cases hb

include hpsk hesp in
/-- The device acknowledges what it has executed. -/
theorem Authored.acked_handle {q : NoncePair Octet} {c : Command} {n : UInt16}
    {body : List Octet}
    (h : Signed (s.handle esp m).log (q.sessionKey psk) c Command.ack.code n body) :
    body = statusPayload .ok ∧
      ∃ payload, Executed (s.handle esp m).log (q.sessionKey psk) c n payload := by
  have hold : Signed s.log (q.sessionKey psk) c Command.ack.code n body →
      body = statusPayload .ok ∧
        ∃ payload, Executed (s.handle esp m).log (q.sessionKey psk) c n payload := by
    intro h
    obtain ⟨hbody, payload, h⟩ := A.acked h
    exact ⟨hbody, payload, h.mono log_subset_handle⟩
  rcases signed_handled h with ⟨r, hr, hcommand, hn, hpay⟩ | h
  swap
  · exact hold h
  have hstep := step_locked A.required esp m
  generalize (s.device.step esp m).1.auth = auth at hstep
  generalize hevents : (s.device.step esp m).2 = events at hstep hr
  cases hstep with
  | plain _ hs hplain =>
    rw [hs, List.mem_singleton] at hr
    subst hr
    rcases hplain with hplain | ⟨error, hplain⟩
    · exact absurd (hpay ▸ hplain ▸ hesp.info) not_isPublic_tag
    · exact absurd (hpay ▸ hplain ▸ isPublic_statusPayload error) not_isPublic_tag
  | challenge =>
    simp only [sent_cons, Event.sent?, Option.toList, sent_nil, List.nil_append,
      List.append_nil, List.mem_singleton] at hr
    subst hr
    obtain ⟨-, htag⟩ := List.append_inj' hpay (by simp)
    rw [A.key] at htag
    exact absurd ((Sym.take_mac_inj (by decide)).mp htag).1.symm (sessionKey_ne hpsk q)
  | proof =>
    simp only [sent_cons, Event.sent?, Option.toList, sent_nil, List.nil_append,
      List.append_nil, List.mem_singleton] at hr
    subst hr
    have hpublic : IsPublic (ackFrame m.sequence : Packet Octet).payload :=
      isPublic_statusPayload .ok
    exact absurd (hpay ▸ hpublic) not_isPublic_tag
  | @resent entry _ _ hentry hseq =>
    simp only [sent_cons, Event.sent?, Option.toList, sent_nil, List.nil_append,
      List.append_nil, List.mem_singleton] at hr
    subst hr
    obtain ⟨c', body', hpay', hs⟩ := A.cache entry hentry
    have hr : entry.responseCommand = Command.ack.code := hcommand
    have hn : entry.sequence = n := hseq.trans hn
    rw [hr, hn] at hpay' hs
    obtain ⟨hkey, rfl, rfl⟩ := responseTag_inj (hpay'.symm.trans hpay)
    rw [hkey] at hs
    exact hold hs
  | @answered c' error _ _ _ _ ha hs _ ho hok =>
    rw [hs, List.mem_singleton] at hr
    subst hr
    have herror : error = .ok := by
      by_contra hne
      rw [signed, responseFor_of_ne hne] at hcommand
      have hcode : Command.nack.code = Command.ack.code := hcommand
      exact absurd (Command.code_inj.mp hcode) (by decide)
    subst herror
    obtain rfl : m.sequence = n := hn
    obtain ⟨hkey, rfl, rfl⟩ := responseTag_inj hpay
    obtain ⟨payload, hoperate⟩ := hok rfl
    obtain ⟨_, htagged, heq⟩ := ho _ hoperate rfl
    cases heq
    rw [← hevents] at hoperate
    rw [hkey] at htagged
    rw [htagged] at hoperate
    refine ⟨rfl, payload, s.device, esp, ?_, ha, hkey, hoperate, carriedOut_of_step esp hoperate⟩
    exact htagged ▸ List.mem_cons_self

omit A in
/-- A live session after the step is the one before, or has just been drawn. -/
theorem live_of_handle (hr : s.device.auth.required = true) (h : Live (s.handle esp m).device q) :
    (m.draws = true ∧ q.server = esp.fillRandom) ∨ (m.draws = false ∧ Live s.device q) := by
  have hstep := step_locked hr esp m
  obtain ⟨hlive, rfl⟩ := h
  simp only [Net.handle] at hlive ⊢
  generalize (s.device.step esp m).1.auth = auth at hstep hlive ⊢
  generalize (s.device.step esp m).2 = events at hstep
  cases hstep with
  | plain hm => exact .inr ⟨hm, hlive, rfl⟩
  | challenge hm => exact .inl ⟨hm, rfl⟩
  | proof hm hs => exact .inr ⟨hm, hs, rfl⟩
  | resent hm => exact .inr ⟨hm, hlive, rfl⟩
  | answered hm _ ha _ hauth =>
    rcases hauth with rfl | ⟨-, rfl⟩
    · simp [Device.restarted, AuthState.cleared] at hlive
    · exact .inr ⟨hm, .inr ha, by simp [AuthState.pair]⟩

include hesp in
/-- A pair that is being drawn has not been proved. -/
theorem Authored.not_proved_new (hd : m.draws = true) (hq : q.server = esp.fillRandom) :
    ¬Proved s.log psk q := by
  intro h
  obtain ⟨d, e, p, hp, hd', -, hs⟩ := A.drawn h
  exact hesp.fresh hd d e p hp hd' (hs.trans hq)

omit A in
/-- A device that starts again has no session. -/
theorem not_live_of_reboots (h : (s.device.step esp m).2.any Event.reboots = true)
    {q : NoncePair Octet} : ¬Live (s.handle esp m).device q := by
  have hh : (s.device.handle esp m).2.any Event.reboots = true := by
    simpa [Device.step, Event.reboots] using h
  simp [Live, Net.handle, Device.step, hh, Device.restarted, AuthState.cleared]

/-- An authenticated device was so before, or has just accepted a proof. -/
theorem Authored.authenticated_handle
    (h : (s.handle esp m).device.auth.authenticated = true) :
    s.device.auth.authenticated = true ∨ (m.payload = s.device.auth.pair.proof psk ∧
      .send (ackFrame m.sequence) ∈ (s.device.step esp m).2) := by
  have hstep := step_locked A.required esp m
  simp only [Net.handle] at h
  generalize (s.device.step esp m).1.auth = auth at hstep h
  generalize (s.device.step esp m).2 = events at hstep ⊢
  cases hstep with
  | plain => exact .inl h
  | challenge => cases h
  | proof _ _ hpay =>
    rw [A.key] at hpay
    exact .inr ⟨hpay, by simp⟩
  | resent => exact .inl h
  | answered _ _ ha => exact .inl ha

include hpsk hm hesp in
theorem Authored.recent_handle {q : NoncePair Octet} (hl : Live (s.handle esp m).device q) :
    ¬Proved (earlier (s.handle esp m).log) psk q ∧
    (∀ c n payload, ¬Built (earlier (s.handle esp m).log) (q.sessionKey psk) c n payload) ∧
    ((s.handle esp m).device.auth.authenticated = true →
      Admitted (session (s.handle esp m).log) psk q) := by
  rcases live_of_handle A.required hl with ⟨hd, hs⟩ | ⟨hd, hold⟩
  · -- Nobody knows the nonce yet.
    have hnot := A.not_proved_new hesp hd hs
    have hearlier : earlier (s.handle esp m).log = (s.handle esp m).log :=
      earlier_of_restarts (by simp [Happening.restarts, hd])
    rw [hearlier]
    refine ⟨fun h => hnot (proved_handled.mp h),
      fun _ _ _ h => hnot (A.built (built_handled.mp h)), fun ha => ?_⟩
    obtain ⟨-, rfl⟩ := hl
    exact absurd (proved_handled.mp (A.proved_handle hpsk hm ha)) hnot
  · have hrestarts : (Happening.handled s.device esp m).restarts = false := by
      have hr : (s.device.step esp m).2.any Event.reboots = false := by
        by_contra h
        exact not_live_of_reboots (by simpa using h) hl
      simp [Happening.restarts, hd, hr]
    obtain ⟨hp, hb, ha⟩ := A.recent hold
    simp only [Net.handle, session_cons hrestarts, earlier_cons hrestarts]
    refine ⟨hp, hb, fun h => ?_⟩
    rcases A.authenticated_handle h with h | ⟨hpay, hsent⟩
    · obtain ⟨d, e, p, hp, hpay, hsent⟩ := ha h
      exact ⟨d, e, p, List.mem_cons_of_mem _ hp, hpay, hsent⟩
    · rw [hold.2] at hpay
      exact ⟨_, _, _, List.mem_cons_self, hpay, hsent⟩

include hpsk hm hesp in
/-- **A step of the device.** -/
theorem Authored.handle : Authored psk (s.handle esp m) where
  required := (required_step s.device esp m).trans A.required
  key := by
    have h := congrArg (fun d : Device Octet => d.auth.key) (restarted_step s.device esp m)
    exact Eq.trans h A.key
  known _ := A.known_handle hesp
  live := A.live_handle
  proved := A.proved_handle hpsk hm
  drawn h := (A.drawn (proved_handled.mp h)).mono log_subset_handle
  built h := proved_handled.mpr (A.built (built_handled.mp h))
  cache := A.cache_handle
  executed := A.executed_handle hpsk hm
  acked := A.acked_handle hpsk hesp
  recent := A.recent_handle hpsk hm hesp

end Device

/-- A device that has lost power has no session. -/
theorem Authored.reset (A : Authored psk s) : Authored psk s.reset where
  required := A.required
  key := A.key
  known a h := by
    obtain ⟨x, hx, r, hr, ha⟩ := h
    rcases List.mem_cons.mp hx with rfl | hx
    · cases hr
    · exact (A.known a ⟨x, hx, r, hr, ha⟩).mono fun _ h => h.mono (List.subset_cons_self _ _)
  live h := by simp [Net.reset, Device.restarted, AuthState.cleared] at h
  proved h := by cases h
  drawn h := drawn_reset.mpr (A.drawn (proved_reset.mp h))
  built h := proved_reset.mpr (A.built (built_reset.mp h))
  cache := by simp [Net.reset, Device.restarted, AuthState.cleared]
  executed h := built_reset.mpr (A.executed (executed_reset.mp h))
  acked h := by
    obtain ⟨hbody, payload, h⟩ := A.acked (signed_reset.mp h)
    exact ⟨hbody, payload, executed_reset.mpr h⟩
  recent hl := by simp [Live, Net.reset, Device.restarted, AuthState.cleared] at hl

/-- **What happens without the client.** -/
theorem Authored.rely {s' : Net} (hpsk : IsSecret psk) (A : Authored psk s) (h : s.Rely s') :
    Authored psk s' := by
  cases h with
  | handle hm hesp => exact A.handle hpsk hm hesp
  | reset => exact A.reset

/-! ### A step of the client -/

section Client
variable {q : NoncePair Octet} {c : Command} {n : UInt16} {payload : List Octet}

theorem proved_build : Proved (s.build m).log psk q ↔
    m.payload = q.proof psk ∨ Proved s.log psk q := by
  simp only [Proved, Net.build, List.mem_cons, Happening.built.injEq, or_and_right, exists_or,
    exists_eq_left]

theorem built_build {key : List Octet} : Built (s.build m).log key c n payload ↔
    (c.isProtected = true ∧ m = tagged key c n payload) ∨ Built s.log key c n payload := by
  simp only [Built, Net.build, List.mem_cons, Happening.built.injEq, eq_comm, and_or_left]

theorem log_subset_build : s.log ⊆ (s.build m).log := List.subset_cons_self _ _

/-- A packet that carries no proof but those the client has sent before. -/
def ProvesNothing (psk : List Octet) (s : Net) (m : Packet Octet) : Prop :=
  ∀ q : NoncePair Octet, m.payload = q.proof psk → Proved s.log psk q

theorem ProvesNothing.proved (h : ProvesNothing psk s m) :
    Proved (s.build m).log psk q ↔ Proved s.log psk q := by
  rw [proved_build]
  exact ⟨fun hq => hq.elim (h q) id, .inr⟩

/-- The proof of a pair determines it. -/
theorem proof_inj {q' : NoncePair Octet} (h : q.proof psk = q'.proof psk) : q = q' := by
  obtain ⟨-, htag⟩ := List.append_inj' h (by simp [NoncePair.authProof])
  exact (pair_of_append rfl ((Sym.take_mac_inj (by decide)).mp htag).2).2

/-- A packet of the client whose octets have an author, that proves a drawn pair only and
tags a request under the key of a proved pair only. -/
theorem Authored.build (A : Authored psk s)
    (hsaid : ∀ a ∈ m.payload, Sym.Derives (Emitted psk (s.build m).log) a)
    (hproof : ∀ q : NoncePair Octet, m.payload = q.proof psk → Drawn s.log q)
    (htag : ∀ (q : NoncePair Octet) c n payload, c.isProtected = true →
      m = tagged (q.sessionKey psk) c n payload → Proved s.log psk q) :
    Authored psk (s.build m) where
  required := A.required
  key := A.key
  known a h := by
    obtain ⟨x, hx, r, hr, ha⟩ := h
    rcases List.mem_cons.mp hx with rfl | hx
    · rw [List.mem_singleton.mp hr] at ha
      exact hsaid a ha
    · exact (A.known a ⟨x, hx, r, hr, ha⟩).mono fun _ h => h.mono log_subset_build
  live h := ⟨(A.live h).1, (A.live h).2.mono log_subset_build⟩
  proved h := (A.proved h).mono log_subset_build
  drawn {q} h := by
    refine Drawn.mono ?_ log_subset_build
    rcases proved_build.mp h with h | h
    · exact hproof q h
    · exact A.drawn h
  built {q} c n payload h := by
    refine Proved.mono ?_ log_subset_build
    rcases built_build.mp h with ⟨hp, h⟩ | h
    · exact htag q c n payload hp h
    · exact A.built h
  cache entry hentry := by
    obtain ⟨c, body, hpay, hs⟩ := A.cache entry hentry
    exact ⟨c, body, hpay, hs.mono log_subset_build⟩
  executed h := (A.executed (executed_built.mp h)).mono log_subset_build
  acked h := by
    obtain ⟨hbody, payload, h⟩ := A.acked (signed_built.mp h)
    exact ⟨hbody, payload, executed_built.mpr h⟩
  recent {q} hl := by
    obtain ⟨hp, hb, ha⟩ := A.recent hl
    refine ⟨hp, hb, fun h => ?_⟩
    obtain ⟨d, e, p, hp, h⟩ := ha h
    exact ⟨d, e, p, List.mem_cons_of_mem _ hp, h⟩

/-- No unprotected request is a tagged one. -/
theorem frame_ne_tagged {key body : List Octet} {c' : Command} {n' : UInt16}
    (hc : c.isProtected = false) (hp : c'.isProtected = true) :
    frame c n payload ≠ tagged key c' n' body := by
  intro h
  have hcode : c.code = c'.code := congrArg Packet.command h
  rw [Command.code_inj.mp hcode, hp] at hc
  cases hc

/-- A challenge proves nothing. -/
theorem provesNothing_challenge {nonce : List Octet} (hl : nonce.length = authNonceSize) :
    ProvesNothing psk s (frame .auth n nonce) := by
  intro q h
  have := congrArg List.length (show nonce = _ from h)
  simp [NoncePair.proof, NoncePair.authProof, q.length_client, hl, authNonceSize] at this

/-- The client sends a challenge. -/
theorem Authored.challenge (A : Authored psk s) {nonce : List Octet}
    (hl : nonce.length = authNonceSize) (hpublic : IsPublic nonce) :
    Authored psk (s.build (frame .auth n nonce)) :=
  A.build (derives_public hpublic) (fun q h => A.drawn (provesNothing_challenge hl q h))
    fun _ _ _ _ hp h => absurd h (frame_ne_tagged rfl hp)

/-- The client proves a pair that the device has drawn. -/
theorem Authored.proof (A : Authored psk s) (hd : Drawn s.log q) (hpublic : IsPublic q.client) :
    Authored psk (s.build (frame .auth n (q.proof psk))) := by
  refine A.build (fun a ha => ?_) (fun q' h => ?_)
    fun _ _ _ _ hp h => absurd h (frame_ne_tagged rfl hp)
  · rcases List.mem_append.mp ha with ha | ha
    · exact derives_public hpublic a ha
    · obtain ⟨i, rfl⟩ := Sym.exists_of_mem_mac (List.mem_of_mem_take ha)
      exact .seen (.authProof ⟨_, List.mem_cons_self, rfl⟩ i) trivial
  · rwa [← proof_inj h]

/-- A request under a session key proves nothing. -/
theorem provesNothing_tagged (hpsk : IsSecret psk) :
    ProvesNothing psk s (tagged (q.sessionKey psk) c n payload) := by
  intro q' h
  obtain ⟨-, htag⟩ := List.append_inj' h (by simp [NoncePair.authProof])
  exact absurd ((Sym.take_mac_inj (by decide)).mp htag).1 (sessionKey_ne hpsk q)

/-- The client sends a request of the session of a pair it has proved. -/
theorem Authored.request (A : Authored psk s) (hpsk : IsSecret psk) (hq : Proved s.log psk q)
    (hp : c.isProtected = true) (hpay : s.Derives payload) :
    Authored psk (s.build (tagged (q.sessionKey psk) c n payload)) := by
  refine A.build (fun a ha => ?_) (fun q' h => A.drawn (provesNothing_tagged hpsk q' h)) ?_
  · rcases List.mem_append.mp ha with ha | ha
    · exact (A.derives hpay a ha).mono fun _ h => h.mono log_subset_build
    · obtain ⟨i, rfl⟩ := Sym.exists_of_mem_mac (List.mem_of_mem_take ha)
      exact .seen (.request ⟨hp, List.mem_cons_self⟩ i) trivial
  · intro q' c' n' payload' _ h
    have hpayload := congrArg Packet.payload h
    obtain ⟨-, htag⟩ := List.append_inj' hpayload (by simp)
    rwa [← sessionKey_inj.mp ((Sym.take_mac_inj (by decide)).mp htag).1]

/-- What the attacker can make proves nothing new. -/
theorem provesNothing_open (A : Authored psk s) (hpsk : IsSecret psk) (hpay : s.Derives payload) :
    ProvesNothing psk s (frame c n payload) := by
  intro q h
  refine proved_of_derives hpsk fun a ha => A.derives hpay a ?_
  have h : payload = q.proof psk := h
  rw [h]
  exact List.mem_append_right _ ha

/-- The client sends an unprotected request. -/
theorem Authored.open (A : Authored psk s) (hpsk : IsSecret psk) (hp : c.isProtected = false)
    (hpay : s.Derives payload) : Authored psk (s.build (frame c n payload)) :=
  A.build (fun a ha => (A.derives hpay a ha).mono fun _ h => h.mono log_subset_build)
    (fun q h => A.drawn (provesNothing_open A hpsk hpay q h))
    fun _ _ _ _ hp' h => absurd h (frame_ne_tagged hp hp')

end Client

end Authored

/-- A device that has just started, with nothing on the link. -/
theorem Authored.start {psk : List Octet} {d : Device Octet} (hr : d.auth.required = true)
    (hk : d.auth.key = psk)
    (hd : d.restarted = d) : Authored psk ⟨d, []⟩ where
  required := hr
  key := hk
  known a h := by simp [Net.Knows] at h
  live h := by
    rw [← hd] at h
    simp [Device.restarted, AuthState.cleared] at h
  proved h := by
    rw [← hd] at h
    cases h
  drawn h := by simp [Proved] at h
  built h := by simp [Built] at h
  cache := by
    rw [← hd]
    simp [Device.restarted, AuthState.cleared]
  executed h := by simp [Executed] at h
  acked h := by simp [Signed] at h
  recent hl := by
    rw [← hd] at hl
    simp [Live, Device.restarted, AuthState.cleared] at hl

/-- The start of a device that requires authentication under a secret key. -/
theorem authored_otaLinkStartWithConfig {n : ℕ} {d₀ : Device Octet}
    (h₀ : otaLinkStartWithConfig ⟨some (pskOctets n), true⟩ = some d₀) :
    IsSecret (pskOctets n) ∧ Authored (pskOctets n) ⟨d₀, []⟩ := by
  obtain ⟨hr, hk, hpos, -⟩ := otaLinkStartWithConfig_required h₀ rfl
  have hk : pskOctets n = d₀.auth.key := Option.some.inj hk
  rw [← hk] at hpos
  exact ⟨isSecret_pskOctets (by simpa [pskOctets] using hpos),
    .start hr hk.symm (restarted_otaLinkStartWithConfig h₀)⟩

/-! ### What is kept -/

/-- The invariant, and the log as it was. -/
structure Since (psk : List Octet) (base : List (Happening Octet)) (s : Net) : Prop
    extends Authored psk s where
  since : base ⊆ s.log

section Since
variable {psk payload body : List Octet} {base : List (Happening Octet)} {q : NoncePair Octet}
  {c : Command} {n : UInt16} {s s' : Net} {m : Packet Octet}

theorem Net.Rely.subset (h : s.Rely s') : s.log ⊆ s'.log := by
  cases h <;> exact List.subset_cons_self _ _

theorem Net.Rely.proved (h : s.Rely s') : Proved s'.log psk q ↔ Proved s.log psk q := by
  cases h with
  | handle => exact proved_handled
  | reset => exact proved_reset

theorem Net.Rely.built (h : s.Rely s') :
    Built s'.log payload c n body ↔ Built s.log payload c n body := by
  cases h with
  | handle => exact built_handled
  | reset => exact built_reset

/-- The attacker forgets nothing. -/
theorem Net.Derives.mono (h : s.Derives payload) (hl : s.log ⊆ s'.log) : s'.Derives payload :=
  fun a ha => (h a ha).mono fun _ ⟨x, hx, hr⟩ => ⟨x, hl hx, hr⟩

theorem Since.rely (hpsk : IsSecret psk) (h : Since psk base s) (hs : s.Rely s') :
    Since psk base s' :=
  ⟨h.toAuthored.rely hpsk hs, fun _ hx => hs.subset (h.since hx)⟩

theorem Since.build (h : Since psk base s) (A : Authored psk (s.build m)) :
    Since psk base (s.build m) := ⟨A, fun _ hx => log_subset_build (h.since hx)⟩

end Since

/-! ## The calls of the client -/

/-- What a task of the client does whatever the attacker does; the invariant holds at every
moment. -/
abbrev Attacked {α : Type} (new : Net → List Octet → Prop) (psk : List Octet)
    (P : HostState Octet → Net → Prop) (x : HostTask Octet α)
    (Ok : α → HostState Octet → Net → Prop) (Err : HostError → HostState Octet → Net → Prop) :
    Prop :=
  Task.Spec (attackerEnv new) (Authored psk) P x Ok Err

section Client
variable {new : Net → List Octet → Prop} {psk : List Octet} {cfg : HostConfig Octet}
  {P R : Net → Prop} {Err : HostError → HostState Octet → Net → Prop}

/-- One packet, up to `retries` times: the first copy leads from `P` to `R`. -/
theorem requestPacket_attacked {m : Packet Octet} (u : HostState Octet)
    (hP : (attackerEnv new).Stable P) (hR : (attackerEnv new).Stable R)
    (hI : ∀ s, P s ∨ R s → Authored psk s) (hfirst : ∀ s, P s → R (s.build m))
    (hagain : ∀ s, R s → R (s.build m)) (hErr : ∀ s, P s ∨ R s → Err .timeout u s) :
    Attacked new psk (fun t s => t = u ∧ P s) (requestPacket cfg m)
      (fun r t s => t = u ∧ R s ∧ s.Derives r.payload) Err := by
  refine Task.Spec.bind (R := fun r t s => t = u ∧ match r with
    | some r => R s ∧ Net.Derives s r.payload
    | none => P s ∨ R s) ?_ fun r => ?_
  · refine (Task.Spec.exchange (W := fun _ t s => t = u ∧ (P s ∨ R s))
      (V := fun _ t s => t = u ∧ R s) ?_ ?_ (fun _ _ s h => hI s h.2)
      (fun _ _ s h => hI s (.inr h.2)) ?_ ?_ ?_ (fun _ _ h => h) cfg.retries).pre
        fun t s h => ⟨h.1, .inl h.2⟩
    · exact fun _ _ s s' hs h => ⟨h.1, h.2.imp (hP s s' hs) (hR s s' hs)⟩
    · exact fun _ _ s s' hs h => ⟨h.1, hR s s' hs h.2⟩
    · rintro _ t s s' ⟨ht, h⟩ rfl
      exact ⟨ht, h.elim (hfirst s) (hagain s)⟩
    · rintro _ t s s' ⟨ht, h⟩ ⟨rfl, -⟩
      exact ⟨ht, .inr h⟩
    · rintro _ t s r s' ⟨ht, h⟩ ⟨rfl, hr⟩
      exact ⟨ht, h, (hr r rfl).2⟩
  · cases r with
    | some r => exact Task.Spec.pure fun t s h => h
    | none =>
      refine Task.Spec.raise ?_
      rintro t s ⟨rfl, h⟩
      exact hErr s h

theorem requestUnprotected_attacked {c : Command} {payload : List Octet} (u : HostState Octet)
    (n : UInt16) (hl : payload.length ≤ protocolMaxPayload) (hP : (attackerEnv new).Stable P)
    (hR : (attackerEnv new).Stable R) (hI : ∀ s, P s ∨ R s → Authored psk s)
    (hfirst : ∀ s, P s → R (s.build (frame c (n + 1) payload)))
    (hagain : ∀ s, R s → R (s.build (frame c (n + 1) payload)))
    (hErr : ∀ s, P s ∨ R s → Err .timeout (u.at (n + 1)) s) :
    Attacked new psk (fun t s => t = u.at n ∧ P s) (requestUnprotected cfg c payload)
      (fun r t s => t = u.at (n + 1) ∧ R s ∧ s.Derives r.payload) Err := by
  refine Task.Spec.bind nextSequence_spec fun m => ?_
  refine Task.Spec.bind (buildPacket_spec fun t s _ h => absurd h (by omega)) fun q => ?_
  rintro t s ⟨⟨t₀, ⟨rfl, h⟩, rfl, rfl⟩, rfl, -⟩
  exact requestPacket_attacked _ hP hR hI hfirst hagain hErr _ _ ⟨rfl, h⟩

/-- A response with the device proof of a pair comes from a device that has drawn it. -/
theorem Authored.drawn_of_deviceProof {s : Net} (A : Authored psk s) (hpsk : IsSecret psk)
    {q : NoncePair Octet} {payload : List Octet} {k : ℕ} (hd : s.Derives payload)
    (h : payload.drop k = q.deviceProof psk) : Drawn s.log q := by
  refine drawn_of_derives hpsk fun a ha => A.derives hd a ?_
  rw [← h] at ha
  exact List.mem_of_mem_drop ha

/-- **The rule for `authenticate`** without a session: `A` holds before the nonce is drawn, `W`
until the proof is sent, and `S` from then on. -/
theorem authenticate_rule {A F : Net → Prop} {W : List Octet → Net → Prop}
    {S : NoncePair Octet → Net → Prop} (hpsk : IsSecret psk) (hkey : cfg.authKey = some psk)
    {u : HostState Octet} (hu : u.authenticated = false) (hA : (attackerEnv new).Stable A)
    (hW : ∀ nonce, (attackerEnv new).Stable (W nonce))
    (hS : ∀ q, (attackerEnv new).Stable (S q)) (hIA : ∀ s, A s → Authored psk s)
    (hIW : ∀ nonce s, W nonce s → Authored psk s) (hIS : ∀ q s, S q s → Authored psk s)
    (hask : ∀ s nonce, A s → new s nonce → W nonce s)
    (hchallenge : ∀ s nonce n, nonce.length = authNonceSize → IsPublic nonce → W nonce s →
      W nonce (s.build (frame .auth n nonce)))
    (hproof : ∀ s q n, Drawn s.log q → IsPublic q.client → W q.client s →
      S q (s.build (frame .auth n (q.proof psk))))
    (hagain : ∀ s q n, Drawn s.log q → IsPublic q.client → S q s →
      S q (s.build (frame .auth n (q.proof psk))))
    (hWF : ∀ nonce s, W nonce s → F s) (hSF : ∀ q s, S q s → F s) :
    Attacked new psk (fun t s => t = u ∧ A s) (authenticate cfg)
      (fun _ t s => ∃ q, t = { u.at (u.sequence + 1 + 1) with
        sessionKey := some (q.sessionKey psk), authenticated := true } ∧ S q s)
      (fun _ t s => t.authenticated = false ∧ F s) := by
  rw [authenticate_eq]
  rw [hkey]
  refine Task.Spec.read_bind fun t₀ => Task.Spec.ite (fun ha => ?_) (fun _ => ?_)
  · rintro t s ⟨rfl, rfl, -⟩
    exact absurd ha (by simp [hu])
  -- The nonce.
  refine Task.Spec.bind (R := fun nonce t s => t = u.at u.sequence ∧ IsPublic nonce.1 ∧
    W nonce.1 s) ?_ fun nonce => ?_
  · refine Task.Spec.ask (fun t s s' hs h => ⟨h.1, h.2.1, hA s s' hs h.2.2⟩)
      (fun _ s h => hIA s h.2.2) ?_
    rintro t s a s' ⟨rfl, rfl, h⟩ ⟨hpublic, hnew, rfl⟩
    exact ⟨rfl, hpublic, hask _ _ h hnew⟩
  obtain ⟨nonce, hl⟩ := nonce
  have hstable : (attackerEnv new).Stable fun s => IsPublic nonce ∧ W nonce s :=
    fun s s' hs h => ⟨h.1, hW nonce s s' hs h.2⟩
  -- The challenge.
  refine Task.Spec.bind (R := fun challenge t s => t = u.at (u.sequence + 1) ∧
    (IsPublic nonce ∧ W nonce s) ∧ s.Derives challenge.payload) ?_ fun challenge => ?_
  · refine (requestUnprotected_attacked u u.sequence (by rw [hl]; decide) hstable hstable ?_ ?_
      ?_ ?_).pre fun t s h => h
    · exact fun s h => h.elim (fun h => hIW _ s h.2) fun h => hIW _ s h.2
    · exact fun s h => ⟨h.1, hchallenge s nonce _ hl h.1 h.2⟩
    · exact fun s h => ⟨h.1, hchallenge s nonce _ hl h.1 h.2⟩
    · exact fun s h => ⟨hu, h.elim (fun h => hWF _ s h.2) fun h => hWF _ s h.2⟩
  have hraise : ∀ t s, (t = u.at (u.sequence + 1) ∧ (IsPublic nonce ∧ W nonce s) ∧
      s.Derives challenge.payload) → t.authenticated = false ∧ F s := by
    rintro t s ⟨rfl, ⟨-, hw⟩, -⟩
    exact ⟨hu, hWF _ s hw⟩
  refine Task.Spec.ite (fun _ => Task.Spec.raise hraise) fun hc => ?_
  refine Task.Spec.bind (ensureAck_spec fun _ t s h _ => hraise t s h) fun _ => ?_
  refine Task.Spec.ite (fun _ => Task.Spec.raise fun t s h => hraise t s h.1) fun hproved => ?_
  simp only [not_or, ne_eq, not_not] at hc hproved
  -- The device has proved itself, so it has drawn the pair.
  have hls : ((challenge.payload.drop 1).take authNonceSize).length = authNonceSize := by
    simp [hc.2, authNonceSize, authTagSize]
  generalize (challenge.payload.drop 1).take authNonceSize = serverNonce at hproved hls ⊢
  obtain ⟨q, rfl, rfl⟩ : ∃ q : NoncePair Octet, q.client = nonce ∧ q.server = serverNonce :=
    ⟨⟨nonce, serverNonce, hl, hls⟩, rfl, rfl⟩
  refine Task.Spec.update_bind ?_
  -- The proof.
  have hlp : (q.proof psk).length ≤ protocolMaxPayload := by
    simp [NoncePair.proof, NoncePair.authProof, q.length_client, authNonceSize, protocolMaxPayload]
  refine (Task.Spec.bind (R := fun _ t s => t = HostState.at
    { u with sessionKey := some (q.sessionKey psk) } (u.sequence + 1 + 1) ∧ S q s)
    ?_ fun response => ?_).pre (P := fun t s => t = HostState.at
      { u with sessionKey := some (q.sessionKey psk) } (u.sequence + 1) ∧
        (Drawn s.log q ∧ IsPublic q.client) ∧ W q.client s) ?_
  · refine (requestUnprotected_attacked (R := fun s => (Drawn s.log q ∧ IsPublic q.client) ∧
      S q s) _ (u.sequence + 1) hlp ?_ ?_ ?_ ?_ ?_ ?_).consequence (fun _ _ h => h)
      (fun _ _ _ h => ⟨h.1, h.2.1.2⟩) (fun _ _ _ h => h)
    · exact fun s s' hs h => ⟨⟨h.1.1.mono hs.subset, h.1.2⟩, hW _ s s' hs h.2⟩
    · exact fun s s' hs h => ⟨⟨h.1.1.mono hs.subset, h.1.2⟩, hS _ s s' hs h.2⟩
    · exact fun s h => h.elim (fun h => hIW _ s h.2) fun h => hIS _ s h.2
    · exact fun s h => ⟨⟨h.1.1.mono log_subset_build, h.1.2⟩, hproof s q _ h.1.1 h.1.2 h.2⟩
    · exact fun s h => ⟨⟨h.1.1.mono log_subset_build, h.1.2⟩, hagain s q _ h.1.1 h.1.2 h.2⟩
    · exact fun s h => ⟨hu, h.elim (fun h => hWF _ s h.2) fun h => hSF _ s h.2⟩
  · refine Task.Spec.bind (ensureAck_spec ?_) fun _ => Task.Spec.update ?_
    · rintro _ t s ⟨rfl, h⟩ -
      exact ⟨hu, hSF _ s h⟩
    · rintro t s ⟨⟨rfl, h⟩, -⟩
      exact ⟨q, rfl, h⟩
  · rintro t s ⟨t₁, rfl, ⟨rfl, ⟨hpublic, hw⟩, hd⟩, -⟩
    exact ⟨rfl, ⟨(hIW _ s hw).drawn_of_deviceProof hpsk hd hproved, hpublic⟩, hw⟩

end Client

end OtaLink
