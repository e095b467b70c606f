import OtaLink.Belongs
import OtaLink.LostAck

/-!
# Requests one after another

A client that sends nothing but protected requests gives them numbers one after another. The
replay cache then holds the responses to the last eight, so a new request is never taken for
an old one, however long the session is and however often the counter wraps, and a copy of the
last request is answered from the cache.

## Main definitions

* `UpTo` — the requests of the session were numbered one after another.
* `Holding.step_next` — the next request is executed once, copies of it included.
-/

namespace OtaLink
open Lib

variable {β : Type}

/-- The responses in the cache are those to the requests up to `n`, one after another. -/
def UpTo (n : UInt16) (s : AuthState β) : Prop :=
  ∃ h, s.replayCache.History h ∧ ∀ k entry, h[k]? = some entry → entry.sequence = n - UInt16.ofNat k

theorem upTo_empty {s : AuthState β} (h : s.replayCache = .empty 8) (n : UInt16) : UpTo n s :=
  ⟨[], h ▸ Ring.history_empty, by simp⟩

/-- Eight requests ago the counter was somewhere else. -/
theorem sub_ne_next (n : UInt16) {k : ℕ} (hk : k < 8) : n - UInt16.ofNat k ≠ n + 1 := by
  intro h
  have hlt := n.toNat_lt
  have := congrArg UInt16.toNat h
  rw [UInt16.toNat_sub, UInt16.toNat_add, UInt16.toNat_ofNat'] at this
  have h1 : (1 : UInt16).toNat = 1 := rfl
  omega

section UpTo
variable {n : UInt16} {s : AuthState β}

/-- No live entry has the next number. -/
theorem UpTo.fresh (h : UpTo n s) : ∀ entry ∈ s.replayCache.entries, entry.sequence ≠ n + 1 := by
  obtain ⟨hs, hhist, hseq⟩ := h
  intro entry hentry
  obtain ⟨k, hk, hget⟩ := hhist.mem_entries.mp hentry
  rw [hseq k entry hget]
  exact sub_ne_next n hk

/-- The response to the next request is the newest entry. -/
theorem UpTo.insert (h : UpTo n s) {entry : ReplayEntry β} (hentry : entry.sequence = n + 1) :
    UpTo (n + 1) { s with replayCache := s.replayCache.insert entry } := by
  obtain ⟨hs, hhist, hseq⟩ := h
  refine ⟨entry :: hs, hhist.insert entry, fun k e hget => ?_⟩
  cases k with
  | zero =>
    obtain rfl : entry = e := by simpa using hget
    rw [hentry]
    exact (UInt16.sub_zero _).symm
  | succ k =>
    rw [hseq k e (by simpa using hget)]
    have hk : UInt16.ofNat (k + 1) = UInt16.ofNat k + 1 := UInt16.ofNat_add k 1
    rw [hk]
    grind

/-- The only live entry under the number of the last request is the newest. -/
theorem UpTo.newest (h : UpTo n s) {entry e : ReplayEntry β}
    (he : e ∈ (s.replayCache.insert entry).entries) (hseq : e.sequence = n + 1) : e = entry := by
  rcases Ring.mem_entries_insert he with rfl | he
  · rfl
  · exact absurd hseq (h.fresh e he)

end UpTo

section Step
variable [Alphabet β] {key payload : List β} {d : Device β} {c : Command} {n : UInt16}

/-- **The next request is executed**, and a copy of it gets the response again and changes
nothing. -/
theorem Holding.step_next (h : Holding key d.auth) (hn : UpTo n d.auth) (hp : c.isProtected = true)
    (hc : c ≠ .reboot ∧ c ≠ .rollback) (hl : payload.length + authTagSize ≤ protocolMaxPayload)
    (esp : EspIdf β) {o : Outcome β} (ho : execute esp d.ota c (n + 1) payload = o) :
    ∃ d' : Device β, d.step esp (tagged key c (n + 1) payload) =
        (d', .receive (tagged key c (n + 1) payload) ::
          (o.before ++ [.send (signed key c (n + 1) o.error)])) ∧
      d'.ota = o.ota ∧ Holding key d'.auth ∧ UpTo (n + 1) d'.auth ∧
      ∀ esp', d'.step esp' (tagged key c (n + 1) payload) = (d',
        [.receive (tagged key c (n + 1) payload), .send (signed key c (n + 1) o.error)]) := by
  generalize hm : tagged key c (n + 1) payload = m
  have hv : m.version = protocolVersion := by rw [← hm]; rfl
  have hcode : m.command = c.code := by rw [← hm]; rfl
  have hseq : m.sequence = n + 1 := by rw [← hm]; rfl
  have hs : d.auth.signs m.command = true := by
    simp [AuthState.signs, h.required, h.authenticated, hcode, hp]
  have hlen : (tagged key c (n + 1) payload).payload.length ≤ protocolMaxPayload := by
    simpa [tagged, frame, authTagSize] using hl
  have hg : d.auth.gate m = .run payload := by
    rw [← hm]
    exact h.gate hp hlen fun entry he _ => hn.fresh entry he
  have hafter : o.after = [] := by
    rcases after_execute esp d.ota payload c (n + 1) with hnil | ⟨rfl, -⟩ | ⟨rfl, -⟩
    · rwa [ho] at hnil
    · exact absurd rfl hc.1
    · exact absurd rfl hc.2
  have hreply : d.reply m o.error = signed key c (n + 1) o.error := by
    rw [Device.reply, AuthState.response, if_pos hs, h.sessionKey, hcode, hseq]
    rfl
  -- The device has stored the response.
  generalize hentry : d.auth.entryFor m (responseFor o.error) (statusPayload o.error) = entry
  have hes : entry.sequence = n + 1 := by rw [← hentry]; exact hseq
  have hauth : ({ d with ota := o.ota }.report m o.error).auth =
      { d.auth with replayCache := d.auth.replayCache.insert entry } := by
    simp [Device.report, AuthState.remember, hs, hentry]
  have hstep : d.step esp m = ({ d with ota := o.ota }.report m o.error,
      .receive m :: (o.before ++ [.send (signed key c (n + 1) o.error)])) := by
    have ho' : execute esp d.ota c m.sequence payload = o := hseq.symm ▸ ho
    rw [step_of_run esp hv hcode hp hg ho', hafter, hreply]
    rfl
  refine ⟨_, hstep, rfl, ?_, ?_, fun esp' => ?_⟩
  · rw [hauth]
    exact ⟨h.required, h.authenticated, h.sessionKey⟩
  · rw [hauth]
    exact hn.insert hes
  · -- The copy is a duplicate of the newest entry.
    generalize { d with ota := o.ota }.report m o.error = d' at hauth
    have hframe : entry.frame m.sequence = signed key c (n + 1) o.error := by
      rw [← hreply, ← hentry, Device.reply, AuthState.response, if_pos hs]
      rfl
    have hlookup : d'.auth.lookup m = .duplicate entry := by
      have hmem : entry ∈ d'.auth.replayCache.entries := by
        rw [hauth]
        exact Ring.mem_entries_insert_self _ _
      have honly : ∀ e ∈ d'.auth.replayCache.entries, e.sequence = n + 1 → e = entry := by
        intro e he
        rw [hauth] at he
        exact hn.newest he
      cases hfound : d'.auth.lookup m with
      | fresh =>
        refine absurd ⟨?_, hes.trans hseq.symm⟩ (lookup_eq_fresh_iff.mp hfound entry hmem)
        rw [← hentry]
        rfl
      | duplicate e =>
        obtain ⟨he, -, hse, -⟩ := mem_of_duplicate hfound
        rw [honly e he (hse.trans hseq)]
      | conflict =>
        obtain ⟨e, he, -, hse, hdigest⟩ := mem_of_conflict hfound
        rw [honly e he (hse.trans hseq), ← hentry] at hdigest
        exact absurd rfl hdigest
    have hresend : d'.auth.gate m = .resend entry := by
      simp [AuthState.gate, hauth, h.required, h.authenticated] at hlookup ⊢
      rw [hlookup]
    rw [step_of_resend esp' hv hcode hp hresend, hframe]

end Step
end OtaLink
