import OtaLink.Session

/-!
# OTA handles

`esp_ota_begin` gives out a handle, `esp_ota_write` uses it, and `esp_ota_end` or
`esp_ota_abort` closes it, with whatever result. The discipline is an automaton over the
trace whose state is the open handle, and the record `ota_state_t` is that state: it is
active exactly while a handle is open, and then holds it.

## Main definitions

* `track` — the automaton.
* `OtaState.held` — the handle the record holds.
* `handle_discipline` — every run is accepted, in the state the record shows.
-/

namespace OtaLink
open Lib

variable {β : Type}

/-- The open handle after one event, or `none` where the event breaks the discipline: a
handle is opened while another one is open, a handle that is not open is used or closed,
or the device restarts or rolls back while a handle is open. -/
def track : Option Handle → Event β → Option (Option Handle)
  | held, .otaBegin _ _ (some handle) => if held = none then some (some handle) else none
  | held, .otaWrite handle _ _ => if held = some handle then some held else none
  | held, .otaAbort handle _ => if held = some handle then some none else none
  | held, .otaEnd handle _ => if held = some handle then some none else none
  | held, .restart => if held = none then some none else none
  | held, .markInvalidRollbackAndReboot _ => if held = none then some none else none
  -- A device that loses power loses its handle.
  | _, .reset => some none
  | held, _ => some held

/-- The open handle after all events, if none of them breaks the discipline. -/
def trackAll (held : Option Handle) (events : List (Event β)) : Option (Option Handle) :=
  events.foldlM track held

@[simp] theorem trackAll_nil (held : Option Handle) :
    trackAll held ([] : List (Event β)) = some held := rfl

@[simp] theorem trackAll_cons (held : Option Handle) (e : Event β) (events : List (Event β)) :
    trackAll held (e :: events) = (track held e).bind fun held => trackAll held events := rfl

theorem trackAll_append (held : Option Handle) (xs ys : List (Event β)) :
    trackAll held (xs ++ ys) = (trackAll held xs).bind fun held => trackAll held ys := by
  simp [trackAll, List.foldlM_append]

/-- Events that use no handle keep the open one. -/
theorem trackAll_of_keeps {held : Option Handle} {events : List (Event β)}
    (h : ∀ e ∈ events, track held e = some held) : trackAll held events = some held := by
  induction events with
  | nil => rfl
  | cons e events ih =>
    have he := h e List.mem_cons_self
    have hrest := ih fun e' h' => h e' (List.mem_cons_of_mem _ h')
    simpa [he] using hrest

/-- The handle the record holds. -/
def OtaState.held (s : OtaState β) : Option Handle := if s.active then some s.handle else none

theorem held_of_active {s : OtaState β} (h : s.active = true) : s.held = some s.handle := by
  simp [OtaState.held, h]

theorem held_of_inactive {s : OtaState β} (h : s.active = false) : s.held = none := by
  simp [OtaState.held, h]

variable [Alphabet β]

@[simp] theorem held_cleared : (OtaState.cleared : OtaState β).held = none := rfl
@[simp] theorem held_opened (size : ℕ) (sha256 : List β) (handle : Handle) (partition : Partition) :
    (OtaState.opened size sha256 handle partition).held = some handle := rfl
omit [Alphabet β] in
@[simp] theorem held_wrote (s : OtaState β) (data : List β) : (s.wrote data).held = s.held := rfl

/-! ## The operations -/

section Operations
variable (esp : EspIdf β) (payload : List β) (s : OtaState β)

theorem track_otaManagerBegin : trackAll s.held ((otaManagerBegin esp payload).log s) =
    some ((otaManagerBegin esp payload).state s).held := by
  rcases otaManagerBegin_cases esp payload s with
    ⟨-, hs, hl⟩ | ⟨partition, handle, hactive, -, -, -, -, -, -, hs, hl⟩
  · rw [hs]
    refine trackAll_of_keeps fun e he => ?_
    rcases hl e he with ⟨r, rfl⟩ | ⟨p, n, rfl⟩ <;> rfl
  · rw [hs, hl, held_of_inactive hactive]
    rfl

theorem track_otaManagerWriteData : trackAll s.held ((otaManagerWriteData esp payload).log s) =
    some ((otaManagerWriteData esp payload).state s).held := by
  have hheld : ((otaManagerWriteData esp payload).state s).held = s.held := by
    rcases otaManagerWriteData_cases esp payload s with ⟨-, hs, -⟩ | ⟨-, -, -, -, hs, -⟩ |
      ⟨-, -, -, -, -, -, hs, -⟩ <;> rw [hs]
    rfl
  rw [hheld]
  refine trackAll_of_keeps fun e he => ?_
  obtain ⟨hactive, data, ok, rfl⟩ := log_otaManagerWriteData esp payload s e he
  simp [track, held_of_active hactive]

theorem track_otaManagerAbort : trackAll s.held ((otaManagerAbort esp).log s) =
    some ((otaManagerAbort esp).state s).held := by
  rcases otaManagerAbort_cases esp s with ⟨-, -, hs, hl⟩ | ⟨hactive, -, hs, hl⟩
  · rw [hs, hl]
    rfl
  · rw [hs, hl, held_of_active hactive]
    simp [track]

theorem track_otaManagerEnd : trackAll s.held ((otaManagerEnd esp).log s) =
    some ((otaManagerEnd esp).state s).held := by
  rcases otaManagerEnd_cases esp s with
    ⟨-, -, hs, hl⟩ | ⟨hactive, -, hs, ⟨-, hl⟩ | ⟨-, r, -, hl⟩ | ⟨-, hl⟩⟩
  · rw [hs, hl]
    rfl
  all_goals
    rw [hs, hl, held_of_active hactive]
    simp [track]

end Operations

/-! ## Runs -/

omit [Alphabet β] in
/-- A command uses handles as its operation does. -/
theorem track_runOta {c : Command} {n : UInt16} {bare : Bool} {payload : List β}
    {operation : List β → OtaRoutine β ProtocolError} {ota : OtaState β}
    (h : trackAll ota.held ((operation payload).log ota) =
      some ((operation payload).state ota).held) :
    trackAll ota.held (runOta c n bare operation ota payload).before =
      some (runOta c n bare operation ota payload).ota.held := by
  unfold runOta
  split
  · rfl
  · simp only [Outcome.operated, trackAll_append, h]
    rfl

theorem track_execute_before (esp : EspIdf β) (ota : OtaState β) (c : Command) (n : UInt16)
    (payload : List β) : trackAll ota.held (execute esp ota c n payload).before =
      some (execute esp ota c n payload).ota.held := by
  cases c with
  | otaBegin => exact track_runOta (track_otaManagerBegin esp payload ota)
  | otaData => exact track_runOta (track_otaManagerWriteData esp payload ota)
  | otaEnd => exact track_runOta (track_otaManagerEnd esp ota)
  | otaAbort => exact track_runOta (track_otaManagerAbort esp ota)
  | reboot =>
    simp only [execute]
    split_ifs <;> rfl
  | rollback =>
    simp only [execute]
    split_ifs <;> rfl
  | _ => rfl

/-- **One packet keeps the discipline.** -/
theorem track_step (d : Device β) (esp : EspIdf β) (packet : Packet β) :
    trackAll d.ota.held (d.step esp packet).2 = some (d.step esp packet).1.ota.held := by
  have h := step_cases d esp packet
  generalize d.step esp packet = r at h
  cases h with
  | status | info | challenge | proof | resend | refuse => rfl
  | @run c _ _ _ payload _ o ho =>
    have hbefore := track_execute_before esp d.ota c packet.sequence payload
    rw [ho] at hbefore
    simp only [trackAll_cons, trackAll_append, track, Option.bind_some, hbefore]
    rcases after_execute esp d.ota payload c packet.sequence with
      h | ⟨-, hinactive, -, h⟩ | ⟨-, hinactive, -, -, h⟩
    · simp [← ho, h]
    · simp [← ho, h, track, held_of_inactive hinactive, Event.reboots]
    · cases hm : esp.markInvalidReboots <;>
        simp [← ho, h, hm, track, held_of_inactive hinactive, Event.reboots]

/-- **Handle discipline.** In every run from a start state, whatever packets arrive and
whatever the platform answers, no event breaks the discipline, and `ota_manager_is_active`
is true exactly while a handle is open. -/
theorem handle_discipline {config : OtaLinkConfig β} {d : Device β}
    (hd : otaLinkStartWithConfig config = some d) (xs : List (Stimulus β)) :
    trackAll none (d.run xs).2 = some (d.run xs).1.ota.held ∧
      (otaManagerIsActive (d.run xs).1.ota = true ↔ (d.run xs).1.ota.held.isSome = true) := by
  constructor
  · refine Device.run_induction (I := fun d trace => trackAll none trace = some d.ota.held) xs ?_ ?_
    · rw [← restarted_otaLinkStartWithConfig hd]
      rfl
    · rintro d trace (⟨packet, esp⟩ | _) - h
      · rw [trackAll_append, h]
        exact track_step d esp packet
      · rw [trackAll_append, h]
        rfl
  · cases hactive : (d.run xs).1.ota.active <;>
      simp [otaManagerIsActive, hactive, OtaState.held]

/-- In the middle of an update the handle of the partition is open. -/
theorem handle_discipline_tinyUpdate :
    trackAll none (openDevice.run (tinyUpdate.take 2)).2 = some (some 1) :=
  (handle_discipline (show otaLinkStartWithConfig ⟨none, false⟩ = some openDevice from rfl)
    (tinyUpdate.take 2)).1.trans (by decide)

end OtaLink
