import OtaLink.Lib.Machine
import OtaLink.Mem.Start

/-!
# The life of the component

Starts that fail and are tried again, the steps of the tasks, the calls of the application and
the restarts come in any order. Two things are shown of all of them. The component is sound: as
long as the application leaves the transport as it is from which the command task reads, no
callback that is absent is called, and a driver and a task exist exactly while they are in use.
And the component refines both models of it, the device on packets and the boot counter.

## Main definitions

* `Start.Moved` — all that an input can do.
* `Start.Component.Sound` — what every input keeps.
* `Start.component_sound` — the component is sound.
* `Start.component_refines` — it refines the device and the boot counter.
-/

namespace OtaLink.Mem.Start
open Lib

/-- The state and the calls after the inputs. -/
def Component.run (c : Component) (xs : List Input) : Option (Component × List Call) :=
  runFrom Component.step c xs

/-! ## The device that a component runs -/

/-- An octet for the parser and the device, or a restart of both. -/
def hear (s : List UInt8 × OtaLink.Device UInt8) :
    Mem.Input → (List UInt8 × OtaLink.Device UInt8) × List (OtaLink.Event UInt8)
  | .octet byte esp =>
    let fed := OtaLink.protocolParserFeed s.1 byte
    match fed.2 with
    | none => ((fed.1, s.2), [])
    | some packet =>
      let r := s.2.step esp.answers packet
      ((fed.1, r.1), r.2)
  | .reset => (([], s.2.restarted), [.reset])

section Hear
variable {config : OtaLinkConfig UInt8} {d₀ : OtaLink.Device UInt8}
  {s : List UInt8 × OtaLink.Device UInt8}

/-- The arrays hold what the parser has and the device, which was started so. -/
structure Follows (d₀ : OtaLink.Device UInt8) (f : Firmware)
    (s : List UInt8 × OtaLink.Device UInt8) : Prop where
  holds : f.Holds s.1 s.2
  restarted : s.2.restarted = d₀

/-- A start leaves the device started. -/
theorem follows_boot (h₀ : OtaLink.otaLinkStartWithConfig config = some d₀) {auth : AuthState}
    (ha : authConfigure config.authKey config.requireAuthentication = some auth) :
    Follows d₀ ⟨.init, auth, .cleared⟩ ([], d₀) := by
  obtain ⟨f, hboot, hf⟩ := Firmware.boot_spec h₀
  have hfirm : (⟨.init, auth, .cleared⟩ : Firmware) = f := by
    simpa [Firmware.boot, Mem.otaLinkStart, ha] using hboot
  exact ⟨hfirm ▸ hf, restarted_otaLinkStartWithConfig h₀⟩

/-- **The firmware hears as the device does.** -/
theorem step_of_follows (h₀ : OtaLink.otaLinkStartWithConfig config = some d₀) {f : Firmware}
    (h : Follows d₀ f s) (byte : UInt8) (esp : EspResults) :
    ∃ f', f.step config (.octet byte esp) =
        some (f', (hear s (.octet byte esp)).2.filterMap view) ∧
      Follows d₀ f' (hear s (.octet byte esp)).1 := by
  obtain ⟨parser, packet, hfeed, hparser, hrel⟩ := protocolParserFeed_spec h.holds.parser byte
  simp only [Firmware.step, hfeed, Option.bind_eq_bind, Option.bind_some, Option.pure_def, hear]
  generalize (OtaLink.protocolParserFeed s.1 byte).2 = decoded at hrel
  rcases hrel with @⟨packet, p, hp⟩ | _
  · obtain ⟨m, hstep, hm⟩ := Device.step_spec h₀ h.holds.device h.restarted hp esp
    refine ⟨⟨parser, m⟩, by simp [hstep], ⟨hparser, hm⟩, ?_⟩
    exact (restarted_step s.2 esp.answers p).trans h.restarted
  · exact ⟨⟨parser, f.device⟩, rfl, ⟨hparser, h.holds.device⟩, h.restarted⟩

theorem feed_eq_nil {held : List UInt8} {byte : UInt8} {p : OtaLink.Packet UInt8}
    (h : (OtaLink.protocolParserFeed held byte).2 = some p) :
    (OtaLink.protocolParserFeed held byte).1 = [] := by
  simp only [OtaLink.protocolParserFeed] at h ⊢
  split_ifs at h ⊢
  rfl

/-- A packet that restarts the device leaves nothing in the parser. -/
theorem hear_of_reboots (hd : s.2.restarted = d₀) {byte : UInt8} {esp : EspResults}
    (h : ((hear s (.octet byte esp)).2.filterMap view).any Event.reboots = true) :
    (hear s (.octet byte esp)).1 = ([], d₀) := by
  rw [any_reboots_filterMap] at h
  simp only [hear] at h ⊢
  cases hfed : (OtaLink.protocolParserFeed s.1 byte).2 with
  | none => simp [hfed] at h
  | some p =>
    simp only [hfed] at h ⊢
    have hlog : (s.2.handle esp.answers p).2.any OtaLink.Event.reboots = true := by
      simpa [OtaLink.Device.step, OtaLink.Event.reboots] using h
    have hstate : (s.2.step esp.answers p).1 = (s.2.handle esp.answers p).1.restarted :=
      if_pos hlog
    have hsame := (restarted_step s.2 esp.answers p).trans hd
    rw [hstate, restarted_restarted] at hsame
    rw [feed_eq_nil hfed, hstate, hsame]

/-- What is heard is what the device does on the packets of the stream. -/
theorem runFrom_hear (xs : List Mem.Input) : ∃ s',
    runFrom (fun s x => some ((hear s x).1, (hear s x).2.filterMap view)) s xs =
      some (s', (s.2.run (stimuli s.1 xs)).2.filterMap view) := by
  induction xs generalizing s with
  | nil => exact ⟨s, rfl⟩
  | cons x xs ih =>
    obtain ⟨s', hs'⟩ := @ih (hear s x).1
    refine ⟨s', ?_⟩
    rw [runFrom_cons rfl, hs']
    cases x with
    | reset => rfl
    | octet byte esp =>
      simp only [hear, stimuli]
      cases (OtaLink.protocolParserFeed s.1 byte).2 with
      | none => rfl
      | some p => simp [OtaLink.Device.run, Device.after]

end Hear

/-! ## What an input does -/

/-- What holds of the static state between the inputs. -/
structure Component.Sound (c : Component) : Prop where
  stopped : c.boot.taskHandle = false →
    c.firmware.device.ota = .cleared ∧ c.markValidTaskHandle = false
  wired : c.boot.taskHandle = true → ∃ r w, Wired c r w
  follows : c.boot.taskHandle = true → ∃ d₀ s,
    OtaLink.otaLinkStartWithConfig c.config.toOtaLinkConfig = some d₀ ∧ Follows d₀ c.firmware s
  asking : .otaLinkValid ∈ c.asking → c.markValidTaskHandle = true

/-- The platform has said that the running image is to be marked valid. -/
def NeedsMark (state : Except EspFailure ImgState) : Prop :=
  state = .ok .new ∨ state = .ok .pendingVerify

/-- What a task does before it calls `ota_link_mark_app_valid`. -/
def Caller.before (c : Component) : Caller → List Call
  | .otaLinkValid => [.taskDelay c.config.autoMarkValidDelayMs]
  | .application _ => []

/-- What it does once that has returned. -/
def Caller.after : Caller → List Call
  | .otaLinkValid => [.taskDelete .otaLinkValid]
  | .application _ => []

/-- The component after that. -/
def Component.left (c : Component) (caller : Caller) : Component :=
  { c with markValidTaskHandle := c.markValidTaskHandle && decide (caller ≠ .otaLinkValid) }

@[simp] theorem run_markValidTask (c : Component) :
    markValidTask.run c = some ((), c, [.taskDelay c.config.autoMarkValidDelayMs]) := rfl

@[simp] theorem run_markValidTaskEnd (c : Component) : markValidTaskEnd.run c =
    some ((), { c with markValidTaskHandle := false }, [.taskDelete .otaLinkValid]) := rfl

theorem run_cancelRollback (caller : Caller) (err : EspErr) (c : Component) :
    (cancelRollback caller err).run c = some (err, { c with asking := c.asking.erase caller },
      [.markAppValidCancelRollback caller err]) := rfl

theorem run_otaLinkMarkAppValid (caller : Caller) (state : Except EspFailure ImgState)
    (c : Component) :
    (NeedsMark state ∧ (otaLinkMarkAppValid caller state).run c =
      some (none, { c with asking := insert caller c.asking }, [.getStatePartition caller state])) ∨
    ¬NeedsMark state ∧ ∃ err, (otaLinkMarkAppValid caller state).run c =
      some (some err, c, [.getStatePartition caller state]) := by
  cases state with
  | error err => exact .inr ⟨by simp [NeedsMark], _, rfl⟩
  | ok state =>
    by_cases h : state ≠ .new ∧ state ≠ .pendingVerify
    · refine .inr ⟨by simpa [NeedsMark] using h, espErrInvalidState, ?_⟩
      simp [otaLinkMarkAppValid, h]
    · refine .inl ⟨by simpa [NeedsMark, or_iff_not_imp_left] using h, ?_⟩
      simp [otaLinkMarkAppValid, h]

/-- All that an input can do. -/
inductive Moved (c : Component) : Input → Component → List Call → Prop
  | start {config : Option Config} {esp : Answers} {err : EspErr} {c' : Component}
      {calls : List Call} (h : Started c config err c' calls)
      (hb : c'.boot = (Boot.otaLinkStartWithConfig (config.map (Config.boot c.tables)) esp.toAnswers
        c.boot).2) :
      Moved c (.start config esp) c' calls
  /-- There is no command task. -/
  | idle {byte : Option UInt8} {esp : EspResults} (hc : c.boot.taskHandle = false) :
      Moved c (.turn byte esp) c []
  | wait {esp : EspResults} {r w : Callback} (hw : Wired c r w) :
      Moved c (.turn none esp) c [.read r c.transportContext]
  | octet {byte : UInt8} {esp : EspResults} {r w : Callback} {f : Firmware} {events : List Event}
      (hc : c.boot.taskHandle = true) (hw : Wired c r w)
      (hf : c.firmware.step c.config.toOtaLinkConfig (.octet byte esp) = some (f, events))
      (hb : events.any Event.reboots = false) :
      Moved c (.turn (some byte) esp) { c with firmware := f }
        (.read r c.transportContext :: events.map (shown w c.transportContext))
  | reboot {byte : UInt8} {esp : EspResults} {r w : Callback} {f : Firmware}
      {events : List Event} (hc : c.boot.taskHandle = true) (hw : Wired c r w)
      (hf : c.firmware.step c.config.toOtaLinkConfig (.octet byte esp) = some (f, events))
      (hb : events.any Event.reboots = true) :
      Moved c (.turn (some byte) esp) (.booted c.tables c.boot.nvs.stored)
        (.read r c.transportContext :: (events.map (shown w c.transportContext) ++ [.restart]))
  /-- The task is not there, or is in a call already. -/
  | unasked {caller : Caller} {state : Except EspFailure ImgState} :
      Moved c (.ask caller state) c []
  | asked {caller : Caller} {state : Except EspFailure ImgState} (hn : caller ∉ c.asking)
      (hc : caller = .otaLinkValid → c.markValidTaskHandle = true) (hs : NeedsMark state) :
      Moved c (.ask caller state) { c with asking := insert caller c.asking }
        (caller.before c ++ [.getStatePartition caller state])
  /-- The image is not to be marked. -/
  | answered {caller : Caller} {state : Except EspFailure ImgState} (hn : caller ∉ c.asking)
      (hc : caller = .otaLinkValid → c.markValidTaskHandle = true) :
      Moved c (.ask caller state) (c.left caller)
        (caller.before c ++ .getStatePartition caller state :: caller.after)
  /-- The task is in no call. -/
  | unmarked {caller : Caller} {err : EspErr} : Moved c (.mark caller err) c []
  | marked {caller : Caller} {err : EspErr} (h : caller ∈ c.asking) :
      Moved c (.mark caller err) { c.left caller with asking := c.asking.erase caller }
        (.markAppValidCancelRollback caller err :: caller.after)
  /-- The platform does not roll back. -/
  | refused {err : EspFailure} :
      Moved c (.markAppInvalid (some err)) c [.markAppInvalidRollbackAndReboot (some err)]
  | rollback : Moved c (.markAppInvalid none) (.booted c.tables c.boot.nvs.stored)
      [.markAppInvalidRollbackAndReboot none, .restart]
  /-- The transport is in use. -/
  | kept {address : Address} {transport : CustomTransport} : Moved c (.store address transport) c []
  | store {address : Address} {transport : CustomTransport} (h : c.inUse address = false) :
      Moved c (.store address transport)
        { c with tables := Function.update c.tables address transport } []
  | flush : Moved c .flush { c with boot.nvs := c.boot.nvs.commit } []
  | reset : Moved c .reset (.booted c.tables c.boot.nvs.stored) [.restart]

theorem step_ask (c : Component) (caller : Caller) (state : Except EspFailure ImgState) :
    ∃ c' calls, c.step (.ask caller state) = some (c', calls) ∧
      Moved c (.ask caller state) c' calls := by
  by_cases hin : caller ∈ c.asking
  · refine ⟨c, [], ?_, .unasked⟩
    cases caller <;> simp [Component.step, routine, hin]
  cases caller with
  | application task =>
    rcases run_otaLinkMarkAppValid (.application task) state c with
      ⟨hs, hrun⟩ | ⟨-, err, hrun⟩
    · refine ⟨_, _, ?_, .asked hin nofun hs⟩
      simp [Component.step, routine, hin, Checked.run_bind_of_eq hrun, Caller.before]
    · refine ⟨_, _, ?_, .answered hin nofun⟩
      simp [Component.step, routine, hin, Checked.run_bind_of_eq hrun, Caller.before, Caller.after,
        Component.left]
  | otaLinkValid =>
    cases hc : c.markValidTaskHandle with
    | false => exact ⟨c, [], by simp [Component.step, routine, hc], .unasked⟩
    | true =>
      rcases run_otaLinkMarkAppValid .otaLinkValid state c with ⟨hs, hrun⟩ | ⟨-, err, hrun⟩
      · refine ⟨_, _, ?_, .asked hin (fun _ => hc) hs⟩
        simp [Component.step, routine, hin, hc, Checked.run_bind_of_eq (run_markValidTask c),
          Checked.run_bind_of_eq hrun, Caller.before]
      · refine ⟨_, _, ?_, .answered hin fun _ => hc⟩
        simp [Component.step, routine, hin, hc, Checked.run_bind_of_eq (run_markValidTask c),
          Checked.run_bind_of_eq hrun, Caller.before, Caller.after, Component.left]

/-- **No input faults**, and none does anything else. -/
theorem Component.Sound.step {c : Component} (h : c.Sound) (x : Input) :
    ∃ c' calls, c.step x = some (c', calls) ∧ Moved c x c' calls := by
  cases x with
  | start config esp =>
    obtain ⟨err, c', calls, hrun, hstarted, hb⟩ :=
      start_cases (fun hc => (h.stopped hc).2) config esp
    refine ⟨c', calls, ?_, .start hstarted hb⟩
    simp [Component.step, routine, Checked.run_bind_of_eq hrun]
  | turn byte esp =>
    cases hc : c.boot.taskHandle with
    | false => exact ⟨c, [], by simp [Component.step, routine, hc], .idle hc⟩
    | true =>
      obtain ⟨r, w, hw⟩ := h.wired hc
      have hstep : c.step (.turn byte esp) = ((otaLinkTask byte esp).run c).map Prod.snd := by
        simp [Component.step, routine, hc]
      rw [run_otaLinkTask hw] at hstep
      cases byte with
      | none => exact ⟨c, _, hstep, .wait hw⟩
      | some byte =>
        obtain ⟨d₀, s, h₀, hs⟩ := h.follows hc
        obtain ⟨f, hf, -⟩ := step_of_follows h₀ hs byte esp
        obtain ⟨c', restarts, hrun, hend⟩ := receiveByte_spec hw.writer hf
        rw [hw.context] at hrun
        simp only [Option.elim_some, hrun] at hstep
        refine ⟨_, _, hstep, ?_⟩
        rcases hend with ⟨hb, rfl, rfl⟩ | ⟨hb, rfl, rfl⟩
        · rw [List.append_nil]
          exact .octet hc hw hf hb
        · exact .reboot hc hw hf hb
  | ask caller state => exact step_ask c caller state
  | mark caller err =>
    by_cases hin : caller ∈ c.asking
    · refine ⟨_, _, ?_, .marked hin⟩
      have hrun := run_cancelRollback caller err c
      cases caller <;> simp [Component.step, routine, hin, Checked.run_bind_of_eq hrun,
        Component.left, Caller.after]
    · refine ⟨c, [], ?_, .unmarked⟩
      cases caller <;> simp [Component.step, routine, hin]
  | markAppInvalid err =>
    cases err with
    | none => exact ⟨_, _, rfl, .rollback⟩
    | some err => exact ⟨_, _, rfl, .refused⟩
  | store address transport =>
    cases huse : c.inUse address with
    | false => exact ⟨_, _, by simp [Component.step, routine, huse], .store huse⟩
    | true => exact ⟨_, _, by simp [Component.step, routine, huse], .kept⟩
  | flush => exact ⟨_, _, rfl, .flush⟩
  | reset => exact ⟨_, _, rfl, .reset⟩

/-! ## What the inputs keep -/

def Component.drivers (c : Component) (port : ℤ) : ℤ :=
  if c.boot.taskHandle = true ∧ c.transport = some .uart ∧ port = c.config.uartPort then 1 else 0

def Component.tasks (c : Component) : Task → ℤ
  | .otaLink => if c.boot.taskHandle then 1 else 0
  | .otaLinkValid => if c.markValidTaskHandle then 1 else 0

theorem foldl_shown (w : Callback) (context : Context) (events : List Event) :
    (∀ port n, (events.map (shown w context)).foldl (Start.drivers port) n = n) ∧
      ∀ task n, (events.map (shown w context)).foldl (Start.tasks task) n = n := by
  induction events with
  | nil => exact ⟨fun _ _ => rfl, fun _ _ => rfl⟩
  | cons event events ih =>
    cases event <;> exact ⟨fun port n => ih.1 port n, fun task n => ih.2 task n⟩

section Keep
variable {c c' : Component} {x : Input} {calls : List Call}

theorem Component.Sound.booted (tables : Tables) (flash : Option UInt32) :
    (Component.booted tables flash).Sound :=
  ⟨fun _ => ⟨rfl, rfl⟩, nofun, nofun, fun h => absurd h (Finset.notMem_empty _)⟩

/-- A task leaves a call. -/
theorem Component.Sound.left (h : c.Sound) (caller : Caller) {asking : Finset Caller}
    (hin : .otaLinkValid ∈ asking → .otaLinkValid ∈ c.asking ∧ caller ≠ .otaLinkValid) :
    Component.Sound { c.left caller with asking := asking } := by
  refine ⟨fun hstop => ?_, fun hrun => ?_, h.follows, fun hask => ?_⟩
  · obtain ⟨ho, hm⟩ := h.stopped hstop
    exact ⟨ho, by simp [Component.left, hm]⟩
  · obtain ⟨r, w, hw⟩ := h.wired hrun
    exact ⟨r, w, hw.of_eq rfl rfl rfl rfl rfl⟩
  · obtain ⟨hask, hne⟩ := hin hask
    simp [Component.left, h.asking hask, hne]

/-- **The transport stays open and the device configured** while the task runs. -/
theorem Moved.sound (h : c.Sound) (hm : Moved c x c' calls) : c'.Sound := by
  cases hm with
  | start hs =>
    cases hs with
    | refused => exact h
    | failed _ hc hc' ho hv _ hask =>
      refine ⟨fun _ => ⟨ho.trans (h.stopped hc).1, hv.trans (h.stopped hc).2⟩, ?_, ?_,
        fun hin => hv.trans (h.asking (hask ▸ hin))⟩
      · exact fun hrun => absurd (hc'.symm.trans hrun) Bool.false_ne_true
      · exact fun hrun => absurd (hc'.symm.trans hrun) Bool.false_ne_true
    | @started config boot auth r w _ _ hc hb hk ha hr hw =>
      refine ⟨fun hstop => absurd (hstop.symm.trans hb) Bool.false_ne_true,
        fun _ => ?_, fun _ => ?_,
        fun hin => absurd ((h.stopped hc).2.symm.trans (h.asking hin)) Bool.false_ne_true⟩
      · exact ⟨r, w, ⟨_, rfl, hr, hw⟩, rfl, rfl⟩
      · obtain ⟨d₀, h₀⟩ := Option.isSome_iff_exists.mp hk
        refine ⟨d₀, ([], d₀), h₀, ?_⟩
        rw [(h.stopped hc).1]
        exact follows_boot h₀ ha
  | idle | wait | unasked | unmarked | refused | kept => exact h
  | @octet byte esp r w f events hc hw hf =>
    refine ⟨fun hstop => absurd (hstop.symm.trans hc) Bool.false_ne_true,
      fun _ => ⟨r, w, hw.of_eq rfl rfl rfl rfl rfl⟩, fun _ => ?_, h.asking⟩
    obtain ⟨d₀, s, h₀, hs⟩ := h.follows hc
    obtain ⟨f', hf', hs'⟩ := step_of_follows h₀ hs byte esp
    obtain rfl : f' = f := by
      rw [hf] at hf'
      exact (Prod.mk.inj (Option.some.inj hf')).1.symm
    exact ⟨d₀, _, h₀, hs'⟩
  | reboot | rollback | reset => exact .booted _ _
  | @asked caller state hn hc hs =>
    refine ⟨h.stopped, fun hrun => ?_, h.follows, fun hin => ?_⟩
    · obtain ⟨r, w, hw⟩ := h.wired hrun
      exact ⟨r, w, hw.of_eq rfl rfl rfl rfl rfl⟩
    · rcases Finset.mem_insert.mp hin with heq | hin
      · exact hc heq.symm
      · exact h.asking hin
  | @answered caller state hn =>
    exact h.left caller fun hin => ⟨hin, fun heq => hn (heq ▸ hin)⟩
  | @marked caller err =>
    exact h.left caller fun hin =>
      ⟨Finset.mem_of_mem_erase hin, (Finset.ne_of_mem_erase hin).symm⟩
  | @store address transport huse =>
    refine ⟨h.stopped, fun hrun => ?_, h.follows, h.asking⟩
    obtain ⟨r, w, hw⟩ := h.wired hrun
    have hother : c.transport ≠ some (.custom address) := by
      simpa [Component.inUse, show c.boot.taskHandle = true from hrun] using huse
    exact ⟨r, w, hw.store hother transport⟩
  | flush =>
    refine ⟨h.stopped, fun hrun => ?_, h.follows, h.asking⟩
    obtain ⟨r, w, hw⟩ := h.wired hrun
    exact ⟨r, w, hw.of_eq rfl rfl rfl rfl rfl⟩

/-- **The drivers and the tasks** are those of the component. -/
theorem Moved.counts (h : c.Sound) (hm : Moved c x c' calls) :
    (∀ port, calls.foldl (Start.drivers port) (c.drivers port) = c'.drivers port) ∧
      ∀ task, calls.foldl (Start.tasks task) (c.tasks task) = c'.tasks task := by
  cases hm with
  | start hs =>
    cases hs with
    | refused => exact ⟨fun _ => rfl, fun _ => rfl⟩
    | failed _ hc hc' _ hv _ _ hadds =>
      have hnone := (h.stopped hc).2
      refine ⟨fun port => ?_, fun task => ?_⟩
      · rw [hadds.drivers]
        simp [Component.drivers, hc, hc']
      · rw [hadds.tasks]
        cases task <;> simp [Component.tasks, hc, hc', hnone, hv]
    | @started config boot auth r w valid _ hc hb hk ha hr hw hv hadds =>
      have hnone := (h.stopped hc).2
      refine ⟨fun port => ?_, fun task => ?_⟩
      · have hopened : config.opened.1 = .uart ↔ config.transport = none := by
          rw [Config.opened]
          cases config.transport <;> simp
        rw [hadds.drivers]
        simp [Component.drivers, hc, hb, Config.driver, hopened]
      · rw [hadds.tasks]
        cases task <;> simp [Component.tasks, hc, hb, hnone, started]
  | idle | wait | unasked | unmarked | refused | kept | store | flush =>
    exact ⟨fun _ => rfl, fun _ => rfl⟩
  | octet =>
    refine ⟨fun port => ?_, fun task => ?_⟩
    · exact (foldl_shown _ _ _).1 port _
    · exact (foldl_shown _ _ _).2 task _
  | reboot =>
    refine ⟨fun port => ?_, fun task => ?_⟩
    · simp [Start.drivers, Component.drivers, Component.booted, Boot.State.booted]
    · cases task <;> simp [Start.tasks, Component.tasks, Component.booted, Boot.State.booted]
  | @asked caller =>
    refine ⟨fun port => ?_, fun task => ?_⟩
    · cases caller <;> simp [Caller.before, Start.drivers, Component.drivers]
    · cases caller <;> simp [Caller.before, Start.tasks, Component.tasks]
  | @answered caller state hn hc =>
    refine ⟨fun port => ?_, fun task => ?_⟩
    · cases caller <;> simp [Caller.before, Caller.after, Start.drivers, Component.drivers,
        Component.left]
    · cases caller <;> cases task <;> simp [Caller.before, Caller.after, Start.tasks,
        Component.tasks, Component.left, hc]
  | @marked caller err hin =>
    refine ⟨fun port => ?_, fun task => ?_⟩
    · cases caller <;> simp [Caller.after, Start.drivers, Component.drivers, Component.left]
    · cases caller with
      | otaLinkValid =>
        cases task <;>
          simp [Caller.after, Start.tasks, Component.tasks, Component.left, h.asking hin]
      | application =>
        cases task <;> simp [Caller.after, Start.tasks, Component.tasks, Component.left]
  | rollback | reset =>
    refine ⟨fun port => ?_, fun task => ?_⟩
    · simp [Start.drivers, Component.drivers, Component.booted, Boot.State.booted]
    · cases task <;> simp [Start.tasks, Component.tasks, Component.booted, Boot.State.booted]

/-- The start is refused, and nothing changes. -/
theorem refused_of_running (hc : c.boot.taskHandle = true) (config : Option Config)
    (esp : Answers) : ∃ err, err ≠ espOk ∧
      (otaLinkStartWithConfig config esp).run c = some (err, c, []) := by
  cases config with
  | none => exact ⟨espErrInvalidArg, by decide, rfl⟩
  | some config => exact ⟨espErrInvalidState, by decide, by simp [otaLinkStartWithConfig, hc]⟩

end Keep

/-! ## Whole histories -/

/-- **The component is sound.** Whatever is called, whatever the platform answers and whatever
arrives, from power-up there is no faulty access and no absent callback is called, where the
application leaves the transport as it is that the command task reads from. A driver of
the UART is installed, once, exactly while the task runs on its port, so that a start that fails
leaves none behind; there is one command task at most. While it runs it reads from one transport
and the frames go to the same, and every further start is refused and changes nothing. -/
theorem component_sound (tables : Tables) (flash : Option UInt32) (xs : List Input) : ∃ c calls,
    (Component.booted tables flash).run xs = some (c, calls) ∧
    (∀ port, calls.foldl (drivers port) 0 = c.drivers port) ∧
    (∀ task, calls.foldl (tasks task) 0 = c.tasks task) ∧
    (c.boot.taskHandle = true → (∃ r w, Wired c r w) ∧
      (OtaLink.otaLinkStartWithConfig c.config.toOtaLinkConfig).isSome = true ∧
      ∀ config esp, ∃ err, err ≠ espOk ∧
        (otaLinkStartWithConfig config esp).run c = some (err, c, [])) := by
  obtain ⟨c, calls, hrun, h, hdrivers, htasks⟩ := @runFrom_induction _ _ _ Component.step
    (fun c calls => c.Sound ∧ (∀ port, calls.foldl (drivers port) 0 = c.drivers port) ∧
      ∀ task, calls.foldl (tasks task) 0 = c.tasks task) xs
    (fun c calls x _ ⟨h, hdrivers, htasks⟩ => by
      obtain ⟨c', new, hstep, hmoved⟩ := h.step x
      obtain ⟨hdrivers', htasks'⟩ := hmoved.counts h
      refine ⟨c', new, hstep, hmoved.sound h, fun port => ?_, fun task => ?_⟩
      · rw [List.foldl_append, hdrivers, hdrivers']
      · rw [List.foldl_append, htasks, htasks'])
    (.booted tables flash) []
    ⟨.booted tables flash,
      fun _ => by simp [Component.drivers, Component.booted, Boot.State.booted],
      fun task => by cases task <;> simp [Component.tasks, Component.booted, Boot.State.booted]⟩
  refine ⟨c, calls, hrun, hdrivers, htasks, fun hc => ⟨h.wired hc, ?_, refused_of_running hc⟩⟩
  obtain ⟨d₀, s, h₀, -⟩ := h.follows hc
  rw [h₀]
  rfl

/-- What the parser hears of an input. -/
def Component.hears (c : Component) : Input → List Mem.Input
  | .turn (some byte) esp => if c.boot.taskHandle then [.octet byte esp] else []
  | .reset | .markAppInvalid none => [.reset]
  | _ => []

/-- The restart among the calls of a turn. -/
def Call.restarts : Call → Option Boot.Event
  | .restart => some .restart
  | _ => none

/-- What the boot counter sees of an input. -/
def Component.counts (c : Component) : Input → List Boot.Event
  | .start config esp => [.start (config.map (Config.boot c.tables)) esp.toAnswers]
  | .flush => [.flush]
  | .reset | .markAppInvalid none => [.restart]
  -- A restart that the dispatcher asks for.
  | .turn byte esp => (c.step (.turn byte esp)).elim [] fun r => r.2.filterMap Call.restarts
  | .ask .. | .mark .. | .markAppInvalid (some _) | .store .. => []

/-- Every start has this key. -/
def Input.uses (K : OtaLinkConfig UInt8) : Input → Prop
  | .start (some config) _ => config.toOtaLinkConfig = K
  | _ => True

section Refine
variable {K : OtaLinkConfig UInt8} {d₀ : OtaLink.Device UInt8} {c c' : Component} {x : Input}
  {calls : List Call} {s : List UInt8 × OtaLink.Device UInt8}

/-- The device that the component runs, or is about to. -/
structure Runs (K : OtaLinkConfig UInt8) (d₀ : OtaLink.Device UInt8) (c : Component)
    (s : List UInt8 × OtaLink.Device UInt8) : Prop where
  sound : c.Sound
  stopped : c.boot.taskHandle = false → s = ([], d₀)
  running : c.boot.taskHandle = true → c.config.toOtaLinkConfig = K ∧ Follows d₀ c.firmware s

@[simp] theorem filterMap_shown (w : Callback) (context : Context) (events : List Event) :
    (events.map (shown w context)).filterMap Call.event? = events := by
  induction events with
  | nil => rfl
  | cons event events ih => cases event <;> simp [shown, Call.event?, ih]

/-- An input is what the device hears of it. -/
theorem Moved.runs (h₀ : OtaLink.otaLinkStartWithConfig K = some d₀) (h : Runs K d₀ c s)
    (hK : x.uses K) (hm : Moved c x c' calls) : ∃ s',
      runFrom (fun s x => some ((hear s x).1, (hear s x).2.filterMap view)) s (c.hears x) =
        some (s', calls.filterMap Call.event?) ∧ Runs K d₀ c' s' := by
  have hsound := hm.sound h.sound
  cases hm with
  | start hs =>
    cases hs with
    | refused => exact ⟨s, rfl, hsound, h.stopped, h.running⟩
    | failed _ hc hc' _ _ _ _ hadds =>
      refine ⟨s, ?_, hsound, fun _ => h.stopped hc, ?_⟩
      · rw [hadds.silent]
        rfl
      · exact fun hrun => absurd (hc'.symm.trans hrun) Bool.false_ne_true
    | started hc hb hk ha hr hw hv hadds =>
      refine ⟨s, ?_, hsound, ?_, fun _ => ⟨hK, ?_⟩⟩
      · rw [hadds.silent]
        rfl
      · exact fun hstop => absurd (hstop.symm.trans hb) Bool.false_ne_true
      · rw [h.stopped hc, (h.sound.stopped hc).1]
        subst hK
        exact follows_boot h₀ ha
  | @idle byte esp hc =>
    refine ⟨s, ?_, h⟩
    cases byte <;> simp [Component.hears, hc]
  | wait | unasked | unmarked | refused | kept => exact ⟨s, rfl, h⟩
  | @octet byte esp r w f events hc hw hf hb =>
    obtain ⟨hconf, hs⟩ := h.running hc
    obtain ⟨f', hf', hs'⟩ := step_of_follows h₀ hs byte esp
    rw [← hconf, hf] at hf'
    obtain ⟨rfl, rfl⟩ := Prod.mk.inj (Option.some.inj hf')
    refine ⟨_, ?_, hsound, ?_, fun _ => ⟨hconf, hs'⟩⟩
    · rw [Component.hears, if_pos hc, runFrom_cons rfl, List.filterMap_cons_none rfl,
        filterMap_shown]
      simp
    · exact fun hstop => absurd (hstop.symm.trans hc) Bool.false_ne_true
  | @reboot byte esp r w f events hc hw hf hb =>
    obtain ⟨hconf, hs⟩ := h.running hc
    obtain ⟨f', hf', hs'⟩ := step_of_follows h₀ hs byte esp
    rw [← hconf, hf] at hf'
    obtain ⟨rfl, rfl⟩ := Prod.mk.inj (Option.some.inj hf')
    refine ⟨_, ?_, hsound, fun _ => hear_of_reboots hs.restarted hb, nofun⟩
    rw [Component.hears, if_pos hc, runFrom_cons rfl, List.filterMap_cons_none rfl,
      List.filterMap_append, filterMap_shown, List.filterMap_cons_none rfl]
    simp
  | @asked caller =>
    refine ⟨s, ?_, hsound, h.stopped, h.running⟩
    cases caller <;> rfl
  | @answered caller =>
    refine ⟨s, ?_, hsound, h.stopped, h.running⟩
    cases caller <;> rfl
  | @marked caller =>
    refine ⟨s, ?_, hsound, h.stopped, h.running⟩
    cases caller <;> rfl
  | store | flush => exact ⟨s, rfl, hsound, h.stopped, h.running⟩
  | rollback | reset =>
    refine ⟨([], d₀), ?_, hsound, fun _ => rfl, nofun⟩
    rw [Component.hears, runFrom_cons rfl]
    simp only [hear, runFrom_nil]
    have hd : s.2.restarted = d₀ := by
      cases hc : c.boot.taskHandle with
      | false => rw [h.stopped hc, restarted_otaLinkStartWithConfig h₀]
      | true => exact (h.running hc).2.restarted
    rw [hd]
    rfl

theorem restarts_shown (w : Callback) (context : Context) (events : List Event) :
    (events.map (shown w context)).filterMap Call.restarts = [] := by
  induction events with
  | nil => rfl
  | cons event events ih => cases event <;> simpa [shown, Call.restarts] using ih

/-- An input is what the boot counter sees of it. -/
theorem Moved.boot (hm : Moved c x c' calls) (hx : c.step x = some (c', calls)) :
    c'.boot = c.boot.run (c.counts x) := by
  cases hm with
  | start _ hb => exact hb
  | idle | wait =>
    rw [Component.counts, hx]
    rfl
  | octet =>
    rw [Component.counts, hx, Option.elim_some, List.filterMap_cons_none rfl, restarts_shown]
    rfl
  | reboot =>
    rw [Component.counts, hx, Option.elim_some, List.filterMap_cons_none rfl,
      List.filterMap_append, restarts_shown]
    rfl
  | unasked | asked | answered | unmarked | marked | refused | rollback | kept | store | flush
  | reset => rfl

end Refine

/-- **The component refines the device and the boot counter.** In an application whose starts
all use one key, the frames written and the calls of the dispatcher are those of the device of
this key on the packets that arrive while the command task runs, through every restart and
every start that fails; and the count goes as the starts, the restarts and the writes of NVS
say. -/
theorem component_refines {K : OtaLinkConfig UInt8} {d₀ : OtaLink.Device UInt8}
    (h₀ : OtaLink.otaLinkStartWithConfig K = some d₀) (tables : Tables) (flash : Option UInt32)
    (xs : List Input) (hK : ∀ x ∈ xs, x.uses K) : ∃ c calls,
    (Component.booted tables flash).run xs = some (c, calls) ∧
    calls.filterMap Call.event? = (d₀.run (stimuli []
      (matching Component.step Component.hears (.booted tables flash) xs))).2.filterMap view ∧
    c.boot = (Boot.State.booted flash).run
      (matching Component.step Component.counts (.booted tables flash) xs) := by
  have hboot : Runs K d₀ (.booted tables flash) ([], d₀) :=
    ⟨.booted tables flash, fun _ => rfl, nofun⟩
  obtain ⟨c, s, calls, hrun, hheard, -⟩ := @runFrom_simulates _ _ _ _ _ _ Component.step _
    (Runs K d₀) Component.hears Call.event? xs
    (fun c s x hx h => by
      obtain ⟨c', new, hstep, hmoved⟩ := h.sound.step x
      obtain ⟨s', hs', h'⟩ := hmoved.runs h₀ h (hK x hx)
      exact ⟨c', s', new, hstep, hs', h'⟩) (.booted tables flash) _ hboot
  obtain ⟨s', hs'⟩ := @runFrom_hear ([], d₀) (matching Component.step Component.hears
    (.booted tables flash) xs)
  rw [hheard] at hs'
  -- The count.
  obtain ⟨c', b, calls', hrun', hcount, -, rfl⟩ := @runFrom_simulates _ _ _ _ _ _ Component.step
    (fun b e => some (Boot.State.after b e, ([] : List Unit)))
    (fun c b => c.Sound ∧ c.boot = b) Component.counts (fun _ => none) xs
    (fun c b x _ ⟨h, hb⟩ => by
      obtain ⟨c', new, hstep, hmoved⟩ := h.step x
      refine ⟨c', _, new, hstep, ?_, hmoved.sound h, hmoved.boot hstep⟩
      rw [runFrom_silent, ← hb]
      simp [Boot.State.run]) (.booted tables flash) _ ⟨.booted tables flash, rfl⟩
  rw [hrun] at hrun'
  obtain ⟨rfl, rfl⟩ := Prod.mk.inj (Option.some.inj hrun')
  rw [runFrom_silent] at hcount
  exact ⟨c, calls, hrun, (Prod.mk.inj (Option.some.inj hs')).2,
    (Prod.mk.inj (Option.some.inj hcount)).1.symm⟩

/-! ### A start that fails, one that succeeds, and a PING -/

/-- An application without transports. -/
def sampleTables : Tables := fun _ => ⟨none, none⟩

def sampleAnswers : Answers where
  toAnswers := .succeeding
  uartError := ⟨-1, by decide⟩
  statePartition := .ok .valid
  validTaskCreate := true

/-- The first start cannot set the pins. -/
def sampleHistory : List Input :=
  [.start (some .default) { sampleAnswers with uartSetPin := false },
    .start (some .default) sampleAnswers] ++
  (OtaLink.protocolSendPacket Command.ping.code 7 []).map
    (fun byte => .turn (some byte) sampleResults) ++
  [.reset]

theorem component_refines_ping : ∃ c calls,
    (Component.booted sampleTables none).run sampleHistory = some (c, calls) ∧
    calls.filterMap Call.event? = ((⟨.cleared, .cleared⟩ : OtaLink.Device UInt8).run (stimuli []
      (matching Component.step Component.hears (.booted sampleTables none)
        sampleHistory))).2.filterMap view ∧
    c.boot = (Boot.State.booted none).run
      (matching Component.step Component.counts (.booted sampleTables none) sampleHistory) :=
  component_refines (K := Config.default.toOtaLinkConfig) rfl sampleTables none sampleHistory (by
    intro x hx
    simp only [sampleHistory, List.mem_append, List.mem_cons, List.mem_map, List.not_mem_nil,
      or_false] at hx
    rcases hx with ((rfl | rfl) | ⟨byte, -, rfl⟩) | rfl <;> trivial)

end OtaLink.Mem.Start
