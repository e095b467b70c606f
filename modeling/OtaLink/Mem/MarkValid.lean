import OtaLink.Mem.Lifecycle

/-!
# Marking the image valid

With the rollback of the boot loader an image that has just been installed waits to be marked
valid. `ota_link_mark_app_valid` asks the platform for the state of the running image first, and
marks it by a second call. The task that a start has created for it may be between the two while
tasks of the application are so too; the platform may then mark one image twice, but no task marks
it that has not been told to.

## Main definitions

* `Start.Asked` — what a task has been told last.
* `Start.Justified` — the image is marked valid only by a task that has just been told to.
* `Start.marked_valid` — and not unasked.
-/

namespace OtaLink.Mem.Start
open Lib

/-- In its last call the task has asked the platform, which has said that the image is to be
marked; the device has not started again since. -/
def Asked (caller : Caller) (calls : List Call) : Prop :=
  ∃ pre state, NeedsMark state ∧
    calls.filter (Call.concerns caller) = pre ++ [.getStatePartition caller state]

/-- The image is marked valid only by a task that has just been told to. -/
def Justified (calls : List Call) : Prop :=
  ∀ pre caller err post, calls = pre ++ .markAppValidCancelRollback caller err :: post →
    Asked caller pre

/-- How often an input asks for the image to be marked valid. -/
def Input.asks : Input → ℕ
  | .ask (.application _) _ => 1
  | .start (some config) _ => if config.autoMarkAppValid then 1 else 0
  | _ => 0

/-- The marks that are still to come: of the tasks that have been told to, and of the one that has
not asked yet. -/
def Component.owes (c : Component) : ℕ :=
  c.asking.card + if c.markValidTaskHandle ∧ .otaLinkValid ∉ c.asking then 1 else 0

section Mark
variable {c c' : Component} {x : Input} {calls new : List Call} {caller : Caller}

theorem Asked.append (h : Asked caller calls) (hnew : new.filter (Call.concerns caller) = []) :
    Asked caller (calls ++ new) := by
  obtain ⟨pre, state, hstate, heq⟩ := h
  exact ⟨pre, state, hstate, by rw [List.filter_append, heq, hnew, List.append_nil]⟩

theorem Justified.append (h : Justified calls)
    (hnew : ∀ pre caller err post, new = pre ++ .markAppValidCancelRollback caller err :: post →
      Asked caller (calls ++ pre)) : Justified (calls ++ new) := by
  intro pre caller err post heq
  rcases List.append_eq_append_iff.mp heq with ⟨mid, rfl, hmid⟩ | ⟨mid, hmid, hpost⟩
  · exact hnew mid caller err post hmid
  · cases mid with
    | nil =>
      have hasked := hnew [] caller err post hpost.symm
      rwa [hmid, List.append_nil, List.append_nil] at hasked
    | cons m mid =>
      obtain ⟨rfl, -⟩ := List.cons.inj hpost
      exact h pre caller err mid hmid

theorem Justified.unmarked (h : Justified calls) (hnew : new.countP Call.marks = 0) :
    Justified (calls ++ new) := by
  refine h.append ?_
  rintro pre caller err post rfl
  simp [List.countP_append, Call.marks] at hnew

/-- What concerns no caller marks nothing. -/
theorem countP_of_unconcerned (h : ∀ caller, new.filter (Call.concerns caller) = []) :
    new.countP Call.marks = 0 := by
  refine List.countP_eq_zero.mpr fun call hcall hmarks => ?_
  cases call with
  | markAppValidCancelRollback caller err =>
    exact List.filter_eq_nil_iff.mp (h caller) _ hcall (by simp [Call.concerns])
  | _ => cases hmarks

theorem filter_shown (r w : Callback) (context : Context) (events : List Event) (caller : Caller) :
    (.read r context :: events.map (shown w context)).filter (Call.concerns caller) = [] := by
  rw [List.filter_cons_of_neg (by simp [Call.concerns])]
  induction events with
  | nil => rfl
  | cons event events ih => cases event <;> simpa [shown, Call.concerns] using ih

/-- What has been called fits the state. -/
structure Marking (c : Component) (calls : List Call) : Prop where
  justified : Justified calls
  asked : ∀ caller ∈ c.asking, Asked caller calls

/-- Calls that concern no caller. -/
theorem Marking.unconcerned (h : Marking c calls) (hask : c'.asking = c.asking)
    (hnew : ∀ caller, new.filter (Call.concerns caller) = []) : Marking c' (calls ++ new) :=
  ⟨h.justified.unmarked (countP_of_unconcerned hnew),
    fun caller hin => (h.asked caller (hask ▸ hin)).append (hnew caller)⟩

/-- A restart ends all calls. -/
theorem Marking.restarted (h : Marking c calls) (hnew : new.countP Call.marks = 0)
    (tables : Tables) (flash : Option UInt32) : Marking (.booted tables flash) (calls ++ new) :=
  ⟨h.justified.unmarked hnew, fun _ hin => absurd hin (Finset.notMem_empty _)⟩

/-- **One input** keeps that. -/
theorem Moved.marking (h : Marking c calls) (hm : Moved c x c' new) :
    Marking c' (calls ++ new) := by
  cases hm with
  | start hs =>
    cases hs with
    | refused => exact h.unconcerned rfl fun _ => rfl
    | failed _ _ _ _ _ _ hask hadds => exact h.unconcerned hask hadds.unconcerned
    | started _ _ _ _ _ _ _ hadds => exact h.unconcerned rfl hadds.unconcerned
  | idle | wait | unasked | unmarked | refused | kept | store | flush =>
    exact h.unconcerned rfl fun _ => rfl
  | octet => exact h.unconcerned rfl (filter_shown _ _ _ _)
  | reboot =>
    refine h.restarted ?_ _ _
    rw [← List.cons_append, List.countP_append, countP_of_unconcerned (filter_shown _ _ _ _)]
    rfl
  | rollback | reset => exact h.restarted rfl _ _
  | @asked caller state hn hc hs =>
    have hunmarked : (caller.before c ++ [Call.getStatePartition caller state]).countP
        Call.marks = 0 := by cases caller <;> rfl
    refine ⟨h.justified.unmarked hunmarked, fun caller' hin => ?_⟩
    by_cases heq : caller' = caller
    · subst heq
      refine ⟨calls.filter (Call.concerns caller'), state, hs, ?_⟩
      rw [List.filter_append]
      cases caller' <;> simp [Caller.before, Call.concerns]
    · refine (h.asked caller' (Finset.mem_of_mem_insert_of_ne hin heq)).append ?_
      cases caller <;> simp [Caller.before, Call.concerns, Ne.symm heq]
  | @answered caller state hn =>
    have hunmarked : (caller.before c ++ Call.getStatePartition caller state :: caller.after).countP
        Call.marks = 0 := by cases caller <;> rfl
    refine ⟨h.justified.unmarked hunmarked, fun caller' hin => ?_⟩
    have hne : caller ≠ caller' := fun heq => hn (heq ▸ hin)
    refine (h.asked caller' hin).append ?_
    cases caller <;> simp [Caller.before, Caller.after, Call.concerns, hne]
  | @marked caller err hin =>
    refine ⟨h.justified.append ?_, fun caller' hin' => ?_⟩
    · intro pre caller' err' post heq
      cases pre with
      | nil =>
        obtain ⟨hfirst, -⟩ := List.cons.inj heq
        obtain ⟨rfl, -⟩ := Call.markAppValidCancelRollback.inj hfirst
        rw [List.append_nil]
        exact h.asked caller hin
      | cons call pre =>
        obtain ⟨-, hrest⟩ := List.cons.inj heq
        have hmem : .markAppValidCancelRollback caller' err' ∈ caller.after := by simp [hrest]
        cases caller <;> simp [Caller.after] at hmem
    · have hne : caller ≠ caller' := (Finset.ne_of_mem_erase hin').symm
      refine (h.asked caller' (Finset.mem_of_mem_erase hin')).append ?_
      cases caller <;> simp [Caller.after, Call.concerns, hne]

/-- **One input** pays for the marks it causes, and for those still to come. -/
theorem Moved.marks (h : c.Sound) (hm : Moved c x c' new) :
    new.countP Call.marks + c'.owes ≤ x.asks + c.owes := by
  cases hm with
  | start hs =>
    cases hs with
    | refused => simp
    | failed _ _ _ _ hv _ hask hadds =>
      simp [countP_of_unconcerned hadds.unconcerned, Component.owes, hv, hask]
    | @started config _ _ _ _ valid _ hc _ _ _ _ _ hv hadds =>
      have hnone := (h.stopped hc).2
      cases valid with
      | false => simp [countP_of_unconcerned hadds.unconcerned, Component.owes, hnone]
      | true =>
        simp only [countP_of_unconcerned hadds.unconcerned, Component.owes, Input.asks, hv rfl]
        split <;> simp <;> omega
  | idle | wait | unasked | unmarked | refused | kept | store | flush =>
    simp [Call.marks, Component.owes]
  | octet =>
    rw [countP_of_unconcerned (filter_shown _ _ _ _)]
    simp [Component.owes]
  | reboot =>
    rw [← List.cons_append, List.countP_append, countP_of_unconcerned (filter_shown _ _ _ _)]
    simp [Call.marks, Component.booted, Component.owes]
  | rollback | reset => simp [Call.marks, Component.booted, Component.owes]
  | @asked caller state hn hc hs =>
    cases caller with
    | otaLinkValid => simp [Caller.before, Call.marks, Component.owes, hn, hc rfl]
    | application =>
      simp [Caller.before, Call.marks, Component.owes, hn, Input.asks]
      omega
  | @answered caller state hn hc =>
    cases caller with
    | otaLinkValid =>
      simp [Caller.before, Caller.after, Call.marks, Component.owes, Component.left]
      omega
    | application => simp [Caller.before, Caller.after, Call.marks, Component.owes, Component.left]
  | @marked caller err hin =>
    have hone : (Call.markAppValidCancelRollback caller err :: caller.after).countP
        Call.marks = 1 := by cases caller <;> rfl
    have hcard := Finset.card_erase_add_one hin
    rw [hone]
    cases caller with
    | otaLinkValid =>
      simp [Component.owes, Component.left, hin]
      omega
    | application =>
      simp [Component.owes, Component.left]
      omega

end Mark

/-- **The image is not marked valid unasked.** Whatever is called, by whatever task and at
whatever time, and whatever arrives, each task marks the running image valid only directly after
the platform has told it that the image is new or waits for its verification, and all together at
most once for each call of the application and each start that asks for it. -/
theorem marked_valid (tables : Tables) (flash : Option UInt32) (xs : List Input) : ∃ c calls,
    (Component.booted tables flash).run xs = some (c, calls) ∧ Justified calls ∧
    calls.countP Call.marks ≤ (xs.map Input.asks).sum := by
  obtain ⟨c, calls, hrun, -, hmarking⟩ := @runFrom_induction _ _ _ Component.step
    (fun c calls => c.Sound ∧ Marking c calls) xs
    (fun c calls x _ ⟨h, hmarking⟩ => by
      obtain ⟨c', new, hstep, hmoved⟩ := h.step x
      exact ⟨c', new, hstep, hmoved.sound h, hmoved.marking hmarking⟩)
    (.booted tables flash) []
    ⟨.booted tables flash, by simp [Justified], fun _ hin => absurd hin (Finset.notMem_empty _)⟩
  obtain ⟨c', calls', hrun', -, hmarks⟩ := @runFrom_amortised _ _ _ Component.step
    Component.Sound Component.owes Call.marks Input.asks
    (fun c x h => by
      obtain ⟨c', new, hstep, hmoved⟩ := h.step x
      exact ⟨c', new, hstep, hmoved.sound h, hmoved.marks h⟩) xs _ (.booted tables flash)
  rw [List.nil_append] at hmarking
  rw [hrun] at hrun'
  obtain ⟨rfl, rfl⟩ := Prod.mk.inj (Option.some.inj hrun')
  exact ⟨c, calls, hrun, hmarking.justified,
    by simpa [Component.booted, Component.owes] using (Nat.le_add_right _ _).trans hmarks⟩

end OtaLink.Mem.Start
