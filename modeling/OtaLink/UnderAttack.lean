import OtaLink.Authentic
import OtaLink.FailClosed
import OtaLink.Honest

/-!
# An update under attack

The link belongs to an attacker, who drops, repeats, delays, reorders and invents packets. He
executes nothing but what the client has built, and the client builds only the calls of its
update; whatever copies of these arrive and in whatever order, an open session holds a part of
the file. So he can prevent an update, but not change it.

## Main definitions

* `Net.world` — the device, with all that it has received, sent and asked the platform for.
* `Recorded` — the record of the client agrees with the log.
* `Intact` — what no moment of an update breaks.
* `update_under_attack` — the theorem.
-/

namespace OtaLink
open Lib

/-! ## The log as a trace of the device -/

/-- What the device has received, sent and asked the platform for, in order. -/
def eventsOf : List (Happening Octet) → List (Event Octet)
  | [] => []
  | .built _ :: log => eventsOf log
  | .handled d esp m :: log => eventsOf log ++ (d.step esp m).2
  | .reset :: log => eventsOf log ++ [.reset]

def Net.world (s : Net) : World Octet := ⟨s.device, eventsOf s.log⟩

/-- The platform has offered no partition that is too large for its offsets. -/
def Happening.fits : Happening Octet → Bool
  | .handled _ esp _ => decide esp.partitionsFit
  | _ => true

/-! ## What the client asks for -/

section Calls
variable {cfg : HostConfig Octet} {f : List Octet} {c : Command} {payload : List Octet}

theorem derives_le32 (s : Net) (n : ℕ) : s.Derives (le32 n) := by
  intro a ha
  simp only [le32, List.mem_cons, List.not_mem_nil, or_false] at ha
  rcases ha with rfl | rfl | rfl | rfl <;> exact .lit _

theorem Net.Derives.append {s : Net} {xs ys : List Octet} (hx : s.Derives xs)
    (hy : s.Derives ys) : s.Derives (xs ++ ys) := fun a ha =>
  (List.mem_append.mp ha).elim (hx a) (hy a)

/-- The call is part of the update of a file whose size the header can carry. -/
def Meant (cfg : HostConfig Octet) (f : List Octet) (c : Command) (payload : List Octet) : Prop :=
  f.length < 2 ^ 32 ∧ (c, payload) ∈ updateCalls cfg f

/-- A packet with the body of one of these calls belongs to the update. -/
theorem Meant.ofUpdate (h : Meant cfg f c payload) {q : Packet Octet} (hc : q.command = c.code)
    (hb : q.body true = payload) : OfUpdate f true true q := by
  obtain ⟨hlt, hmem⟩ := h
  rcases List.mem_cons.mp hmem with heq | hmem
  · obtain ⟨rfl, rfl⟩ := Prod.mk.inj heq
    exact .announces hc hb
  rcases List.mem_append.mp hmem with hmem | hmem
  · obtain ⟨k, hk, heq⟩ := List.mem_map.mp hmem
    obtain ⟨rfl, rfl⟩ := Prod.mk.inj heq
    have hoff : k * maxOtaChunkDataSize cfg < 2 ^ 32 := by
      have hpos := maxOtaChunkDataSize_pos cfg
      have hlast := Nat.mul_le_mul_right (maxOtaChunkDataSize cfg)
        (Nat.succ_le_of_lt (List.mem_range.mp hk))
      have hall := Nat.div_mul_le_self (f.length + maxOtaChunkDataSize cfg - 1)
        (maxOtaChunkDataSize cfg)
      rw [← chunkCount, Nat.succ_mul] at *
      omega
    refine .carries rfl hc ?_
    have h4 : (q.body true).drop 4 =
        le32 (k * maxOtaChunkDataSize cfg) ++ block cfg f k := by
      rw [hb, List.append_assoc]
      rfl
    have h8 : (q.body true).drop otaDataHeaderSize = block cfg f k := by
      rw [hb, List.append_assoc]
      rfl
    rw [h4, h8, readU32Le_le32 hoff]
    exact List.take_prefix _ _
  · obtain ⟨rfl, rfl⟩ := Prod.mk.inj (List.mem_singleton.mp hmem)
    exact .finishes rfl hc

end Calls

/-! ## One packet -/

section Step
variable {f : List Octet} {w : World Octet} {q : Packet Octet} {esp : EspIdf Octet}

/-- A packet that is not executed changes no session. -/
theorem Ours.idle (h : Ours f w) (hidle : ∀ c payload, q.version = protocolVersion →
      q.command = Command.code c → c.isProtected = true → w.device.auth.gate q ≠ .run payload) :
    Ours f (w.step esp q) := by
  have hstep := step_cases w.device esp q
  obtain ⟨hota, hquiet⟩ : (w.device.step esp q).1.ota = w.device.ota ∧
      ∀ e ∈ (w.device.step esp q).2, e.isQuiet = true := by
    generalize w.device.step esp q = x at hstep
    cases hstep with
    | run c hv hc hp hg => exact absurd hg (hidle c _ hv hc hp)
    | status | info | challenge | proof | resend | refuse =>
      exact ⟨rfl, by simp [Event.isQuiet]⟩
  intro hactive
  have hactive : w.device.ota.active = true := hota ▸ hactive
  obtain ⟨S, HS, hsize, hp, hd⟩ := h hactive
  obtain ⟨hk, hw, HS'⟩ := HS.quiet hquiet
  refine ⟨S.extend _ hk hw, ?_, hsize, hp, ?_⟩
  · simpa only [World.step, hota] using HS'
  · simpa [written_of_isQuiet hquiet] using hd

/-- Every packet that is executed belongs to the update. -/
theorem Ours.step_executed (h : Ours f w) (hfit : esp.partitionsFit)
    (hq : ∀ c payload, q.version = protocolVersion → q.command = Command.code c →
      c.isProtected = true → w.device.auth.gate q = .run payload →
      OfUpdate f w.device.auth.required true q) : Ours f (w.step esp q) := by
  by_cases hrun : ∃ c payload, q.version = protocolVersion ∧ q.command = Command.code c ∧
      c.isProtected = true ∧ w.device.auth.gate q = .run payload
  · obtain ⟨c, payload, hv, hc, hp, hg⟩ := hrun
    exact h.step (hq c payload hv hc hp hg) hfit
  · exact h.idle fun c payload hv hc hp hg => hrun ⟨c, payload, hv, hc, hp, hg⟩

/-- Where an `OTA_END` was executed with success, it was let through. -/
theorem run_of_operate {c : Command} {n : UInt16} {payload : List Octet}
    (h : .operate c n payload .ok ∈ (w.device.step esp q).2) :
    ∃ payload, q.version = protocolVersion ∧ q.command = c.code ∧
      w.device.auth.gate q = .run payload ∧
      (execute esp w.device.ota c q.sequence payload).error = .ok := by
  have hstep := step_cases w.device esp q
  generalize w.device.step esp q = x at hstep h
  cases hstep with
  | @run c' hv hc hp payload' hg o ho =>
    have hmem : .operate c n payload .ok ∈ o.events := by
      simp only [List.mem_cons, List.mem_append, reduceCtorEq, false_or] at h
      exact List.mem_append.mpr h
    have heq := (@mem_events_execute _ _ esp w.device.ota payload' c' hp q.sequence).1 _
      (ho ▸ hmem) rfl
    obtain ⟨rfl, rfl, rfl, herror⟩ := Event.operate.inj heq
    exact ⟨payload, hv, hc, hg, herror.symm⟩
  | _ => simp at h

end Step

/-! ## The moments of an update -/

/-- The platform is asked to boot a partition in which it has accepted exactly the file, in one
session that has been ended and read back. -/
def Boots (f : List Octet) (partition : Option Partition) (ok : Bool)
    (trace : List (Event Octet)) : Prop :=
  ∃ (S : Session Octet) (packet : Packet Octet), partition = some S.partition ∧
    S.payload = announcement f ∧ S.data = f ∧
    S.events ++ [.receive packet, .otaEnd S.handle true,
      .partitionGetSha256 (some S.partition) (some S.sha256),
      .setBootPartition (some S.partition) ok] <:+: trace

theorem Boots.append {f : List Octet} {partition : Option Partition} {ok : Bool}
    {trace : List (Event Octet)} (h : Boots f partition ok trace) (more : List (Event Octet)) :
    Boots f partition ok (trace ++ more) := by
  obtain ⟨S, packet, hpartition, hp, hd, hs⟩ := h
  exact ⟨S, packet, hpartition, hp, hd, hs.trans (List.prefix_append _ _).isInfix⟩

/-- What no moment of an update breaks: a session that is open holds a part of the file, the boot
partition is switched to the file only, and an `OTA_END` that was executed has finalised the
file. -/
structure Intact (f : List Octet) (s : Net) : Prop where
  ours : Ours f s.world
  switched {partition : Option Partition} {ok : Bool}
    (h : .setBootPartition partition ok ∈ s.world.trace) : Boots f partition ok s.world.trace
  ended {key : List Octet} {n : UInt16} {payload : List Octet}
    (h : Executed s.log key .otaEnd n payload) : Finalised f s.world

section Intact
variable {psk f : List Octet} {cfg : HostConfig Octet} {s : Net} {esp : EspIdf Octet}
  {m : Packet Octet}

/-- All that the client has built so far belongs to the update. -/
def OnlyMeant (cfg : HostConfig Octet) (f : List Octet) (s : Net) : Prop :=
  ∀ key c n payload, Built s.log key c n payload → Meant cfg f c payload

/-- Only the calls of the update are executed. -/
theorem Authored.meant_of_run (A : Authored psk s) (hpsk : IsSecret psk)
    (hmeant : OnlyMeant cfg f s) (hm : s.Derives m.payload) {c : Command} {payload : List Octet}
    (hc : m.command = c.code) (hp : c.isProtected = true)
    (hg : s.device.auth.gate m = .run payload) : Meant cfg f c payload := by
  obtain ⟨ha, -, hu⟩ := lookup_of_run hg A.required
  have hs : s.device.auth.signs m.command = true := by
    simp [AuthState.signs, A.required, ha, hc, hp]
  have hpay := ((authUnwrapPacket_eq_ok hs).mp hu).1
  rw [hc, (A.live (.inr ha)).1] at hpay
  have hbuilt : Built s.log (s.device.auth.pair.sessionKey psk) c m.sequence payload := by
    refine built_of_derives hpsk fun a ha => A.derives hm a ?_
    rw [hpay]
    exact List.mem_append_right _ ha
  exact hmeant _ c m.sequence payload hbuilt

/-- A session that is closed to switch the boot partition holds the whole file. -/
theorem Intact.boots (H : Intact f s) (A : Authored psk s) (hpsk : IsSecret psk)
    (hmeant : OnlyMeant cfg f s) (hm : s.Derives m.payload) {partition : Option Partition}
    {ok : Bool} (h : .setBootPartition partition ok ∈ (s.device.step esp m).2) :
    Boots f partition ok (s.world.trace ++ (s.device.step esp m).2) := by
  have hstep := step_ota s.device esp m
  generalize (s.device.step esp m).1.ota = ota at hstep
  generalize (s.device.step esp m).2 = events at hstep h
  cases hstep with
  | quiet hquiet => exact absurd (hquiet _ h) (by simp [Event.isQuiet])
  | opened | wrote => simp at h
  | closed hne => exact absurd rfl (hne _ h _ _)
  | @finished payload error ok' hc hg hactive hsize =>
    obtain ⟨rfl, rfl⟩ : partition = s.device.ota.partition ∧ ok = ok' := by simpa using h
    obtain ⟨S, HS, -, hp, hd⟩ := H.ours hactive
    have hbytes : s.device.ota.bytesReceived = S.data.length := HS.bytesReceived
    have hfirmware : s.device.ota.firmwareSize = S.size := HS.firmwareSize
    have hlt := (A.meant_of_run hpsk hmeant hm hc rfl hg).1
    have hlen : S.data.length = f.length := by
      rw [← hbytes, hsize, hfirmware, Session.size, hp, announcement, readU32Le_le32 hlt]
    obtain ⟨before, hbefore⟩ := HS.suffix
    refine ⟨S, m, HS.partition, hp, hd.eq_of_length hlen, before,
      [.operate .otaEnd m.sequence payload error, .send (s.device.reply m error)], ?_⟩
    have hhandle : s.device.ota.handle = S.handle := HS.handle
    have hpartition : s.device.ota.partition = some S.partition := HS.partition
    have hsha : s.device.ota.expectedSha256 = S.sha256 := HS.expectedSha256
    simp [← hbefore, hhandle, hpartition, hsha]

/-- **One packet of the attacker.** -/
theorem Intact.handle (H : Intact f s) (A : Authored psk s) (hpsk : IsSecret psk)
    (hmeant : OnlyMeant cfg f s) (hm : s.Derives m.payload) (hfit : esp.partitionsFit) :
    Intact f (s.handle esp m) := by
  have hof : ∀ c payload, m.version = protocolVersion → m.command = Command.code c →
      c.isProtected = true → s.device.auth.gate m = .run payload →
      OfUpdate f s.device.auth.required true m := by
    intro c payload hv hc hp hg
    have hbody := body_of_run (by simp [hc, hp]) hg
    rw [A.required] at hbody ⊢
    exact (A.meant_of_run hpsk hmeant hm hc hp hg).ofUpdate hc hbody
  refine ⟨H.ours.step_executed hfit hof, fun h => ?_, fun h => ?_⟩
  · rcases List.mem_append.mp h with h | h
    · exact (H.switched h).append _
    · exact H.boots A hpsk hmeant hm h
  rcases executed_handled h with ⟨-, -, ho⟩ | h
  · obtain ⟨payload, hv, hc, hg, hok⟩ := run_of_operate (w := s.world) ho
    have hlt := (A.meant_of_run hpsk hmeant hm hc rfl hg).1
    exact finalised_of_run H.ours hlt hv hc hg hok
  · exact (H.ended h).append _

theorem Intact.reset (H : Intact f s) : Intact f s.reset :=
  ⟨@Ours.reset _ _ f s.world,
    fun h => (H.switched (by simpa [Net.world, Net.reset, eventsOf] using h)).append _,
    fun h => (H.ended (executed_reset.mp h)).append _⟩

theorem Intact.build (H : Intact f s) : Intact f (s.build m) :=
  ⟨H.ours, H.switched, fun h => H.ended (executed_built.mp h)⟩

end Intact

/-! ## The record of the client -/

/-- What the client has put on the link is in its record, and what is there as received could
be made. -/
structure Recorded (s : Net) (trace : List (Spoken (Packet Octet))) : Prop where
  built {m : Packet Octet} (h : .built m ∈ s.log) : .sent m ∈ trace
  derives {r : Packet Octet} (h : .received r ∈ trace) : s.Derives r.payload

section Recorded
variable {psk f : List Octet} {cfg : HostConfig Octet} {s s' : Net}
  {trace : List (Spoken (Packet Octet))}

theorem Recorded.rely (h : Recorded s trace) (hs : s.Rely s') : Recorded s' trace where
  built hm := by
    refine h.built ?_
    cases hs <;> simpa [Net.handle, Net.reset] using hm
  derives hr := (h.derives hr).mono hs.subset

theorem Recorded.build (h : Recorded s trace) (m : Packet Octet) :
    Recorded (s.build m) (trace ++ [.sent m]) where
  built hm := by
    rcases List.mem_cons.mp hm with heq | hm
    · cases heq
      simp
    · exact List.mem_append_left _ (h.built hm)
  derives {r} hr := by
    have hr : .received r ∈ trace := by simpa using hr
    exact (h.derives hr).mono log_subset_build

theorem Recorded.receive (h : Recorded s trace) {r : Option (Packet Octet)}
    (hr : ∀ m, r = some m → s.Derives m.payload) :
    Recorded s (trace ++ r.toList.map .received) where
  built hm := List.mem_append_left _ (h.built hm)
  derives hm := by
    rcases List.mem_append.mp hm with hm | hm
    · exact h.derives hm
    · obtain ⟨m, hmem, heq⟩ := List.mem_map.mp hm
      cases heq
      exact hr _ (Option.mem_toList.mp hmem)

/-- What a careful client has built belongs to the update. -/
theorem Recorded.onlyMeant (h : Recorded s trace)
    (hl : Lawful (Permitted psk (Meant cfg f)) trace) : OnlyMeant cfg f s := by
  rintro key c n payload ⟨hp, hb⟩
  obtain ⟨before, after, htrace⟩ := List.mem_iff_append.mp (h.built hb)
  have hpermitted := hl before _ after htrace
  generalize hm : tagged key c n payload = m at hpermitted
  have hcode : m.command = c.code := by rw [← hm]; rfl
  cases hpermitted with
  | @query c' _ hq =>
    have hc : c' = c := Command.code_inj.mp hcode
    rcases hq with rfl | rfl <;> subst hc <;> cases hp
  | challenge | proof =>
    have hc : Command.auth = c := Command.code_inj.mp hcode
    subst hc
    cases hp
  | @guarded c' _ payload' _ _ _ ha _ =>
    obtain rfl : c' = c := Command.code_inj.mp hcode
    obtain ⟨rfl, -⟩ := List.append_inj' (congrArg Packet.payload hm) (by simp)
    exact ha

end Recorded

/-! ## The client -/

section Client
variable {new : Net → List Octet → Prop} {psk f : List Octet} {cfg : HostConfig Octet}
  {c : Command} {payload : List Octet} (hpsk : IsSecret psk) (hkey : cfg.authKey = some psk)

section Own
include hpsk hkey

theorem runCommand_own (hpay : ∀ s : Net, s.Derives payload) (x : Context) :
    Attacked new psk (Own psk []) (runCommand cfg c payload x) (fun _ => Own psk [])
      (fun _ => Own psk []) := by
  have hrequest : Attacked new psk (Own psk []) (request cfg c payload) (fun _ => Own psk [])
      (fun _ => Own psk []) :=
    fun t s h => request_own hpsk hkey (fun s _ => hpay s) t t s ⟨rfl, h⟩
  refine Task.Spec.bind (Task.Spec.handle hrequest fun e => ?_) fun r =>
    (ensureAck_spec fun _ _ _ h _ => h).consequence (fun _ _ h => h) (fun _ _ _ h => h.1)
      fun _ _ _ h => h
  cases e <;> exact Task.Spec.raise fun _ _ h => h

theorem runUpdateBegin_own (hf : IsPublic f) :
    Attacked new psk (Own psk []) (runUpdateBegin cfg f) (fun _ => Own psk [])
      (fun _ => Own psk []) := by
  refine Task.Spec.ite (fun _ => Task.Spec.raise fun _ _ h => h) fun _ => ?_
  refine Task.Spec.bind (R := fun p t s => p = announcement f ∧ Own psk [] t s) ?_ fun p =>
    Task.Spec.fact fun hp => runCommand_own hpsk hkey (fun s => ?_) _
  · exact Task.Spec.ite (fun _ => Task.Spec.raise fun _ _ h => h)
      fun _ => Task.Spec.pure fun _ _ h => ⟨rfl, h⟩
  · rw [hp]
    exact (derives_le32 s _).append fun a ha => derives_public hf a (List.mem_of_mem_drop ha)

theorem sendChunks_own (hf : IsPublic f) (fuel : ℕ) :
    ∀ (k sent : ℕ) (rest : List Octet), rest ⊆ f →
      Attacked new psk (Own psk []) (sendChunks cfg fuel k sent rest) (fun _ => Own psk [])
        (fun _ => Own psk []) := by
  induction fuel with
  | zero => exact fun _ _ _ _ => Task.Spec.pure fun _ _ h => h
  | succ fuel ih =>
    intro k sent rest hrest
    refine Task.Spec.ite (fun _ => Task.Spec.pure fun _ _ h => h) fun _ => ?_
    refine Task.Spec.bind (R := fun p t s => p = le32 k ++ le32 sent ++
      rest.take (maxOtaChunkDataSize cfg) ∧ Own psk [] t s) ?_ fun p => Task.Spec.fact fun hp => ?_
    · exact Task.Spec.ite (fun _ => Task.Spec.raise fun _ _ h => h) fun _ =>
        Task.Spec.ite (fun _ => Task.Spec.raise fun _ _ h => h) fun _ =>
        Task.Spec.ite (fun _ => Task.Spec.raise fun _ _ h => h) fun _ =>
        Task.Spec.pure fun _ _ h => ⟨rfl, h⟩
    refine Task.Spec.bind (runCommand_own hpsk hkey (fun s => ?_) _) fun _ =>
      ih _ _ _ fun a ha => hrest (List.mem_of_mem_drop ha)
    rw [hp]
    exact ((derives_le32 s _).append (derives_le32 s _)).append fun a ha =>
      derives_public hf a (hrest (List.mem_of_mem_take ha))

theorem cmdUpdate_own (hf : IsPublic f) :
    Attacked new psk (Own psk []) (cmdUpdate cfg f) (fun _ => Own psk [])
      (fun _ => Own psk []) :=
  Task.Spec.bind (runUpdateBegin_own hpsk hkey hf) fun _ =>
    Task.Spec.bind (sendChunks_own hpsk hkey hf _ _ _ _ (List.Subset.refl _)) fun _ =>
      runCommand_own hpsk hkey (fun _ _ ha => absurd ha List.not_mem_nil) _

end Own

/-- The header of `OTA_BEGIN` cannot carry the size of a file of 4 GiB. -/
theorem cmdUpdate_meant {σ : Type} {E : Env Ask (Answer Octet) (Packet Octet) σ}
    (hkey : cfg.authKey = some psk) :
    Cautious E psk (Meant cfg f) (fun t trace => Standing psk (Meant cfg f) [] t trace)
      (cmdUpdate cfg f)
      (fun _ t trace => Standing psk (Meant cfg f) (updateCalls cfg f) t trace)
      (fun _ t trace => Standing psk (Meant cfg f) [] t trace) := by
  by_cases hlt : f.length < 2 ^ 32
  · exact cmdUpdate_cautious hkey fun call hcall => ⟨hlt, hcall⟩
  have hbegin : Cautious E psk (Meant cfg f) (fun t trace => Standing psk (Meant cfg f) [] t trace)
      (runUpdateBegin cfg f) (fun _ _ _ => False)
      (fun _ t trace => Standing psk (Meant cfg f) [] t trace) := by
    refine Task.Spec.ite (fun _ => Task.Spec.raise fun _ _ h => h) fun _ => ?_
    refine Task.Spec.bind (R := fun _ _ _ => False) ?_ fun _ _ _ h => h.elim
    refine Task.Spec.ite (fun _ => Task.Spec.raise fun _ _ h => h) fun h => ?_
    have hsize : 0 < f.length ∧ f.length ≤ 0xFFFFFFFF := by
      by_contra hsize
      exact h (.inl hsize)
    omega
  exact Task.Spec.bind hbegin fun _ _ _ h => h.elim

end Client

/-! ## Every run -/

/-- The last of the calls was acknowledged under a session key. -/
theorem Performed.last {psk : List Octet} {calls : List (Command × List Octet)} {c : Command}
    {payload : List Octet} {trace : List (Spoken (Packet Octet))}
    (h : Performed psk (calls ++ [(c, payload)]) trace) :
    ∃ (q : NoncePair Octet) (r : Packet Octet) (n : UInt16) (answer : List Octet),
      .received r ∈ trace ∧ r.payload =
        answer ++ responseTag (q.sessionKey psk) c.code Command.ack.code n answer := by
  generalize hall : calls ++ [(c, payload)] = all at h
  induction h with
  | start => simp at hall
  | other x _ ih =>
    obtain ⟨q, r, n, answer, hr, hpay⟩ := ih hall
    exact ⟨q, r, n, answer, List.mem_append_left _ hr, hpay⟩
  | @call _ _ _ n _ cn sn r answer _ hv _ htag _ =>
    obtain ⟨-, heq⟩ := List.append_inj' hall rfl
    obtain ⟨rfl, rfl⟩ := Prod.mk.inj (List.singleton_inj.mp heq)
    obtain ⟨_, _, _, _, _, _, hl, hl', _⟩ := hv
    exact ⟨⟨cn, sn, hl, hl'⟩, r, n, answer, by simp, htag⟩

section Run
variable {new : Net → List Octet → Prop} {psk f : List Octet} {cfg : HostConfig Octet}
  {d₀ : Device Octet} {k : UInt16}
  {c : Prog Ask (Answer Octet) (Packet Octet) (Except HostError Unit × HostState Octet) × Net}

/-- Everything on the link has its author at every moment of an update. -/
theorem cmdUpdate_authored (hpsk : IsSecret psk) (hkey : cfg.authKey = some psk) (hf : IsPublic f)
    (h₀ : Authored psk ⟨d₀, []⟩)
    (hr : (attackerEnv new).Reaches (cmdUpdate cfg f (.opened k), ⟨d₀, []⟩) c) :
    Authored psk c.2 :=
  (cmdUpdate_own hpsk hkey hf).reaches_inv (fun _ _ _ _ hs h => h.rely hpsk hs)
    (fun _ _ _ _ hs h => h.rely hpsk hs) (fun _ _ _ h => h.toAuthored)
    (fun _ _ _ h => h.toAuthored) (Since.own ⟨h₀, List.nil_subset _⟩ rfl) hr

/-- **The run lemma.** Every execution of an update has a record, and leaves the device intact. -/
theorem exists_record (hpsk : IsSecret psk) (hkey : cfg.authKey = some psk) (hf : IsPublic f)
    (h₀ : Authored psk ⟨d₀, []⟩) (hota : d₀.ota.active = false)
    (hr : (attackerEnv new).Reaches (cmdUpdate cfg f (.opened k), ⟨d₀, []⟩) c) :
    ∃ trace, (attackerEnv new).traced.Reaches
        (cmdUpdate cfg f (.opened k), (⟨⟨d₀, []⟩, []⟩ : Net × List (Spoken (Packet Octet))))
        (c.1, c.2, trace) ∧
      Recorded c.2 trace ∧ ((∀ x ∈ c.2.log, x.fits = true) → Intact f c.2) := by
  induction hr with
  | refl =>
    refine ⟨[], .refl, ⟨fun h => by simp at h, fun h => by simp at h⟩, fun _ => ⟨?_, ?_, ?_⟩⟩
    · exact fun h => absurd h (by simp [Net.world, hota])
    · exact fun h => by simp [Net.world, eventsOf] at h
    · rintro _ _ _ ⟨_, _, h, _⟩
      simp at h
  | @tail b c hb hstep ih =>
    obtain ⟨trace, htraced, hrec, hintact⟩ := ih
    have A := cmdUpdate_authored hpsk hkey hf h₀ hb
    have hl : Lawful (Permitted psk (Meant cfg f)) trace :=
      (cmdUpdate_meant hkey).reaches_inv (fun _ _ => Env.stable_traced _ _)
        (fun _ _ => Env.stable_traced _ _) (fun _ _ _ h => h.lawful) (fun _ _ _ h => h.lawful)
        (standing_opened k) htraced
    cases hstep with
    | @rely _ s s' hs =>
      refine ⟨trace, htraced.tail (.rely ⟨hs, rfl⟩), hrec.rely hs, fun hfit => ?_⟩
      have hold := hintact fun x hx => hfit x (hs.subset hx)
      cases hs with
      | @handle esp m hm =>
        have hesp : esp.partitionsFit := by simpa [Happening.fits] using hfit _ List.mem_cons_self
        exact hold.handle A hpsk (hrec.onlyMeant hl) hm hesp
      | reset => exact hold.reset
    | @ask q _ s a s' hs =>
      cases q
      obtain ⟨-, -, rfl⟩ := id hs
      exact ⟨trace, htraced.tail (.ask ⟨hs, rfl⟩), hrec, hintact⟩
    | @send m _ s s' hs =>
      obtain rfl := hs
      exact ⟨trace ++ [.sent m], htraced.tail (.send ⟨rfl, rfl⟩), hrec.build m, fun hfit =>
        (hintact fun x hx => hfit x (log_subset_build hx)).build⟩
    | @recv accept _ s r s' hs =>
      obtain ⟨rfl, hr⟩ := id hs
      exact ⟨trace ++ r.toList.map .received, htraced.tail (.recv ⟨hs, rfl⟩),
        hrec.receive fun m hm => (hr m hm).2, hintact⟩

end Run

/-- **An update under attack.** The attacker owns the link and has all that has been on it; the
device has the key of the client and may lose power at any time. At no moment is anything in an
open session but a part of the file, the boot partition is switched to nothing but a partition
in which the platform has accepted exactly the file in one session, and where the client reports
that the update is finalised, it has been. -/
theorem update_under_attack {n : ℕ} {d₀ : Device Octet}
    (h₀ : otaLinkStartWithConfig ⟨some (pskOctets n), true⟩ = some d₀) {cfg : HostConfig Octet}
    (hkey : cfg.authKey = some (pskOctets n)) {f : List Octet} (hf : IsPublic f)
    {new : Net → List Octet → Prop} {k : UInt16}
    {p : Prog Ask (Answer Octet) (Packet Octet) (Except HostError Unit × HostState Octet)}
    {s : Net} (hr : (attackerEnv new).Reaches (cmdUpdate cfg f (.opened k), ⟨d₀, []⟩) (p, s))
    (hfit : ∀ x ∈ s.log, x.fits = true) :
    Ours f s.world ∧
      (∀ partition ok, .setBootPartition partition ok ∈ s.world.trace →
        Boots f partition ok s.world.trace) ∧
      ∀ t, p = .ret (.ok (), t) → Finalised f s.world := by
  obtain ⟨hpsk, A₀⟩ := authored_otaLinkStartWithConfig h₀
  have hota : d₀.ota.active = false := by
    rw [← restarted_otaLinkStartWithConfig h₀]
    simp
  obtain ⟨trace, htraced, hrec, hintact⟩ := exists_record hpsk hkey hf A₀ hota hr
  have hintact := hintact hfit
  refine ⟨hintact.ours, fun _ _ => hintact.switched, ?_⟩
  rintro t rfl
  have hstand := (cmdUpdate_meant hkey).reaches (fun _ _ => Env.stable_traced _ _)
    (fun _ _ => Env.stable_traced _ _) (standing_opened k) htraced
  -- The last ACK is signed, so the OTA_END was executed.
  have hperformed : Performed (pskOctets n) (((.otaBegin, announcement f) ::
      (List.range (chunkCount cfg f.length)).map (dataCall cfg f)) ++ [(.otaEnd, [])]) trace :=
    hstand.performed
  obtain ⟨q, r, m, answer, hreceived, hpay⟩ := hperformed.last
  have A := cmdUpdate_authored hpsk hkey hf A₀ hr
  have hsigned : Signed s.log (q.sessionKey (pskOctets n)) .otaEnd Command.ack.code m answer := by
    refine signed_of_derives hpsk fun a ha => A.derives (hrec.derives hreceived) a ?_
    rw [hpay]
    exact List.mem_append_right _ ha
  obtain ⟨-, payload, hexecuted⟩ := A.acked hsigned
  exact hintact.ended hexecuted

/-- An update that nobody disturbs. -/
def undisturbedUpdate : (Except HostError Unit × HostState Octet) ×
    Option (Packet Octet) × Net × Bool :=
  (cmdUpdate sampleHost sampleImage (.opened 0)).against
    (honest ⟨sampleClientNonce, length_sampleClientNonce⟩ sampleEsp) none (⟨lockedDevice, []⟩, true)

theorem reaches_undisturbed {u : (Except HostError Unit × HostState Octet) ×
      Option (Packet Octet) × Net × Bool} (hu : undisturbedUpdate = u) (hflag : u.2.2.2 = true) :
    (attackerEnv Net.NewClientNonce).Reaches
      (cmdUpdate sampleHost sampleImage (.opened 0), ⟨lockedDevice, []⟩) (.ret u.1, u.2.2.1) := by
  unfold undisturbedUpdate at hu
  subst hu
  exact reaches_against (fun _ h => h) _ none (⟨lockedDevice, []⟩, true) (by rintro _ ⟨⟩) hflag

theorem update_under_attack_undisturbed : ∃ t s,
    (attackerEnv Net.NewClientNonce).Reaches
      (cmdUpdate sampleHost sampleImage (.opened 0), ⟨lockedDevice, []⟩) (.ret (.ok (), t), s) ∧
    Finalised sampleImage s.world := by
  have hflag : undisturbedUpdate.2.2.2 = true := by decide +kernel
  have hok : undisturbedUpdate.1.1 = .ok () := by decide +kernel
  have hfit : ∀ x ∈ undisturbedUpdate.2.2.1.log, x.fits = true := by decide +kernel
  generalize hu : undisturbedUpdate = u at hflag hok hfit
  have hreaches := reaches_undisturbed hu hflag
  obtain ⟨⟨r, t⟩, _, s, _⟩ := u
  obtain rfl : r = .ok () := hok
  exact ⟨t, s, hreaches, (@update_under_attack 1 lockedDevice rfl sampleHost rfl sampleImage
    ⟨_, rfl⟩ _ _ _ _ hreaches hfit).2.2 t rfl⟩

end OtaLink
