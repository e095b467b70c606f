import OtaLink.Mem.EndToEnd
import OtaLink.Shell

/-!
# GET_INFO from end to end

What `run_info` prints is a description that the firmware has encoded, field by field, whatever
noise does to the line, as long as no error goes undetected; a description that cannot be encoded
is reported as rejected. On a clean line every run of `run_info` prints it.

## Main definitions

* `Described` — a response to GET_INFO.
* `Mem.info_over_octets` — what `run_info` can come to on a line.
* `Mem.info_on_clean_line` — what it comes to on a clean one.
-/

namespace OtaLink
open Lib

section Link
variable {β : Type} [Alphabet β] {resets : Bool} {allowed : EspIdf β → Bool}
  {P : Policy (Packet β) (World β)} {cfg : HostConfig β} {n : UInt16}

/-- The response of the device to GET_INFO. -/
def infoResponse (n : UInt16) (payload : List β) : Packet β :=
  if payload = [] then nackFrame n .invalidLength else frame .info n payload

theorem step_getInfo (d : Device β) (esp : EspIdf β) (n : UInt16) :
    d.step esp (frame .getInfo n []) =
      (d, [.receive (frame .getInfo n []), .send (infoResponse n esp.infoPayload)]) := by
  by_cases hnil : esp.infoPayload = [] <;>
    simp [Device.step, Device.handle, commandsHandlePacket, frame, infoResponse, Event.reboots,
      hnil]

/-- A response to GET_INFO from a platform that is allowed. -/
def Described (allowed : EspIdf β → Bool) (n : UInt16) (r : Packet β) : Prop :=
  ∃ esp, allowed esp = true ∧ r = infoResponse n esp.infoPayload

theorem described_of_serves {w w' : World β} {r : Packet β}
    (h : (deviceServer resets allowed).Serves w (frame .getInfo n []) r w') :
    Described allowed n r := by
  obtain ⟨esp, ha, hsent, -⟩ := serves_iff.mp h
  rw [step_getInfo] at hsent
  exact ⟨esp, ha, (List.singleton_inj.mp hsent).symm⟩

/-- All responses to a GET_INFO describe the device. -/
theorem exchange_getInfo (old : Packet β) :
    Exchange Packet.sequence (deviceServer resets allowed) P old
      (frame .getInfo (old.sequence + 1) []) (fun _ => True)
      (fun mine _ => ∀ q ∈ mine, Described allowed (old.sequence + 1) q.response) where
  tag_ne := sequence_ne old.sequence
  old _ _ _ := trivial
  tick _ _ := trivial
  first _ _ hs := by simpa using described_of_serves hs
  again h _ hs := List.forall_mem_append.mpr ⟨h, by simpa using described_of_serves hs⟩
  tick' h _ := h
  lose h _ q hq := h q (by simp only [List.mem_append, List.mem_cons] at hq ⊢; tauto)

theorem readInfo_info (n : UInt16) (payload : List β) :
    readInfo (frame .info n payload) =
      match parseInfoPayload (payload.map toByte) with
      | .ok info => pure info
      | .error e =>
        if e.isProtocolError then Task.raise (.infoUnparsed e) else Task.raise (.infoRaised e) := by
  have hne : (frame .info n payload).command ≠ Command.nack.code :=
    show Command.info.code ≠ Command.nack.code by decide
  rw [readInfo, if_neg hne, if_neg fun h => h rfl]
  rfl

/-- **GET_INFO on a link** with whatever losses: the client reads an encoding that a platform has
made, or learns that there was none, or gives up. -/
theorem runInfo_link {t t' : HostState β} {d : Device β}
    {r : Except ShellError Info} {L : Link (Packet β) (World β)}
    (h : (linkEnv resets allowed P).Reaches (runInfo cfg t, .quiet ⟨d, []⟩) (.ret (r, t'), L)) :
    r = .error .infoNoResponse ∨ ∃ esp, allowed esp = true ∧
      (esp.infoPayload = [] → r = .error .infoRejected) ∧ (esp.infoPayload ≠ [] →
        ∀ info, parseInfoPayload (esp.infoPayload.map toByte) = .ok info → r = .ok info) := by
  have hrequest : Task.Spec (linkEnv resets allowed P) (fun _ => True)
      (fun t' L => t' = t.at t.sequence ∧ Idle Packet.sequence (frame .ping t.sequence []) L ∧ True)
      (request cfg .getInfo []) (fun r _ _ => Described allowed (t.sequence + 1) r)
      (fun e _ _ => e = .timeout) := by
    refine (request_open_spec (I := fun _ => True)
      (by simp [HostConfig.guards, Command.isProtected])
      t (Nat.zero_le _) (exchange_getInfo (frame .ping t.sequence [])) (fun _ _ => trivial)
      (fun _ _ _ => trivial) fun _ _ _ _ => rfl).consequence (fun _ _ h => h) ?_ fun _ _ _ h => h
    rintro r t' L ⟨-, -, q, rfl, htaken⟩
    exact htaken.after q List.mem_cons_self
  have hinfo : Task.Spec (linkEnv resets allowed P) (fun _ => True)
      (fun t' L => t' = t.at t.sequence ∧ Idle Packet.sequence (frame .ping t.sequence []) L ∧ True)
      (runInfo cfg)
      (fun i _ _ => ∃ esp, allowed esp = true ∧ esp.infoPayload ≠ [] ∧
        ∀ info, parseInfoPayload (esp.infoPayload.map toByte) = .ok info → info = i)
      (fun e _ _ => e = .infoNoResponse ∨ ∃ esp, allowed esp = true ∧
        (esp.infoPayload = [] ∧ e = .infoRejected ∨ esp.infoPayload ≠ [] ∧
          ∀ info, parseInfoPayload (esp.infoPayload.map toByte) ≠ .ok info)) := by
    refine Task.Spec.bind (R := fun r _ _ => Described allowed (t.sequence + 1) r)
      (Task.Spec.recover hrequest fun e => ?_) fun packet => ?_
    · cases e with
      | timeout => exact Task.Spec.raise fun _ _ _ => .inl rfl
      | _ => exact Task.Spec.raise fun _ _ h => by cases h
    rintro t' L ⟨esp, ha, rfl⟩
    by_cases hnil : esp.infoPayload = []
    · rw [infoResponse, if_pos hnil]
      exact .inr ⟨esp, ha, .inl ⟨hnil, rfl⟩⟩
    · rw [infoResponse, if_neg hnil, readInfo_info]
      cases hparse : parseInfoPayload (esp.infoPayload.map toByte) with
      | ok info => exact ⟨esp, ha, hnil, fun info' h => by rw [hparse] at h; cases h; rfl⟩
      | error e =>
        have hnone : ∀ info, parseInfoPayload (esp.infoPayload.map toByte) ≠ .ok info :=
          fun info => by simp [hparse]
        dsimp only
        split <;> exact .inr ⟨esp, ha, .inr ⟨hnil, hnone⟩⟩
  have hend := hinfo.reaches (fun _ _ _ _ _ h => h) (fun _ _ _ _ _ h => h)
    ⟨rfl, Idle.quiet _ _, trivial⟩ h
  cases r with
  | ok i =>
    obtain ⟨esp, ha, hne, hi⟩ := hend
    exact .inr ⟨esp, ha, fun hnil => absurd hnil hne, fun _ info h => by rw [hi info h]⟩
  | error e =>
    rcases hend with rfl | ⟨esp, ha, ⟨hnil, rfl⟩ | ⟨hne, hnone⟩⟩
    · exact .inl rfl
    · exact .inr ⟨esp, ha, fun _ => rfl, fun hne => absurd hnil hne⟩
    · exact .inr ⟨esp, ha, fun hnil => absurd hnil hne, fun _ info h => absurd h (hnone info)⟩

end Link

namespace Mem
open Relation

/-- The firmware answers GET_INFO with the encoding, or with nothing. -/
theorem infoPayload_eq (d : DeviceDescription) :
    d.Encodes protocolMaxPayload ∧ infoPayload d = d.encode ∨
      ¬d.Encodes protocolMaxPayload ∧ infoPayload d = [] := by
  rcases deviceInfoBuildPayload_spec d (.blank UInt8 protocolMaxPayload) with
    ⟨hgood, payload, hbuild, hbegins⟩ | ⟨hbad, hbuild⟩
  · refine .inl ⟨hgood, ?_⟩
    rw [infoPayload, buildInfo, hbuild]
    simp only [hbegins.read_all, Option.getD_some]
  · exact .inr ⟨hbad, by rw [infoPayload, buildInfo, hbuild]⟩

theorem encode_ne_nil (d : DeviceDescription) : d.encode ≠ [] := by
  rw [DeviceDescription.encode]
  exact List.append_ne_nil_of_left_ne_nil (List.cons_ne_nil _ _) _

section Line
variable {config : OtaLinkConfig UInt8} {resets : Bool} {allowed : EspIdf UInt8 → Bool}
  {d₀ : OtaLink.Device UInt8} {cfg : HostConfig UInt8}

/-- **GET_INFO over octets.** Whatever noise does to the line, as long as no error goes undetected,
and whenever timers expire and the firmware loses power: where the platform describes the device
by one of `D`, `run_info` prints one of `D` unchanged, or reports a description that cannot be
encoded, or that there was no answer. -/
theorem info_over_octets (h₀ : otaLinkStartWithConfig config = some d₀) {firmware : Firmware}
    (hboot : Firmware.boot config = some firmware) {D : DeviceDescription → Prop}
    (hallowed : ∀ esp, allowed esp = true → ∃ d, D d ∧ esp.infoPayload = infoPayload d)
    {t t' : HostState UInt8} {r : Except ShellError Info} {l : Line}
    (h : ReflTransGen (Line.Step config resets allowed) (runInfo cfg t, .opened firmware)
      (.ret (r, t'), l)) :
    (∃ d, D d ∧ d.Encodes protocolMaxPayload ∧ r = .ok d.info) ∨
      (∃ d, D d ∧ ¬d.Encodes protocolMaxPayload ∧ r = .error .infoRejected) ∨
      r = .error .infoNoResponse := by
  obtain ⟨L, hr, -⟩ := exists_link h₀ hboot h
  rcases runInfo_link hr with hnone | ⟨esp, ha, hnil, hread⟩
  · exact .inr (.inr hnone)
  obtain ⟨d, hd, hpayload⟩ := hallowed esp ha
  rw [hpayload] at hnil hread
  rcases infoPayload_eq d with ⟨hencodes, heq⟩ | ⟨hnot, heq⟩
  · refine .inl ⟨d, hd, hencodes, hread (heq ▸ encode_ne_nil d) _ ?_⟩
    have hid : (infoPayload d).map toByte = infoPayload d := List.map_id _
    rw [hid, heq]
    exact parseInfoPayload_encode d hencodes.2.1 hencodes.2.2
  · exact .inr (.inl ⟨d, hd, hnot, hnil heq⟩)

/-- `run_info` stops and waits. -/
theorem waits_runInfo : (runInfo cfg).Waits OtaLink.Packet.Framed := by
  refine Task.Waits.bind (Task.Waits.recover (waits_request _ _) fun e => ?_) fun packet => ?_
  · cases e <;> exact Task.Waits.raise _
  · refine Task.Waits.ite (fun _ => Task.Waits.raise _) fun _ =>
      Task.Waits.ite (fun _ => Task.Waits.raise _) fun _ => ?_
    split
    · exact Task.Waits.pure _
    · exact Task.Waits.ite (fun _ => Task.Waits.raise _) fun _ => Task.Waits.raise _

section Clean
variable {nonce : List Event → Answer UInt8 .urandom} {esp : List Event → EspResults}
  {w : World UInt8} {t : HostState UInt8} {d : DeviceDescription}

/-- Where the device answers at once, its description is read. -/
theorem runInfo_gives (hretries : 0 < cfg.retries)
    (hd : (esp (w.trace.filterMap view)).description = d)
    (hencodes : d.Encodes protocolMaxPayload) :
    (runInfo cfg).Gives (prompt nonce esp) t w (.ok d.info) (t.at (t.sequence + 1))
      (w.step (esp (w.trace.filterMap view)).answers (frame .getInfo (t.sequence + 1) [])) := by
  have hpayload : (esp (w.trace.filterMap view)).answers.infoPayload = d.encode := by
    rcases infoPayload_eq d with ⟨-, heq⟩ | ⟨hnot, -⟩
    · rw [← heq, ← hd]
      rfl
    · exact absurd hencodes hnot
  have hsent : OtaLink.sent (w.device.step (esp (w.trace.filterMap view)).answers
      (frame .getInfo (t.sequence + 1) [])).2 = [frame .info (t.sequence + 1) d.encode] := by
    rw [step_getInfo, hpayload, infoResponse, if_neg (encode_ne_nil d)]
    rfl
  have hserve :
    (prompt nonce esp).serve w (frame .getInfo (t.sequence + 1) []) = some (_, w.step _ _) :=
    serve_reliable hsent
  have hopen : cfg.guards .getInfo = false := by simp [HostConfig.guards, Command.isProtected]
  have hread : (readInfo (frame .info (t.sequence + 1) d.encode) : ShellTask UInt8 Info) =
      pure d.info := by
    have hid : d.encode.map toByte = d.encode := List.map_id _
    rw [readInfo_info, hid, parseInfoPayload_encode d hencodes.2.1 hencodes.2.2]
  refine Task.Gives.bind (Task.Gives.recover
    (request_gives_open hopen hretries (by decide) (Nat.zero_le _) hserve rfl)) ?_
  rw [hread]
  exact Task.Gives.pure _

/-- **GET_INFO on a clean line**: in every run without noise that begins between two requests,
`run_info` prints what the platform says, with or without a key and in whatever state the device
is. -/
theorem info_on_clean_line (h₀ : otaLinkStartWithConfig config = some d₀)
    (hretries : 0 < cfg.retries) {l : Line} (hl : l.Clean d₀ w)
    (hencodes : (esp l.done).description.Encodes protocolMaxPayload) :
    Inevitable (Line.Prompt config nonce esp)
      (fun c => ∃ t', c.1 = .ret (.ok (esp l.done).description.info, t')) (runInfo cfg t, l) := by
  refine line_inevitable_of_gives h₀ waits_runInfo hl (runInfo_gives hretries ?_ hencodes)
    fun _ _ => ⟨_, rfl⟩
  rw [hl.done]

end Clean
end Line

/-! ### The description of a sample -/

theorem encodes_sampleResults : sampleResults.description.Encodes protocolMaxPayload := by
  have hshort : ∀ s ∈ sampleResults.description.reported, (utf8 s.text).length ≤ 255 := by
    decide +kernel
  exact ⟨by decide +kernel, hshort, by decide +kernel⟩

/-- The platform that describes the device in this way. -/
def sampleDescribes (esp : EspIdf UInt8) : Bool :=
  decide (esp.infoPayload = infoPayload sampleResults.description)

theorem info_over_octets_sample : ∃ (f : Firmware) (r : Except ShellError Info)
    (t : HostState UInt8) (l : Line), Firmware.boot sampleConfig = some f ∧
    ReflTransGen (Line.Step sampleConfig true sampleDescribes) (runInfo oneOctetHost (.opened 0),
      .opened f) (.ret (r, t), l) ∧ r = .ok sampleResults.description.info := by
  obtain ⟨f, hboot, -⟩ := Firmware.boot_spec started_oneOctet
  obtain ⟨l, hr, -⟩ := @line_reaches_of_gives sampleConfig oneOctetDevice zeroNonce
    (fun _ => sampleResults) Info ShellError _ _ _ _ _ _ _ true sampleDescribes started_oneOctet
    (fun _ => decide_eq_true rfl) waits_runInfo (.opened started_oneOctet hboot)
    (@runInfo_gives oneOctetHost _ _ _ (.opened 0) _ (by decide) rfl encodes_sampleResults)
  refine ⟨f, _, _, l, hboot, hr, ?_⟩
  rcases @info_over_octets sampleConfig true _ _ _ started_oneOctet f hboot
    (· = sampleResults.description) (fun _ ha => ⟨_, rfl, of_decide_eq_true ha⟩) _ _ _ _ hr with
    ⟨_, rfl, -, h⟩ | ⟨_, rfl, hnot, -⟩ | h
  · exact h
  · exact absurd encodes_sampleResults hnot
  · cases h

theorem info_on_clean_line_sample : ∃ f, Firmware.boot sampleConfig = some f ∧
    Inevitable (Line.Prompt sampleConfig zeroNonce fun _ => sampleResults)
      (fun c => ∃ t, c.1 = .ret (.ok sampleResults.description.info, t))
      (runInfo oneOctetHost (.opened 0), .opened f) := by
  obtain ⟨f, hboot, -⟩ := Firmware.boot_spec started_oneOctet
  exact ⟨f, hboot, info_on_clean_line started_oneOctet (by decide) (.opened started_oneOctet hboot)
    encodes_sampleResults⟩

end Mem

end OtaLink
