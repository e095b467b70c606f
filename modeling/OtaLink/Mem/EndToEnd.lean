import OtaLink.CleanUpdate
import OtaLink.Mem.CleanLine

/-!
# From the file to the flash, over octets

The results about the client and the device on a link hold of what is there: the parser of the
host, the octets on the serial line, and the parser, the arrays and the dispatcher of the
firmware. What the client reports as finalised has been written, octet by octet, by the
firmware, whatever noise has done to the line, as long as no error goes undetected. Without noise
an update is finalised, even if the last one was broken off.

## Main definitions

* `Mem.line_refines` — a run on a line is a run of the link.
* `Mem.Installed` — the platform has accepted a file and boots it.
* `Mem.update_over_octets` — what is reported as finalised is installed.
* `Mem.abort_then_update_over_octets` — in every run without noise, an update after an abort is
  installed.
-/

namespace OtaLink.Mem
open Lib Relation

section Line
variable {α : Type} {config : OtaLinkConfig UInt8} {resets : Bool} {allowed : EspIdf UInt8 → Bool}
  {d₀ : OtaLink.Device UInt8} {p p' : HostProg α} {l : Line} {f : Firmware}

/-- A run of a line since the start of the firmware is matched by a run of the link. -/
theorem exists_link (h₀ : otaLinkStartWithConfig config = some d₀)
    (hboot : Firmware.boot config = some f)
    (h : ReflTransGen (Line.Step config resets allowed) (p, .opened f) (p', l)) : ∃ L,
      (linkEnv resets allowed (.free (OtaLink.Packet UInt8) (World UInt8))).Reaches
        (p, .quiet ⟨d₀, []⟩) (p', L) ∧ Line.Carries d₀ (p', l) (p', L) := by
  obtain ⟨⟨p'', L⟩, hr, hc⟩ := (line_simulates h₀).run (.opened h₀ hboot p) h
  obtain rfl : p'' = p' := hc.done.1
  exact ⟨L, hr, hc⟩

end Line

/-! ## Updates -/

/-- The octets that the platform has accepted among `events`. -/
def written (events : List Event) : List UInt8 := events.flatMap fun
  | .call e => e.accepted
  | _ => []

/-- The platform has opened a partition for `f`, has accepted `f` in it and nothing else, has
checked its hash, and boots it. -/
def Installed (f : List UInt8) (done : List Event) : Prop :=
  ∃ (p : Partition) (handle : Handle) (during : List Event), written during = f ∧
    .call (.otaBegin p f.length (some handle)) :: during ++
      [.call (.otaEnd handle true),
        .call (.partitionGetSha256 (some p) (some (f.drop (f.length - 32)))),
        .call (.setBootPartition (some p) true)] <:+: done

theorem written_filterMap (events : List (OtaLink.Event UInt8)) :
    written (events.filterMap view) = OtaLink.written events := by
  induction events with
  | nil => rfl
  | cons e events ih =>
    cases e with
    | otaWrite handle data ok => simpa [written, view] using ih
    | _ => exact ih

/-- What the device has finalised, the firmware has installed. -/
theorem Installed.of_finalised {f : List UInt8} {w : World UInt8} (h : Finalised f w) :
    Installed f (w.trace.filterMap view) := by
  obtain ⟨S, packet, hp, hd, hin⟩ := h
  have hsize : S.size = f.length := by
    have hle : f.length ≤ S.size := hd ▸ S.written_le
    have hlt : f.length < 2 ^ 32 := Nat.lt_of_le_of_lt hle (readU32Le_lt _)
    rw [Session.size, hp, announcement, readU32Le_le32 hlt]
  have hsha : S.sha256 = f.drop (f.length - 32) := by
    rw [Session.sha256, hp]
    rfl
  refine ⟨S.partition, S.handle, S.during.filterMap view, ?_, ?_⟩
  · rw [written_filterMap]
    exact hd
  · have hview := hin.filterMap view
    rw [← hsha, ← hsize]
    simpa [Session.events, List.filterMap_append, List.filterMap_cons, view] using hview

section Update
variable {config : OtaLinkConfig UInt8} {d₀ : OtaLink.Device UInt8} {cfg : HostConfig UInt8}
  {f : List UInt8}

/-- A device that starts with the key of the client, or without one like the client. -/
def Shared (cfg : HostConfig UInt8) (d₀ : OtaLink.Device UInt8) : Prop :=
  d₀.auth.required = cfg.authKey.isSome ∧ ∀ key, cfg.authKey = some key → key = d₀.auth.key

/-- **End-to-end integrity over octets.** Whatever noise does to the octets of both directions, as
long as no error goes undetected, whenever timers expire and the firmware loses power, if the
client reports that the update is finalised, the firmware has written exactly the file, octet by
octet, in one session, and boots the partition that holds it. -/
theorem update_over_octets (h₀ : otaLinkStartWithConfig config = some d₀) {firmware : Firmware}
    (hboot : Firmware.boot config = some firmware)
    (hshared : d₀.auth.required = cfg.authKey.isSome) (n : UInt16) {t : HostState UInt8} {l : Line}
    (h : ReflTransGen (Line.Step config true fitting)
      (cmdUpdate cfg f (.opened n), .opened firmware)
      (.ret (.ok (), t), l)) : Installed f l.done := by
  obtain ⟨L, hr, hc⟩ := exists_link h₀ hboot h
  rw [hc.done.2]
  exact Installed.of_finalised (finalised_of_reaches hshared hr)

section Clean
variable {nonce : List Event → Answer UInt8 .urandom} {esp : List Event → EspResults}
  {α ε : Type} {x : Task Ask (Answer UInt8) (OtaLink.Packet UInt8) (HostState UInt8) ε α}
  {l : Line} {w w' : World UInt8} {t t' : HostState UInt8} {r : Except ε α}

/-- What a task comes to on a link without losses it comes to in every run on a clean line. -/
theorem line_inevitable_of_gives (h₀ : otaLinkStartWithConfig config = some d₀)
    (hx : x.Waits OtaLink.Packet.Framed) (hl : l.Clean d₀ w)
    (h : x.Gives (prompt nonce esp) t w r t' w')
    {Q : Prog Ask (Answer UInt8) (OtaLink.Packet UInt8) (Except ε α × HostState UInt8) ×
      Line → Prop}
    (hQ : ∀ l' : Line, l'.Clean d₀ w' → Q (.ret (r, t'), l')) :
    Inevitable (Line.Prompt config nonce esp) Q (x t, l) := by
  obtain ⟨inbox, hend⟩ := h none
  refine line_inevitable h₀ (hx t) hl none ?_
  rwa [hend]

/-- And in one of those with noise. -/
theorem line_reaches_of_gives {resets : Bool} {allowed : EspIdf UInt8 → Bool}
    (h₀ : otaLinkStartWithConfig config = some d₀)
    (ha : ∀ done, allowed (esp done).answers = true) (hx : x.Waits OtaLink.Packet.Framed)
    (hl : l.Clean d₀ w) (h : x.Gives (prompt nonce esp) t w r t' w') :
    ∃ l', ReflTransGen (Line.Step config resets allowed) (x t, l) (.ret (r, t'), l') ∧
      l'.Clean d₀ w' := by
  obtain ⟨inbox, hend⟩ := h none
  obtain ⟨l', hr, hl'⟩ :=
    @line_reaches _ config d₀ nonce esp _ _ _ resets allowed h₀ ha (hx t) hl none
  rw [hend] at hr hl'
  exact ⟨l', hr, hl'⟩

end Clean

/-- **Without noise an update after an abort is installed.** Client and firmware are between two
requests. Whatever session is open on the device, in every run without noise both programs come
to their ends, octet by octet, and the file is in the partition that boots. -/
theorem abort_then_update_over_octets (h₀ : otaLinkStartWithConfig config = some d₀)
    (hshared : Shared cfg d₀) (hretries : 0 < cfg.retries) (hmin : 32 ≤ f.length)
    (hmax : f.length < 2 ^ 32) (nonce : List Event → Answer UInt8 .urandom)
    {esp : List Event → EspResults}
    (hesp : ∀ done, (esp done).answers.takes f = true ∧ (esp done).answers.partitionsFit)
    {l : Line} {w : World UInt8} (hl : l.Clean d₀ w) (n n' : UInt16) :
    Inevitable (Line.Prompt config nonce esp)
      (fun c => ∃ r t, c.1 = .ret (r, t) ∧ (r = .ok () ↔ w.device.ota.active = true) ∧
        Inevitable (Line.Prompt config nonce esp)
          (fun c' => ∃ t', c'.1 = .ret (.ok (), t') ∧ Installed f c'.2.done)
          (cmdUpdate cfg f (.opened n'), c.2))
      (runAbort cfg (.opened n), l) := by
  have hd : w.device.restarted.auth = d₀.auth := by rw [hl.restarted]
  have hr : w.device.auth.required = cfg.authKey.isSome := by
    rw [← hshared.1, ← hd]
    rfl
  have hkey : ∀ key, cfg.authKey = some key → key = w.device.auth.key := by
    intro key hk
    rw [hshared.2 key hk, ← hd]
    rfl
  obtain ⟨r, t, w₁, t', w₂, habort, hiff, hupdate, hend⟩ := @abort_then_update UInt8 _ cfg
    (fun w => nonce (w.trace.filterMap view))
    (fun w _ => (esp (w.trace.filterMap view)).answers) w f
    hr hkey hretries hmin hmax (fun _ _ => hesp _) n n'
  refine line_inevitable_of_gives h₀ (waits_runCommand .otaAbort [] .otaAbort) hl habort
    fun l₁ hl₁ => ⟨r, t, rfl, hiff, ?_⟩
  refine line_inevitable_of_gives h₀ (waits_cmdUpdate f) hl₁ hupdate fun l₂ hl₂ => ⟨t', rfl, ?_⟩
  rw [hl₂.done]
  exact .of_finalised hend

end Update
/-! ### An update of 32 octets -/

/-- A client with a key of one octet, the firmware with the same, and an image. -/
def sampleConfig : OtaLinkConfig UInt8 := ⟨some [1], true⟩
def oneOctetHost : HostConfig UInt8 := ⟨1, some [1]⟩
def oneImage : List UInt8 := List.replicate 32 9

/-- The device that the firmware starts as. -/
def oneOctetDevice : OtaLink.Device UInt8 := ⟨OtaLink.authConfigure (some [1]) true, .cleared⟩

theorem started_oneOctet : otaLinkStartWithConfig sampleConfig = some oneOctetDevice := rfl

theorem shared_oneOctet : Shared oneOctetHost oneOctetDevice := ⟨rfl, by rintro _ ⟨⟩; rfl⟩

theorem takes_sampleResults :
    sampleResults.answers.takes oneImage = true ∧ sampleResults.answers.partitionsFit := by
  refine ⟨rfl, ?_⟩
  rintro p ⟨⟩
  decide

/-- A nonce of the client. -/
def zeroNonce : List Event → Answer UInt8 .urandom := fun _ =>
  ⟨List.replicate authNonceSize 0, List.length_replicate⟩

/-- One of the runs. -/
theorem exists_update : ∃ f t l, Firmware.boot sampleConfig = some f ∧
    ReflTransGen (Line.Step sampleConfig true fitting)
      (cmdUpdate oneOctetHost oneImage (.opened 0), .opened f) (.ret (.ok (), t), l) := by
  obtain ⟨f, hboot, -⟩ := Firmware.boot_spec started_oneOctet
  obtain ⟨t, w, hgives, -⟩ := @Willing.updates UInt8 _ oneOctetHost (fun _ => zeroNonce [])
    (fun _ _ => sampleResults.answers) oneImage (.opened 0) ⟨oneOctetDevice, []⟩
    (.opened shared_oneOctet.1 shared_oneOctet.2 0) rfl (fun _ _ => takes_sampleResults.1)
    (by decide) (by decide) (by decide)
  obtain ⟨l, hr, -⟩ := @line_reaches_of_gives sampleConfig oneOctetDevice zeroNonce
    (fun _ => sampleResults) Unit HostError _ _ _ _ _ _ _ true fitting started_oneOctet
    (fun _ => decide_eq_true takes_sampleResults.2) (waits_cmdUpdate oneImage)
    (.opened started_oneOctet hboot) hgives
  exact ⟨f, t, l, hboot, hr⟩

theorem update_over_octets_oneImage : ∃ l : Line, Installed oneImage l.done := by
  obtain ⟨f, t, l, hboot, hr⟩ := exists_update
  exact ⟨l, update_over_octets started_oneOctet hboot rfl 0 hr⟩

theorem abort_then_update_over_octets_oneImage : ∃ f, Firmware.boot sampleConfig = some f ∧
    Inevitable (Line.Prompt sampleConfig zeroNonce fun _ => sampleResults)
      (fun c => ∃ r t, c.1 = .ret (r, t) ∧ (r = .ok () ↔ oneOctetDevice.ota.active = true) ∧
        Inevitable (Line.Prompt sampleConfig zeroNonce fun _ => sampleResults)
          (fun c' => ∃ t', c'.1 = .ret (.ok (), t') ∧ Installed oneImage c'.2.done)
          (cmdUpdate oneOctetHost oneImage (.opened 0), c.2))
      (runAbort oneOctetHost (.opened 0), .opened f) := by
  obtain ⟨f, hboot, -⟩ := Firmware.boot_spec started_oneOctet
  exact ⟨f, hboot, abort_then_update_over_octets started_oneOctet shared_oneOctet (by decide)
    (by decide) (by decide) zeroNonce (fun _ => takes_sampleResults)
    (.opened started_oneOctet hboot) 0 0⟩

end OtaLink.Mem
