import OtaLink.Decoders
import OtaLink.Lib.Wire
import OtaLink.Link
import OtaLink.Mem.Commands

/-!
# Client and firmware on a serial line

Between the client and the firmware there are octets. `SerialTransport.request` writes a frame,
reads as many octets as there are, feeds them to its parser, and returns the first packet under
the sequence number it waits for; packets behind that one in the same piece are dropped. The
firmware reads octet after octet into the buffer of its parser. Noise may change what either
side writes, as long as no error goes undetected.

Every run on such a line is a run of the client on the FIFO link that loses packets, with the
device for the firmware. What is proved of all runs on the link therefore holds of the octets,
the arrays of the firmware and the parser of the host.

## Main definitions

* `Mem.Line`, `Mem.Line.Step` — client and firmware, octet by octet.
* `Mem.Line.Shows` — the wire that a line is.
* `Mem.line_simulates` — a line is a link that loses packets.
-/

namespace OtaLink.Mem
open Lib Relation

/-! ## The line -/

/-- The octets written among `events`. -/
def octetsWritten (events : List Event) : List UInt8 := events.flatMap fun
  | .write octets => octets
  | _ => []

/-- What the buffer of the parser holds. -/
def Parser.held (parser : Parser) : List UInt8 := (parser.buffer.read? 0 parser.length).getD []

/-- The firmware, what it has done, the octets it has not read, those the host has not read, and
`_buffer` of the host's parser. -/
structure Line where
  firmware : Firmware
  done : List Event
  receiving : List UInt8
  sending : List UInt8
  buffer : List UInt8

/-- The packets the firmware will find in what it has not read. -/
def Line.requests (l : Line) : List (OtaLink.Packet UInt8) :=
  (OtaLink.protocolParserRun l.firmware.parser.held l.receiving).2

/-- The packets the host will find in what it has not read. -/
def Line.responses (l : Line) : List (OtaLink.Packet UInt8) :=
  (PacketParser.feed l.buffer l.sending).2

/-- The octets `x` have come to the firmware. -/
def Line.receive (l : Line) (x : List UInt8) : Line := { l with receiving := l.receiving ++ x }

/-- The octets `x` have come to the host. -/
def Line.send (l : Line) (x : List UInt8) : Line := { l with sending := l.sending ++ x }

/-- A decoder finds what it found before, and behind it the packets that were sent, or none. -/
def Arrives {π : Type} (before sent after : List π) : Prop :=
  after = before ∨ after = before ++ sent

/-- A client with a serial port. -/
abbrev HostProg (α : Type) := Prog Ask (Answer UInt8) (OtaLink.Packet UInt8) α

/-- One step on a line. Noise inserts, drops and changes octets, but no decoder finds a packet that
was not sent. The platform answers as `allowed` permits, and the firmware loses power at any time
if `resets` is set. -/
inductive Line.Step {α : Type} (config : OtaLinkConfig UInt8) (resets : Bool)
    (allowed : EspIdf UInt8 → Bool) : HostProg α × Line → HostProg α × Line → Prop
  /-- Noise on the way to the firmware. -/
  | noiseThere {p : HostProg α} {l : Line} {x : List UInt8}
      (hx : (l.receive x).requests = l.requests) :
      Step config resets allowed (p, l) (p, l.receive x)
  /-- Noise on the way to the host. -/
  | noiseBack {p : HostProg α} {l : Line} {x : List UInt8}
      (hx : (l.send x).responses = l.responses) : Step config resets allowed (p, l) (p, l.send x)
  /-- One pass of the loop of `ota_link_task`; what it writes may be damaged. -/
  | octet {p : HostProg α} {l : Line} {b : UInt8} {rest : List UInt8} {esp : EspResults}
      {f : Firmware} {events : List Event} {x : List UInt8} (hl : l.receiving = b :: rest)
      (ha : allowed esp.answers = true)
      (hf : l.firmware.step config (.octet b esp) = some (f, events))
      (hx : Arrives l.responses (PacketParser.feed [] (octetsWritten events)).2
        (l.send x).responses) :
      Step config resets allowed (p, l) (p, { l with
        firmware := f
        done := l.done ++ events
        receiving := rest
        sending := l.sending ++ x })
  /-- The firmware loses power, and perhaps octets it has not read. -/
  | reset {p : HostProg α} {l : Line} {rest : List UInt8} {f : Firmware} {events : List Event}
      (hr : resets = true) (hf : l.firmware.step config .reset = some (f, events))
      (hrest : rest <:+ l.receiving)
      (hx : (OtaLink.protocolParserRun [] rest).2.Sublist l.requests) :
      Step config resets allowed (p, l) (p, { l with
        firmware := f
        done := l.done ++ events
        receiving := rest })
  | ask {q : Ask} {k : Answer UInt8 q → HostProg α} {a : Answer UInt8 q} {l : Line} :
      Step config resets allowed (.ask q k, l) (k a, l)
  /-- `build_packet` and `write`; what is written may be damaged. -/
  | write {m : OtaLink.Packet UInt8} {p : HostProg α} {l : Line} {octets x : List UInt8}
      (hv : m.version = protocolVersion)
      (hm : Framing.buildPacket m.command m.sequence.toNat m.payload = .ok octets)
      (hx : Arrives l.requests (OtaLink.protocolParserRun [] octets).2 (l.receive x).requests) :
      Step config resets allowed (.send m p, l) (p, l.receive x)
  /-- A pass of the loop of `SerialTransport.request` that goes round. -/
  | read {accept : OtaLink.Packet UInt8 → Bool} {k : Option (OtaLink.Packet UInt8) → HostProg α}
      {l : Line} {chunk rest buffer : List UInt8} {packets : List (OtaLink.Packet UInt8)}
      (hl : l.sending = chunk ++ rest) (hf : PacketParser.feed l.buffer chunk = (buffer, packets))
      (hnone : packets.find? accept = none) :
      Step config resets allowed (.recv accept k, l)
        (.recv accept k, { l with sending := rest, buffer })
  /-- A pass that returns a packet. -/
  | answer {accept : OtaLink.Packet UInt8 → Bool} {k : Option (OtaLink.Packet UInt8) → HostProg α}
      {l : Line} {chunk rest buffer : List UInt8} {packets : List (OtaLink.Packet UInt8)}
      {r : OtaLink.Packet UInt8} (hl : l.sending = chunk ++ rest)
      (hf : PacketParser.feed l.buffer chunk = (buffer, packets))
      (hsome : packets.find? accept = some r) :
      Step config resets allowed (.recv accept k, l)
        (k (some r), { l with sending := rest, buffer })
  /-- `TimeoutError`. -/
  | expire {accept : OtaLink.Packet UInt8 → Bool} {k : Option (OtaLink.Packet UInt8) → HostProg α}
      {l : Line} : Step config resets allowed (.recv accept k, l) (k none, l)

/-- A line after a start of the firmware and of the client. -/
def Line.opened (f : Firmware) : Line := ⟨f, [], [], [], []⟩

/-! ## The wire -/

/-- `build_packet` and the parser of the firmware. -/
def requestCoding : Coding UInt8 (OtaLink.Packet UInt8) where
  toScanner := deviceDecoder
  encode m :=
    if m.version = protocolVersion then
      (Framing.buildPacket m.command m.sequence.toNat m.payload).toOption
    else none
  decode_encode {m octets} h := by
    split at h
    swap
    · cases h
    rename_i hv
    by_cases hl : m.payload.length ≤ protocolMaxPayload
    swap
    · rw [Framing.buildPacket, if_pos (Nat.lt_of_not_le hl)] at h
      cases h
    rw [buildPacket_eq _ _ hl] at h
    obtain rfl := Option.some.inj h
    have hscan := @scan_frame headerSize (by decide) le_rfl m.command m.sequence m.payload hl []
    rw [List.append_nil] at hscan
    rw [hscan, scan_nil, framedPacket, ← hv]

/-- `protocol_send_packet` and the parser of the host. -/
def responseCoding : Coding UInt8 (OtaLink.Packet UInt8) where
  toScanner := hostDecoder
  encode r :=
    if r.version = protocolVersion ∧ r.payload.length ≤ protocolMaxPayload then
      some (OtaLink.protocolSendPacket r.command r.sequence r.payload)
    else none
  decode_encode {r octets} h := by
    split at h
    swap
    · cases h
    rename_i hr
    obtain rfl := Option.some.inj h
    have hscan := @scan_frame 2 (by decide) (by decide) r.command r.sequence r.payload hr.2 []
    rw [List.append_nil] at hscan
    rw [protocolSendPacket_eq _ _ hr.2, hscan, scan_nil, framedPacket, ← hr.1]

/-- The wire that a line is: its parser holds the front of a frame, and the world has done what
the firmware has. -/
structure Line.Shows (d₀ : OtaLink.Device UInt8) (l : Line) (w : Wire UInt8 (World UInt8)) :
    Prop where
  firmware : l.firmware.Holds w.there.held w.server.device
  waits : deviceDecoder.judge w.there.held = none
  receiving : w.there.moving = l.receiving
  back : w.back = ⟨l.buffer, l.sending⟩
  done : l.done = w.server.trace.filterMap view
  restarted : w.server.device.restarted = d₀

section Shows
variable {d₀ : OtaLink.Device UInt8} {l : Line} {w : Wire UInt8 (World UInt8)}

theorem Line.Shows.requests (h : l.Shows d₀ w) :
    w.there.decoded requestCoding.toScanner = l.requests := by
  have hheld : l.firmware.parser.held = w.there.held := by
    rw [Parser.held, h.firmware.parser.length, h.firmware.parser.buffer.read_all, Option.getD_some]
  rw [Line.requests, hheld, protocolParserRun_eq h.waits, ← h.receiving]
  rfl

theorem Line.Shows.responses (h : l.Shows d₀ w) :
    w.back.decoded responseCoding.toScanner = l.responses := by
  rw [Line.responses, PacketParser.feed_eq_scan, h.back]
  rfl

theorem Line.Shows.receive (h : l.Shows d₀ w) (x : List UInt8) :
    (l.receive x).Shows d₀ { w with there := w.there.write x } :=
  { h with receiving := congrArg (· ++ x) h.receiving }

theorem Line.Shows.send (h : l.Shows d₀ w) (x : List UInt8) :
    (l.send x).Shows d₀ { w with back := w.back.write x } :=
  { h with back := congrArg (·.write x) h.back }

/-- What a read takes off the line, and what it leaves in the parser of the host. -/
theorem Line.Shows.read (h : l.Shows d₀ w) {chunk rest buffer : List UInt8}
    {packets : List (OtaLink.Packet UInt8)} (hl : l.sending = chunk ++ rest)
    (hf : PacketParser.feed l.buffer chunk = (buffer, packets)) :
    w.back = ⟨l.buffer, chunk ++ rest⟩ ∧ (responseCoding.scan (l.buffer ++ chunk)).2 = packets ∧
      Line.Shows d₀ { l with sending := rest, buffer }
        { w with back := .arrive responseCoding.toScanner l.buffer chunk rest } := by
  rw [PacketParser.feed_eq_scan] at hf
  exact ⟨hl ▸ h.back, congrArg Prod.snd hf,
    { h with back := congrArg (Pipe.mk · rest) (congrArg Prod.fst hf) }⟩

/-- What goes undetected on the line goes undetected on the wire. -/
theorem Line.Shows.takesThere (h : l.Shows d₀ w) {octets x : List UInt8}
    (hx : Arrives l.requests (OtaLink.protocolParserRun [] octets).2 (l.receive x).requests) :
    w.there.Takes requestCoding.toScanner octets x := by
  rwa [protocolParserRun_eq rfl, ← (h.receive x).requests, ← h.requests] at hx

theorem Line.Shows.takesBack (h : l.Shows d₀ w) {octets x : List UInt8}
    (hx : Arrives l.responses (PacketParser.feed [] octets).2 (l.send x).responses) :
    w.back.Takes responseCoding.toScanner octets x := by
  rwa [PacketParser.feed_eq_scan, ← (h.send x).responses, ← h.responses] at hx

end Shows

/-! ## What the firmware writes -/

theorem octetsWritten_filterMap (events : List (OtaLink.Event UInt8)) :
    octetsWritten (events.filterMap view) = (OtaLink.sent events).flatMap fun r =>
      OtaLink.protocolSendPacket r.command r.sequence r.payload := by
  induction events with
  | nil => rfl
  | cons e events ih =>
    cases e with
    | send p => simpa [octetsWritten, sent, OtaLink.Event.sent?] using ih
    | _ => exact ih

/-- A live entry of the ring is one of the array. -/
theorem CacheHolds.stored {cache : Buffer ReplayEntry authReplayCacheSize} {next : ℕ}
    {r : Ring (OtaLink.ReplayEntry UInt8) 8} (h : CacheHolds cache next r)
    {e : OtaLink.ReplayEntry UInt8} (he : e ∈ r.entries) : ∃ m : ReplayEntry, m.Stores e := by
  obtain ⟨-, entries, hlen, -, hin⟩ := h
  obtain ⟨o, ho, hid⟩ := List.mem_filterMap.mp he
  obtain rfl : o = some e := hid
  obtain ⟨i, hi, hslot⟩ := List.mem_iff_getElem.mp ho
  have hlt : i < entries.length := by
    rw [Vector.length_toList] at hi
    omega
  refine ⟨entries[i], hin i entries[i] (some e) (List.getElem?_eq_getElem hlt) ?_⟩
  rw [List.getElem?_eq_getElem hi, hslot]

theorem framed_reply (d : OtaLink.Device UInt8) (packet : OtaLink.Packet UInt8)
    (error : ProtocolError) : (d.reply packet error).Framed := by
  have hlen := @length_statusPayload_le UInt8 _ error
  refine ⟨rfl, ?_⟩
  simp only [OtaLink.Device.reply, OtaLink.AuthState.response, frame]
  split
  · rwa [List.length_append, length_responseTag]
  · omega

/-- **Every response fits a frame.** -/
theorem framed_of_sent {m : Device} {d : OtaLink.Device UInt8} (hm : m.Holds d)
    (esp : EspIdf UInt8) (packet : OtaLink.Packet UInt8) :
    ∀ r ∈ OtaLink.sent (d.step esp packet).2, r.Framed := by
  have hstep := step_cases d esp packet
  generalize d.step esp packet = s at hstep
  cases hstep with
  | status error =>
    simp [OtaLink.Event.sent?, OtaLink.Packet.Framed, frame, statusPayload, protocolMaxPayload]
  | info => simpa [OtaLink.Event.sent?, OtaLink.Packet.Framed, frame] using esp.infoPayload_le
  | challenge =>
    have hrandom := esp.length_fillRandom
    simp [OtaLink.Event.sent?, OtaLink.Packet.Framed, frame, statusPayload, hrandom,
      protocolMaxPayload, deviceProofOf, authTagSize]
  | proof =>
    simp [OtaLink.Event.sent?, OtaLink.Packet.Framed, ackFrame, frame, statusPayload,
      protocolMaxPayload]
  | resend c _ _ _ hg =>
    obtain ⟨entry, hstores⟩ := hm.auth.cache.stored (mem_of_duplicate (lookup_of_resend hg).2.2).1
    simpa [OtaLink.Event.sent?, OtaLink.Packet.Framed, OtaLink.ReplayEntry.frame] using
      hstores.responsePayload.length_le
  | refuse => simpa [OtaLink.Event.sent?] using framed_reply d packet _
  | @run c _ _ _ payload _ o ho =>
    subst ho
    simpa [sent_of_isCall (isCall_of_execute esp d.ota payload c packet.sequence),
      sent_after_execute, OtaLink.Event.sent?] using framed_reply d packet _

/-! ## The simulation -/

section Simulate
variable {α : Type} {config : OtaLinkConfig UInt8} {resets : Bool} {allowed : EspIdf UInt8 → Bool}
  {d₀ : OtaLink.Device UInt8} {p p' : HostProg α} {l l' : Line} {w : Wire UInt8 (World UInt8)}

/-- A step on the wire of a line. -/
abbrev WireStep (resets : Bool) (allowed : EspIdf UInt8 → Bool) :
    HostProg α × Wire UInt8 (World UInt8) → HostProg α × Wire UInt8 (World UInt8) → Prop :=
  Wire.Step (deviceServer resets allowed) requestCoding responseCoding

/-- An octet that completes no packet changes the parser alone. -/
theorem matched_octet (hw : l.Shows d₀ w) {b : UInt8} {rest : List UInt8}
    {esp : EspResults} {f : Firmware} {events : List Event} {x : List UInt8}
    (h₀ : otaLinkStartWithConfig config = some d₀) (hl : l.receiving = b :: rest)
    (ha : allowed esp.answers = true)
    (hf : l.firmware.step config (.octet b esp) = some (f, events))
    (hx : Arrives l.responses (PacketParser.feed [] (octetsWritten events)).2
      (l.send x).responses) :
    ∃ w', ReflTransGen (WireStep resets allowed) (p, w) (p, w') ∧
      Line.Shows d₀ { l with
        firmware := f
        done := l.done ++ events
        receiving := rest
        sending := l.sending ++ x } w' := by
  have htakes := fun octets => @Line.Shows.takesBack d₀ l w hw octets x
  obtain ⟨⟨held, _⟩, _, w⟩ := w
  obtain ⟨hfirm, hwait, rfl, rfl, hdone, hres⟩ := hw
  dsimp only at hfirm hwait hdone hres htakes
  obtain ⟨parser, packet, hfeed, hparser, hrel⟩ := protocolParserFeed_spec hfirm.parser b
  have hscan := scan_feed hwait (x := b) (.inl rfl)
  have hwaits := judge_protocolParserFeed hwait b
  have harrive : Pipe.arrive requestCoding.toScanner held [b] rest =
      ⟨(OtaLink.protocolParserFeed held b).1, rest⟩ :=
    congrArg (Pipe.mk · rest) (congrArg Prod.fst hscan)
  have hdecoded : (requestCoding.scan (held ++ [b])).2 =
      (OtaLink.protocolParserFeed held b).2.toList := congrArg Prod.snd hscan
  rw [hl]
  generalize (OtaLink.protocolParserFeed held b).2 = decoded at hrel hdecoded
  simp only [Firmware.step, hfeed, Option.bind_eq_bind, Option.bind_some, Option.pure_def] at hf
  rcases hrel with @⟨packet, q, hq⟩ | _
  · -- A packet is complete.
    obtain ⟨m, hstep, hm⟩ := Device.step_spec h₀ hfirm.device hres hq esp
    simp only [hstep, Option.bind_some, Option.some.injEq, Prod.mk.injEq] at hf
    obtain ⟨rfl, rfl⟩ := hf
    obtain ⟨r, hsent, -⟩ := sent_handle w.device esp.answers q
    rw [← sent_step] at hsent
    have hr : r.Framed := framed_of_sent hfirm.device esp.answers q r (by rw [hsent]; simp)
    have hwritten : octetsWritten ((w.device.step esp.answers q).2.filterMap view) =
        OtaLink.protocolSendPacket r.command r.sequence r.payload := by
      rw [octetsWritten_filterMap, hsent, List.flatMap_singleton]
    rw [hwritten] at hx
    refine ⟨_, .single (.move (.serve hdecoded (serves_iff.mpr ⟨esp.answers, ha, hsent, rfl⟩)
      (if_pos hr) (htakes _ hx))), ?_⟩
    rw [harrive]
    refine ⟨⟨hparser, hm⟩, hwaits, rfl, rfl, ?_, (restarted_step _ _ _).trans hres⟩
    rw [hdone, World.step, List.filterMap_append]
  · simp only [Option.some.injEq, Prod.mk.injEq] at hf
    obtain ⟨rfl, rfl⟩ := hf
    refine ⟨_, .tail (.single (.move (.octet hdecoded)))
      (.move (.noiseBack (x := x) (htakes _ hx))),
      ?_⟩
    rw [harrive]
    exact ⟨⟨hparser, hfirm.device⟩, hwaits, rfl, rfl, by rw [List.append_nil, hdone], hres⟩

/-- **One step on a line** is steps on its wire. -/
theorem Line.Step.matched (h₀ : otaLinkStartWithConfig config = some d₀)
    (h : Line.Step config resets allowed (p, l) (p', l')) (hw : l.Shows d₀ w) :
    ∃ w', ReflTransGen (WireStep resets allowed) (p, w) (p', w') ∧ l'.Shows d₀ w' := by
  cases h with
  | @noiseThere _ _ x hx =>
    exact ⟨_, .single (.move (.noiseThere (hw.takesThere (.inl hx)))), hw.receive x⟩
  | @noiseBack _ _ x hx =>
    exact ⟨_, .single (.move (.noiseBack (hw.takesBack (.inl hx)))), hw.send x⟩
  | octet hl ha hf hx => exact matched_octet hw h₀ hl ha hf hx
  | @reset _ _ rest f events hr hf hrest hx =>
    obtain ⟨f', hboot, hf'⟩ := Firmware.boot_spec h₀
    simp only [Firmware.step, hboot, Option.bind_eq_bind, Option.bind_some, Option.pure_def,
      Option.some.injEq, Prod.mk.injEq] at hf
    obtain ⟨rfl, rfl⟩ := hf
    rw [protocolParserRun_eq rfl, ← hw.requests] at hx
    rw [← hw.receiving] at hrest
    refine ⟨_, .single (.move (.tick (tick_iff.mpr ⟨hr, rfl⟩) hrest hx)), ?_⟩
    refine ⟨?_, rfl, rfl, hw.back, ?_, hw.restarted⟩
    · rw [World.reset, hw.restarted]
      exact hf'
    · rw [List.append_nil, hw.done, World.reset, List.filterMap_append]
      exact (List.append_nil _).symm
  | ask => exact ⟨w, .single .ask, hw⟩
  | @write m _ _ octets x hv hm hx =>
    have he : requestCoding.encode m = some octets := by
      simp only [requestCoding, if_pos hv, hm]
      rfl
    exact ⟨_, .single (.send he (hw.takesThere hx)), hw.receive x⟩
  | read hl hf hnone =>
    obtain ⟨hback, rfl, hread⟩ := hw.read hl hf
    obtain ⟨there, _, w⟩ := w
    obtain rfl : _ = _ := hback
    exact ⟨_, .single (.skip hnone), hread⟩
  | answer hl hf hsome =>
    obtain ⟨hback, rfl, hread⟩ := hw.read hl hf
    obtain ⟨there, _, w⟩ := w
    obtain rfl : _ = _ := hback
    exact ⟨_, .single (.answer hsome), hread⟩
  | expire => exact ⟨w, .single .expire, hw⟩

/-- What a line stands for on the wire. -/
def Line.On (d₀ : OtaLink.Device UInt8) (c : HostProg α × Line)
    (c' : HostProg α × Wire UInt8 (World UInt8)) : Prop :=
  c'.1 = c.1 ∧ c.2.Shows d₀ c'.2

theorem line_on_wire (h₀ : otaLinkStartWithConfig config = some d₀) :
    Simulates (@Line.On α d₀) (Line.Step config resets allowed) (WireStep resets allowed) := by
  rintro ⟨p, l⟩ ⟨p', l'⟩ ⟨_, w⟩ ⟨rfl, hw⟩ hstep
  obtain ⟨w', hrun, hw'⟩ := hstep.matched h₀ hw
  exact ⟨(p', w'), hrun, rfl, hw'⟩

/-- What a line stands for on the link. -/
def Line.Carries (d₀ : OtaLink.Device UInt8) : HostProg α × Line →
    HostProg α × Link (OtaLink.Packet UInt8) (World UInt8) → Prop :=
  Relation.Comp (Line.On d₀) fun c c' => c'.1 = c.1 ∧ c.2.Shows requestCoding responseCoding c'.2

/-- **A line is a link that loses packets**, with the device for the firmware. -/
theorem line_simulates (h₀ : otaLinkStartWithConfig config = some d₀) :
    Simulates (@Line.Carries α d₀) (Line.Step config resets allowed)
      (Env.Step (linkEnv resets allowed (.free (OtaLink.Packet UInt8) (World UInt8)))) :=
  (line_on_wire h₀).comp Wire.simulates

/-- A line on which nothing has been written yet is an empty link. -/
theorem Line.Carries.opened (h₀ : otaLinkStartWithConfig config = some d₀) {f : Firmware}
    (hboot : Firmware.boot config = some f) (p : HostProg α) :
    Line.Carries d₀ (p, .opened f) (p, .quiet ⟨d₀, []⟩) := by
  obtain ⟨f', hboot', hf⟩ := Firmware.boot_spec h₀
  obtain rfl : f = f' := Option.some.inj (hboot.symm.trans hboot')
  refine ⟨(p, ⟨⟨[], []⟩, ⟨[], []⟩, ⟨d₀, []⟩⟩), ⟨rfl, ?_⟩, rfl, ?_⟩
  · exact ⟨hf, rfl, rfl, rfl, rfl, restarted_otaLinkStartWithConfig h₀⟩
  · exact ⟨(congrArg Prod.snd Scanner.scan_nil).symm,
      (congrArg Prod.snd Scanner.scan_nil).symm, rfl⟩

/-- The firmware has done what the device has. -/
theorem Line.Carries.done {c : HostProg α × Line}
    {c' : HostProg α × Link (OtaLink.Packet UInt8) (World UInt8)} (h : Line.Carries d₀ c c') :
    c'.1 = c.1 ∧ c.2.done = c'.2.server.trace.filterMap view := by
  obtain ⟨⟨p, w⟩, ⟨hp, hw⟩, hp', hL⟩ := h
  exact ⟨hp'.trans hp, by rw [hL.server, hw.done]⟩

end Simulate

end OtaLink.Mem
