import OtaLink.Lib.Inevitable
import OtaLink.Mem.Line
import OtaLink.Recovery

/-!
# A line without noise

Without noise, with timers that are long enough and without a loss of power, what client and
firmware do octet by octet comes to what they do where each packet is answered at once: every run
on such a line ends, and it ends as the client does on a link without losses. Such a run is also
one of the runs on the line with noise, so that line is not idle for want of a step.

## Main definitions

* `Mem.Line.Prompt` — the steps on a line without noise.
* `Mem.Line.Clean` — a line between two requests.
* `Mem.line_inevitable` — every run without noise ends as one without losses.
* `Mem.line_reaches` — and one of them is a run on the line with noise.
-/

namespace OtaLink.Mem
open Lib Relation

/-! ## The steps -/

/-- One step on a line without noise. A timer expires only when nothing is on its way any more.
The answers of the random source and of the platform depend on what the firmware has done so far.
A pass of a loop that finds nothing to read changes nothing, and is no step. -/
inductive Line.Prompt {α : Type} (config : OtaLinkConfig UInt8)
    (nonce : List Event → Answer UInt8 .urandom) (esp : List Event → EspResults) :
    HostProg α × Line → HostProg α × Line → Prop
  /-- One pass of the loop of `ota_link_task`. -/
  | octet {p : HostProg α} {l : Line} {b : UInt8} {rest : List UInt8} {f : Firmware}
      {events : List Event} (hl : l.receiving = b :: rest)
      (hf : l.firmware.step config (.octet b (esp l.done)) = some (f, events)) :
      Prompt config nonce esp (p, l) (p, { l with
        firmware := f
        done := l.done ++ events
        receiving := rest
        sending := l.sending ++ octetsWritten events })
  | ask {k : Answer UInt8 .urandom → HostProg α} {l : Line} :
      Prompt config nonce esp (.ask .urandom k, l) (k (nonce l.done), l)
  /-- `build_packet` and `write`. -/
  | write {m : OtaLink.Packet UInt8} {p : HostProg α} {l : Line} {octets : List UInt8}
      (hv : m.version = protocolVersion)
      (hm : Framing.buildPacket m.command m.sequence.toNat m.payload = .ok octets) :
      Prompt config nonce esp (.send m p, l) (p, l.receive octets)
  /-- A pass of the loop of `SerialTransport.request` that goes round. -/
  | read {accept : OtaLink.Packet UInt8 → Bool} {k : Option (OtaLink.Packet UInt8) → HostProg α}
      {l : Line} {chunk rest buffer : List UInt8} {packets : List (OtaLink.Packet UInt8)}
      (hl : l.sending = chunk ++ rest) (hne : chunk ≠ [])
      (hf : PacketParser.feed l.buffer chunk = (buffer, packets))
      (hnone : packets.find? accept = none) :
      Prompt config nonce esp (.recv accept k, l)
        (.recv accept k, { l with sending := rest, buffer })
  /-- A pass that returns a packet. -/
  | answer {accept : OtaLink.Packet UInt8 → Bool} {k : Option (OtaLink.Packet UInt8) → HostProg α}
      {l : Line} {chunk rest buffer : List UInt8} {packets : List (OtaLink.Packet UInt8)}
      {r : OtaLink.Packet UInt8} (hl : l.sending = chunk ++ rest)
      (hf : PacketParser.feed l.buffer chunk = (buffer, packets))
      (hsome : packets.find? accept = some r) :
      Prompt config nonce esp (.recv accept k, l)
        (k (some r), { l with sending := rest, buffer })
  /-- `TimeoutError`. -/
  | expire {accept : OtaLink.Packet UInt8 → Bool} {k : Option (OtaLink.Packet UInt8) → HostProg α}
      {l : Line} (hl : l.receiving = [] ∧ l.sending = []) :
      Prompt config nonce esp (.recv accept k, l) (k none, l)

/-- Nothing is on the line, both parsers are between frames, and the firmware has done what the
world has. -/
structure Line.Clean (d₀ : OtaLink.Device UInt8) (l : Line) (w : World UInt8) : Prop where
  firmware : l.firmware.Holds [] w.device
  restarted : w.device.restarted = d₀
  done : l.done = w.trace.filterMap view
  receiving : l.receiving = []
  sending : l.sending = []
  buffer : l.buffer = []

theorem Line.Clean.opened {config : OtaLinkConfig UInt8} {d₀ : OtaLink.Device UInt8}
    (h₀ : otaLinkStartWithConfig config = some d₀) {f : Firmware}
    (hboot : Firmware.boot config = some f) : (Line.opened f).Clean d₀ ⟨d₀, []⟩ := by
  obtain ⟨f', hboot', hf⟩ := Firmware.boot_spec h₀
  obtain rfl : f = f' := Option.some.inj (hboot.symm.trans hboot')
  exact ⟨hf, restarted_otaLinkStartWithConfig h₀, rfl, rfl, rfl, rfl⟩

/-- What answers each packet at once, where the answers depend on what the firmware has done. -/
def prompt (nonce : List Event → Answer UInt8 .urandom) (esp : List Event → EspResults) :
    HostPartner UInt8 (World UInt8) :=
  reliable (fun w => nonce (w.trace.filterMap view))
    fun w _ => (esp (w.trace.filterMap view)).answers

/-! ## Parts of a frame -/

section Frame
variable {m : OtaLink.Packet UInt8} {xs ys : List UInt8}

theorem judge_packetFrame (hm : m.Framed) :
    deviceDecoder.judge (packetFrame m.command m.sequence m.payload) =
        some ((packetFrame m.command m.sequence m.payload).length, some m) ∧
      hostDecoder.judge (packetFrame m.command m.sequence m.payload) =
        some ((packetFrame m.command m.sequence m.payload).length, some m) := by
  have hpacket : framedPacket m.command m.sequence m.payload = m := by rw [framedPacket, ← hm.1]
  have hframe := fun skip => @judgeFrame_frame skip m.command m.sequence m.payload hm.2
  rw [hpacket] at hframe
  exact ⟨(judge_magic _).trans (hframe _), (judge_magic _).trans (hframe _)⟩

/-- The firmware keeps the part of a frame that it has read. -/
theorem feed_part (hm : m.Framed) {b : UInt8}
    (h : xs ++ b :: ys = packetFrame m.command m.sequence m.payload) :
    OtaLink.protocolParserFeed xs b = if ys = [] then ([], some m) else (xs ++ [b], none) := by
  have hjudge := (judge_packetFrame hm).1
  rw [← h] at hjudge
  have hwait : deviceDecoder.judge xs = none := by
    have hscan := Scanner.scan_of_prefix hjudge (by simp)
    have := Scanner.judge_scan (S := deviceDecoder) xs
    rwa [hscan] at this
  have hfeed := scan_feed hwait (x := b) (.inl rfl)
  by_cases hy : ys = []
  · subst hy
    rw [Scanner.scan_of_drop hjudge, List.drop_length, Scanner.scan_nil] at hfeed
    rw [if_pos rfl]
    refine Prod.ext (congrArg Prod.fst hfeed).symm ?_
    have hsome : (OtaLink.protocolParserFeed xs b).2.toList = [m] := (congrArg Prod.snd hfeed).symm
    cases hp : (OtaLink.protocolParserFeed xs b).2 with
    | none => simp [hp] at hsome
    | some q => simpa [hp] using hsome
  · rw [List.append_cons] at hjudge
    rw [Scanner.scan_of_prefix hjudge hy] at hfeed
    rw [if_neg hy]
    refine Prod.ext (congrArg Prod.fst hfeed).symm ?_
    have hnone : (OtaLink.protocolParserFeed xs b).2.toList = [] := (congrArg Prod.snd hfeed).symm
    simpa using hnone

/-- So does the host. -/
theorem feed_piece (hm : m.Framed) {chunk : List UInt8}
    (h : xs ++ (chunk ++ ys) = packetFrame m.command m.sequence m.payload) :
    PacketParser.feed xs chunk = if ys = [] then ([], [m]) else (xs ++ chunk, []) := by
  have hjudge := (judge_packetFrame hm).2
  rw [← h, ← List.append_assoc] at hjudge
  rw [PacketParser.feed_eq_scan]
  by_cases hy : ys = []
  · subst hy
    rw [List.append_nil] at hjudge
    rw [Scanner.scan_of_drop hjudge, List.drop_length, Scanner.scan_nil, if_pos rfl]
    rfl
  · rw [Scanner.scan_of_prefix hjudge hy, if_neg hy]

theorem packetFrame_ne_nil (c : UInt8) (n : UInt16) (payload : List UInt8) :
    packetFrame c n payload ≠ [] := by
  simp [packetFrame, framed]

end Frame

/-! ## One octet -/

section Octet
variable {config : OtaLinkConfig UInt8} {d₀ d : OtaLink.Device UInt8} {f : Firmware}
  {m : OtaLink.Packet UInt8} {xs ys : List UInt8} {b : UInt8}

/-- An octet before the last one of a frame changes the parser alone. -/
theorem octet_part (hf : f.Holds xs d) (hm : m.Framed) (hne : ys ≠ [])
    (h : xs ++ b :: ys = packetFrame m.command m.sequence m.payload) (esp : EspResults) :
    ∃ f' : Firmware, f.step config (.octet b esp) = some (f', []) ∧ f'.Holds (xs ++ [b]) d := by
  obtain ⟨parser, packet, hfeed, hparser, hrel⟩ := protocolParserFeed_spec hf.parser b
  rw [feed_part hm h, if_neg hne] at hparser hrel
  obtain _ | _ := hrel
  exact ⟨⟨parser, f.device⟩, by simp [Firmware.step, hfeed], hparser, hf.device⟩

/-- With the last one the firmware writes its response. -/
theorem octet_last (h₀ : otaLinkStartWithConfig config = some d₀) (hd : d.restarted = d₀)
    (hf : f.Holds xs d) (hm : m.Framed)
    (h : xs ++ [b] = packetFrame m.command m.sequence m.payload) (esp : EspResults) :
    ∃ (f' : Firmware) (r : OtaLink.Packet UInt8), r.Framed ∧
      f.step config (.octet b esp) = some (f', (d.step esp.answers m).2.filterMap view) ∧
      f'.Holds [] (d.step esp.answers m).1 ∧
      OtaLink.sent (d.step esp.answers m).2 = [r] ∧
      octetsWritten ((d.step esp.answers m).2.filterMap view) =
        packetFrame r.command r.sequence r.payload := by
  obtain ⟨parser, packet, hfeed, hparser, hrel⟩ := protocolParserFeed_spec hf.parser b
  rw [feed_part hm h, if_pos rfl] at hparser hrel
  obtain @⟨packet, _, hpacket⟩ := hrel
  obtain ⟨device, hstep, hdevice⟩ := Device.step_spec h₀ hf.device hd hpacket esp
  obtain ⟨r, hsent, -⟩ := sent_handle d esp.answers m
  rw [← sent_step] at hsent
  have hr : r.Framed := framed_of_sent hf.device esp.answers m r (by rw [hsent]; simp)
  refine ⟨⟨parser, device⟩, r, hr, by simp [Firmware.step, hfeed, hstep], ⟨hparser, hdevice⟩, hsent,
    ?_⟩
  rw [octetsWritten_filterMap, hsent, List.flatMap_singleton, protocolSendPacket_eq _ _ hr.2]

end Octet

/-! ## Every run

The relation `R` is that of the line without noise, or of those of its steps that are steps of the
line with noise. -/

section Run
variable {α : Type} {config : OtaLinkConfig UInt8} {resets : Bool} {allowed : EspIdf UInt8 → Bool}
  {d₀ : OtaLink.Device UInt8} {nonce : List Event → Answer UInt8 .urandom}
  {esp : List Event → EspResults} {R : HostProg α × Line → HostProg α × Line → Prop}
  {Q : HostProg α × Line → Prop} (hup : ∀ c c', R c c' → Line.Prompt config nonce esp c c')
  (hlow : ∀ c c', Line.Prompt config nonce esp c c' → Line.Step config resets allowed c c' → R c c')
include hup hlow

/-- Where nothing is on its way, the timer expires. -/
theorem inevitable_expire {accept : OtaLink.Packet UInt8 → Bool}
    {k : Option (OtaLink.Packet UInt8) → HostProg α} {f : Firmware} {done : List Event}
    (hthen : Inevitable R Q (k none, ⟨f, done, [], [], []⟩)) :
    Inevitable R Q (.recv accept k, ⟨f, done, [], [], []⟩) := by
  refine .later (hlow _ _ (.expire ⟨rfl, rfl⟩) .expire) fun c' hc' => ?_
  cases hup _ _ hc' with
  | octet hl hf => cases hl
  | read hl hchunk => exact absurd (List.append_eq_nil_iff.mp hl.symm).1 hchunk
  | answer hl hf hsome =>
    obtain ⟨rfl, rfl⟩ := List.append_eq_nil_iff.mp hl.symm
    obtain ⟨-, rfl⟩ := Prod.mk.injEq .. ▸ hf.symm
    cases hsome
  | expire => exact hthen

/-- The client reads a response, in whatever pieces, and takes it or waits for its timer. -/
theorem inevitable_read {r : OtaLink.Packet UInt8} (hr : r.Framed)
    {accept : OtaLink.Packet UInt8 → Bool} {k : Option (OtaLink.Packet UInt8) → HostProg α}
    {f : Firmware} {done : List Event}
    (hthen : Inevitable R Q (k ((some r).filter accept), ⟨f, done, [], [], []⟩))
    {xs ys : List UInt8} (hne : ys ≠ [])
    (h : xs ++ ys = packetFrame r.command r.sequence r.payload) :
    Inevitable R Q (.recv accept k, ⟨f, done, [], ys, xs⟩) := by
  rw [Option.filter_some] at hthen
  induction hn : ys.length using Nat.strong_induction_on generalizing xs ys with
  | _ n ih =>
  -- All that is there may be read at once.
  have hstep : ∃ c, R (.recv accept k, ⟨f, done, [], ys, xs⟩) c := by
    have hl : ys = ys ++ [] := (List.append_nil _).symm
    have hall : PacketParser.feed xs ys = ([], [r]) := by
      rw [@feed_piece r xs [] hr ys (by rwa [List.append_nil]), if_pos rfl]
    cases hacc : accept r
    · have hfind : [r].find? accept = none := by simp [hacc]
      exact ⟨_, hlow _ _ (.read hl hne hall hfind) (.read hl hall hfind)⟩
    · have hfind : [r].find? accept = some r := by simp [hacc]
      exact ⟨_, hlow _ _ (.answer hl hall hfind) (.answer hl hall hfind)⟩
  obtain ⟨c, hc⟩ := hstep
  refine .later hc fun c' hc' => ?_
  cases hup _ _ hc' with
  | octet hl hf => cases hl
  | @read _ _ _ chunk rest buffer packets hl hchunk hf hnone =>
    obtain rfl : ys = chunk ++ rest := hl
    rw [feed_piece hr h] at hf
    by_cases hrest : rest = []
    · subst hrest
      rw [if_pos rfl] at hf
      obtain ⟨rfl, rfl⟩ := Prod.mk.injEq .. ▸ hf
      -- The response is not the one it waits for.
      have hacc : accept r = false := by simpa using hnone
      rw [hacc] at hthen
      exact inevitable_expire hup hlow hthen
    · rw [if_neg hrest] at hf
      obtain ⟨rfl, rfl⟩ := Prod.mk.injEq .. ▸ hf
      have hpos := List.length_pos_iff.mpr hchunk
      rw [List.length_append] at hn
      exact ih _ (by omega) hrest (by rw [List.append_assoc]; exact h) rfl
  | @answer _ _ _ chunk rest buffer packets r' hl hf hsome =>
    obtain rfl : ys = chunk ++ rest := hl
    rw [feed_piece hr h] at hf
    split at hf
    · rename_i hrest
      subst hrest
      obtain ⟨rfl, rfl⟩ := Prod.mk.injEq .. ▸ hf
      obtain ⟨hacc, rfl⟩ : accept r = true ∧ r = r' := by simpa using hsome
      rwa [hacc] at hthen
    · obtain ⟨rfl, rfl⟩ := Prod.mk.injEq .. ▸ hf
      cases hsome
  | expire hl => exact absurd hl.2 hne

variable (ha : ∀ done, allowed (esp done).answers = true)
include ha

/-- While there is something for the firmware to read, it reads. -/
theorem inevitable_octet {accept : OtaLink.Packet UInt8 → Bool}
    {k : Option (OtaLink.Packet UInt8) → HostProg α} {f f' : Firmware} {done events : List Event}
    {b : UInt8} {ys : List UInt8} (hf : f.step config (.octet b (esp done)) = some (f', events))
    (hthen : Inevitable R Q (.recv accept k, ⟨f', done ++ events, ys, octetsWritten events, []⟩)) :
    Inevitable R Q (.recv accept k, ⟨f, done, b :: ys, [], []⟩) := by
  have harrives : Arrives (Line.responses ⟨f, done, b :: ys, [], []⟩)
      (PacketParser.feed [] (octetsWritten events)).2
      (Line.responses (Line.send ⟨f, done, b :: ys, [], []⟩ (octetsWritten events))) :=
    .inr (by simp [Line.responses, Line.send, PacketParser.feed_eq_scan])
  refine .later (hlow _ _ (.octet rfl hf) (.octet rfl (ha done) hf harrives)) fun c' hc' => ?_
  cases hup _ _ hc' with
  | octet hl hf' =>
    obtain ⟨rfl, rfl⟩ := List.cons.inj hl
    obtain ⟨rfl, rfl⟩ := Prod.mk.inj (Option.some.inj (hf.symm.trans hf'))
    exact hthen
  | read hl hchunk => exact absurd (List.append_eq_nil_iff.mp hl.symm).1 hchunk
  | answer hl hf hsome =>
    obtain ⟨rfl, rfl⟩ := List.append_eq_nil_iff.mp hl.symm
    obtain ⟨-, rfl⟩ := Prod.mk.injEq .. ▸ hf.symm
    cases hsome
  | expire hl => cases hl.1

variable (h₀ : otaLinkStartWithConfig config = some d₀)
include h₀

/-- The firmware reads a request and answers it at once. -/
theorem inevitable_request {m : OtaLink.Packet UInt8} (hm : m.Framed)
    {accept : OtaLink.Packet UInt8 → Bool} {k : Option (OtaLink.Packet UInt8) → HostProg α}
    {w : World UInt8} (hd : w.device.restarted = d₀)
    (hthen : ∀ r f, OtaLink.sent (w.device.step (esp (w.trace.filterMap view)).answers m).2 = [r] →
      f.Holds [] (w.step (esp (w.trace.filterMap view)).answers m).device →
      Inevitable R Q (k ((some r).filter accept),
        ⟨f, (w.step (esp (w.trace.filterMap view)).answers m).trace.filterMap view, [], [], []⟩))
    {ys : List UInt8} :
    ∀ {xs : List UInt8} {f : Firmware}, f.Holds xs w.device → ys ≠ [] →
      xs ++ ys = packetFrame m.command m.sequence m.payload →
      Inevitable R Q (.recv accept k, ⟨f, w.trace.filterMap view, ys, [], []⟩) := by
  induction ys with
  | nil => exact fun _ hne => absurd rfl hne
  | cons b ys ih =>
    intro xs f hf _ h
    by_cases hys : ys = []
    · subst hys
      obtain ⟨f', r, hr, hstep, hf', hsent, hwritten⟩ :=
        octet_last h₀ hd hf hm h (esp (w.trace.filterMap view))
      refine inevitable_octet hup hlow ha hstep ?_
      have hnext := hthen r f' hsent hf'
      rw [World.step, List.filterMap_append] at hnext
      rw [hwritten]
      exact inevitable_read hup hlow hr hnext (packetFrame_ne_nil _ _ _) (List.nil_append _)
    · obtain ⟨f', hstep, hf'⟩ := octet_part hf hm hys h (esp (w.trace.filterMap view))
      refine inevitable_octet hup hlow ha hstep ?_
      rw [List.append_nil]
      rw [List.append_cons] at h
      exact ih hf' hys h

/-- **Every run.** A program that stops and waits ends on a clean line as it ends where the device
answers each packet at once. -/
theorem inevitable_of_waits {p : HostProg α} (hp : p.Waits OtaLink.Packet.Framed) :
    ∀ {l : Line} {w : World UInt8}, l.Clean d₀ w → ∀ inbox,
      (∀ l' : Line, l'.Clean d₀ (p.against (prompt nonce esp) inbox w).2.2 →
        Q (.ret (p.against (prompt nonce esp) inbox w).1, l')) → Inevitable R Q (p, l) := by
  induction hp with
  | ret => exact fun {l w} hl inbox hQ => .now (hQ l hl)
  | @ask q k _ ih =>
    intro l w hl inbox hQ
    cases q
    have hnext := hl.done ▸ ih (nonce (w.trace.filterMap view)) hl inbox hQ
    refine .later (hlow _ _ .ask .ask) fun c' hc' => ?_
    cases hup _ _ hc' with
    | octet hr => cases hl.receiving.symm.trans hr
    | ask => exact hnext
  | @exchange m accept k hm _ ih =>
    rintro ⟨f, done, receiving, sending, buffer⟩ w ⟨hf, hres, rfl, rfl, rfl, rfl⟩ inbox hQ
    have hwrite := buildPacket_eq m.command m.sequence hm.2
    have hheld : f.parser.held = [] := by
      rw [Parser.held, hf.parser.length, hf.parser.buffer.read_all, Option.getD_some]
    have hrun : OtaLink.protocolParserRun [] [] = ([], []) := rfl
    have harrives : Arrives (Line.requests ⟨f, w.trace.filterMap view, [], [], []⟩)
        (OtaLink.protocolParserRun [] (packetFrame m.command m.sequence m.payload)).2
        (Line.requests (Line.receive ⟨f, w.trace.filterMap view, [], [], []⟩
          (packetFrame m.command m.sequence m.payload))) :=
      .inr (by rw [Line.requests, Line.requests, Line.receive, hheld, hrun, List.nil_append,
        List.nil_append])
    refine .later (hlow _ _ (.write hm.1 hwrite) (.write hm.1 hwrite harrives)) fun c' hc' => ?_
    cases hup _ _ hc' with
    | octet hr => cases hr
    | write _ hb =>
      obtain rfl := Except.ok.inj (hwrite.symm.trans hb)
      refine inevitable_request hup hlow ha h₀ hm hres (fun r f' hsent hf' => ?_) hf
        (packetFrame_ne_nil _ _ _) (List.nil_append _)
      have hserve : (prompt nonce esp).serve w m = some (r, w.step _ m) := serve_reliable hsent
      simp only [Prog.against, hserve] at hQ
      exact ih _ ⟨hf', (restarted_step _ _ _).trans hres, rfl, rfl, rfl, rfl⟩ none hQ

end Run

section Ends
variable {α : Type} {config : OtaLinkConfig UInt8} {d₀ : OtaLink.Device UInt8}
  {nonce : List Event → Answer UInt8 .urandom} {esp : List Event → EspResults} {p : HostProg α}
  {l : Line} {w : World UInt8}

/-- **Every run without noise ends** as it ends where the device answers each packet at once. -/
theorem line_inevitable (h₀ : otaLinkStartWithConfig config = some d₀)
    (hp : p.Waits OtaLink.Packet.Framed) (hl : l.Clean d₀ w)
    (inbox : Option (OtaLink.Packet UInt8)) {Q : HostProg α × Line → Prop}
    (hQ : ∀ l' : Line, l'.Clean d₀ (p.against (prompt nonce esp) inbox w).2.2 →
      Q (.ret (p.against (prompt nonce esp) inbox w).1, l')) :
    Inevitable (Line.Prompt config nonce esp) Q (p, l) :=
  @inevitable_of_waits α config false (fun _ => true) d₀ nonce esp _ Q (fun _ _ h => h)
    (fun _ _ h _ => h) (fun _ => rfl) h₀ p hp l w hl inbox hQ

/-- **A run without losses is one of the runs on the line** with noise. -/
theorem line_reaches {resets : Bool} {allowed : EspIdf UInt8 → Bool}
    (h₀ : otaLinkStartWithConfig config = some d₀)
    (ha : ∀ done, allowed (esp done).answers = true) (hp : p.Waits OtaLink.Packet.Framed)
    (hl : l.Clean d₀ w) (inbox : Option (OtaLink.Packet UInt8)) :
    ∃ l', ReflTransGen (Line.Step config resets allowed) (p, l)
        (.ret (p.against (prompt nonce esp) inbox w).1, l') ∧
      l'.Clean d₀ (p.against (prompt nonce esp) inbox w).2.2 := by
  have hend := @inevitable_of_waits α config resets allowed d₀ nonce esp
    (fun c c' => Line.Prompt config nonce esp c c' ∧ Line.Step config resets allowed c c')
    (fun c => c.1 = .ret (p.against (prompt nonce esp) inbox w).1 ∧
      c.2.Clean d₀ (p.against (prompt nonce esp) inbox w).2.2)
    (fun _ _ h => h.1) (fun _ _ h h' => ⟨h, h'⟩) ha h₀ p hp l w hl inbox fun _ hl' => ⟨rfl, hl'⟩
  obtain ⟨⟨p', l'⟩, hr, rfl, hl'⟩ := hend.exists_run
  exact ⟨l', ReflTransGen.mono (fun _ _ h => h.2) _ _ hr, hl'⟩

end Ends
end OtaLink.Mem
