import OtaLink.Update

/-!
# Lost acknowledgments without a key

Without a session the device has no cache, and a copy of a request is handled as a new
one. `OTA_DATA` absorbs it: the record remembers the last chunk, and a repetition of it is
acknowledged again. `OTA_BEGIN`, `OTA_END` and `OTA_ABORT` do not, their second execution
is refused. So an update succeeds as long as the response to the first copy of each of
these three is not the one that is lost, and the client reports a failure where it is.

## Main definitions

* `EspIdf.takes` — the platform takes the image and reads it back.
* `Policy.answered`, `Policy.firstAnswered` — the runs in which each request is answered, and
  those in which the first response to each of the three commands arrives.
* `Inert` — a packet that leaves the OTA session as it is.
* `lost_ack_safe` — in the latter runs nothing is reported as rejected.
-/

namespace OtaLink
open Lib

variable {β : Type} [Alphabet β]

/-- Every call succeeds: the partition takes `f` and reads back the hash it ends in. -/
def EspIdf.takes (f : List β) (esp : EspIdf β) : Bool :=
  esp.nextUpdatePartition.any (fun p => decide (f.length ≤ p.size)) && esp.otaBegin.isSome &&
    esp.otaWrite && esp.otaAbort && esp.otaEnd && esp.setBootPartition &&
    esp.partitionSha256 == some (f.drop (f.length - 32))

/-- Each request is answered within the retries of the client; anything else may be lost. -/
def Policy.answered (cfg : HostConfig β) : Policy (Packet β) (World β) where
  deliver _ _ := true
  lose _ := true
  accept _ _ := true
  expire n := decide (n + 1 < cfg.retries)

/-- A request whose second execution is refused. -/
def Packet.isOnce (q : Packet β) : Bool :=
  q.command == Command.otaBegin.code || q.command == Command.otaEnd.code ||
    q.command == Command.otaAbort.code

/-- Moreover, no response is lost that the device gives to the first copy of an `OTA_BEGIN`,
`OTA_END` or `OTA_ABORT`. -/
def Policy.firstAnswered (cfg : HostConfig β) : Policy (Packet β) (World β) :=
  { Policy.answered cfg with
    lose := fun r => !r.request.isOnce || r.asOf.trace.contains (.receive r.request) }

/-- The boot partition has been switched. -/
def Switched (w : World β) : Prop := ∃ p : Partition, .setBootPartition (some p) true ∈ w.trace

/-- The record while the first `off` octets of `f` have been written. -/
structure Receiving (f : List β) (off : ℕ) (s : OtaState β) : Prop where
  active : s.active = true
  firmwareSize : s.firmwareSize = f.length
  bytesReceived : s.bytesReceived = off
  expectedSha256 : s.expectedSha256 = f.drop (f.length - 32)
  partition : s.partition ≠ none

/-! ## What the commands do -/

section Execute
variable {f : List β} {esp : EspIdf β} {s : OtaState β} {n : UInt16}

theorem takes_iff : esp.takes f = true ↔
    (∃ p, esp.nextUpdatePartition = some p ∧ f.length ≤ p.size) ∧ (∃ h, esp.otaBegin = some h) ∧
      esp.otaWrite = true ∧ esp.otaAbort = true ∧ esp.otaEnd = true ∧ esp.setBootPartition = true ∧
      esp.partitionSha256 = some (f.drop (f.length - 32)) := by
  simp only [EspIdf.takes, Bool.and_eq_true, Option.any_eq_true, decide_eq_true_eq,
    Option.isSome_iff_exists, beq_iff_eq]
  tauto

theorem execute_begin (he : esp.takes f = true) (hs : s.active = false) (hmin : 32 ≤ f.length)
    (hmax : f.length < 2 ^ 32) :
    (execute esp s .otaBegin n (announcement f)).error = .ok ∧
      Receiving f 0 (execute esp s .otaBegin n (announcement f)).ota := by
  obtain ⟨⟨p, hp, hfit⟩, ⟨h, hh⟩, -⟩ := takes_iff.mp he
  have hlen : (announcement f).length = otaBeginPayloadSize := by
    simp only [announcement, List.length_append, length_le32, List.length_drop, otaBeginPayloadSize,
      otaSha256Size]
    omega
  have hsize : readU32Le (announcement f) = f.length := readU32Le_le32 hmax _
  have h0 : ¬f.length = 0 := by omega
  have hrun : (otaManagerBegin esp (announcement f)).val s = .ok ∧
      (otaManagerBegin esp (announcement f)).state s =
        .opened f.length (f.drop (f.length - 32)) h p := by
    simp [otaManagerBegin, hs, hlen, hsize, h0, hp, Nat.not_lt.mpr hfit, hh]
    rfl
  simp only [execute, runOta, Bool.false_and, Bool.false_eq_true, if_false, Outcome.operated]
  refine ⟨hrun.1, ?_⟩
  rw [hrun.2]
  exact ⟨rfl, rfl, rfl, rfl, by simp [OtaState.opened]⟩

/-- A second `OTA_BEGIN` is refused. -/
theorem execute_begin_active (hs : s.active = true) (payload : List β) :
    (execute esp s .otaBegin n payload).ota = s := by
  simp [execute, runOta, Outcome.operated, otaManagerBegin, hs]

/-- The device reads from an `OTA_DATA` payload what the client has put into it. -/
theorem read_dataPayload {off : ℕ} (hoff : off < 2 ^ 32) (chunkNumber : ℕ) (chunk : List β) :
    readU32Le ((le32 chunkNumber ++ le32 off ++ chunk).drop 4) = off ∧
      (le32 chunkNumber ++ le32 off ++ chunk).drop otaDataHeaderSize = chunk ∧
      (le32 chunkNumber ++ le32 off ++ chunk).length = otaDataHeaderSize + chunk.length := by
  rw [List.append_assoc]
  refine ⟨readU32Le_le32 hoff _, rfl, ?_⟩
  simp only [List.length_append, length_le32, otaDataHeaderSize]
  omega

omit [Alphabet β] in
theorem Receiving.wrote {off : ℕ} {chunk : List β} (hs : Receiving f off s)
    (hfit : off + chunk.length ≤ f.length) (hmax : f.length < 2 ^ 32) :
    Receiving f (off + chunk.length) (s.wrote chunk) :=
  ⟨hs.active, hs.firmwareSize, by
    rw [← hs.bytesReceived]
    exact Nat.mod_eq_of_lt (by rw [hs.bytesReceived]; omega), hs.expectedSha256, hs.partition⟩

section Data
variable {off : ℕ} (n : UInt16) (chunkNumber : ℕ) {chunk : List β}
  (he : esp.takes f = true) (hs : Receiving f off s)
  (hne : chunk ≠ []) (hlen : chunk.length ≤ otaMaxChunkDataSize)
  (hfit : off + chunk.length ≤ f.length) (hmax : f.length < 2 ^ 32)
include hs hne hlen hfit hmax

/-- A chunk that repeats the last one is acknowledged and changes nothing. -/
theorem execute_data_again (esp : EspIdf β) :
    (execute esp (s.wrote chunk) .otaData n (le32 chunkNumber ++ le32 off ++ chunk)).error = .ok ∧
      (execute esp (s.wrote chunk) .otaData n (le32 chunkNumber ++ le32 off ++ chunk)).ota =
        s.wrote chunk := by
  have hpos := List.length_pos_iff.mpr hne
  obtain ⟨hoff, hdata, hl⟩ := read_dataPayload (by omega : off < 2 ^ 32) chunkNumber chunk
  have hsum : (off + chunk.length) % 2 ^ 32 = off + chunk.length := Nat.mod_eq_of_lt (by omega)
  have hl' : ¬otaDataHeaderSize + chunk.length ≤ otaDataHeaderSize := by omega
  have hcount : (s.wrote chunk).bytesReceived = off + chunk.length := by
    rw [← hsum, ← hs.bytesReceived]
    rfl
  have hactive : (s.wrote chunk).active = true := hs.active
  have hlast : (s.wrote chunk).isLastChunk off chunk = true := by
    simp only [OtaState.isLastChunk, hcount, hsum]
    simp [OtaState.wrote, hs.bytesReceived]
  have hrun :
    (otaManagerWriteData esp (le32 chunkNumber ++ le32 off ++ chunk)).val (s.wrote chunk) =
        .ok ∧ (otaManagerWriteData esp (le32 chunkNumber ++ le32 off ++ chunk)).state
          (s.wrote chunk) = s.wrote chunk := by
    simp only [otaManagerWriteData, hoff, hdata, hl, hl', Nat.not_lt.mpr hlen, if_false]
    simp [hactive, hcount, hlast, hne]
  simp only [execute, runOta, Bool.false_and, Bool.false_eq_true, if_false, Outcome.operated]
  exact hrun

include he

theorem execute_data :
    (execute esp s .otaData n (le32 chunkNumber ++ le32 off ++ chunk)).error = .ok ∧
      (execute esp s .otaData n (le32 chunkNumber ++ le32 off ++ chunk)).ota = s.wrote chunk := by
  obtain ⟨-, -, hw, -⟩ := takes_iff.mp he
  have hpos := List.length_pos_iff.mpr hne
  obtain ⟨hoff, hdata, hl⟩ := read_dataPayload (by omega : off < 2 ^ 32) chunkNumber chunk
  have hsum : (off + chunk.length) % 2 ^ 32 = off + chunk.length := Nat.mod_eq_of_lt (by omega)
  have hl' : ¬otaDataHeaderSize + chunk.length ≤ otaDataHeaderSize := by omega
  have hrun : (otaManagerWriteData esp (le32 chunkNumber ++ le32 off ++ chunk)).val s = .ok ∧
      (otaManagerWriteData esp (le32 chunkNumber ++ le32 off ++ chunk)).state s =
        s.wrote chunk := by
    simp only [otaManagerWriteData, hoff, hdata, hl, hl', hsum, hw, Nat.not_lt.mpr hlen, if_false]
    simp [hs.active, hs.bytesReceived, hs.firmwareSize, Nat.not_lt.mpr hfit]
  simp only [execute, runOta, Bool.false_and, Bool.false_eq_true, if_false, Outcome.operated]
  exact hrun

end Data

/-- The end of a complete transfer switches the boot partition. -/
theorem execute_end (he : esp.takes f = true) (hs : Receiving f f.length s) :
    (execute esp s .otaEnd n []).error = .ok ∧ (execute esp s .otaEnd n []).ota.active = false ∧
      .setBootPartition s.partition true ∈ (execute esp s .otaEnd n []).before := by
  obtain ⟨-, -, -, -, hend, hboot, hsha⟩ := takes_iff.mp he
  simp [execute, runOta, Outcome.operated, otaManagerEnd, hs.active, hs.bytesReceived,
    hs.firmwareSize, hs.expectedSha256, hend, hboot, hsha]

theorem execute_end_inactive (hs : s.active = false) :
    (execute esp s .otaEnd n []).ota = s := by
  simp [execute, runOta, Outcome.operated, otaManagerEnd, hs]

theorem execute_abort (he : esp.takes f = true) (hs : s.active = true) :
    (execute esp s .otaAbort n []).error = .ok ∧
      (execute esp s .otaAbort n []).ota.active = false := by
  obtain ⟨-, -, -, habort, -⟩ := takes_iff.mp he
  simp [execute, runOta, Outcome.operated, otaManagerAbort, hs, habort]

theorem execute_abort_inactive (hs : s.active = false) :
    (execute esp s .otaAbort n []).ota = s := by
  simp [execute, runOta, Outcome.operated, otaManagerAbort, hs]

end Execute

/-! ## A device without a key -/

section Open
variable {d : Device β} {esp : EspIdf β} {c : Command} {n : UInt16} {payload : List β}

/-- Without a key the device executes every request, and signs and stores nothing. -/
theorem step_open (hr : d.auth.required = false) (hp : c.isProtected = true)
    (hc : c ≠ .reboot ∧ c ≠ .rollback) :
    d.step esp (frame c n payload) =
      ({ d with ota := (execute esp d.ota c n payload).ota },
        .receive (frame c n payload) :: ((execute esp d.ota c n payload).before ++
          [.send (frame (responseFor (execute esp d.ota c n payload).error) n
            (statusPayload (execute esp d.ota c n payload).error))])) := by
  have hg : d.auth.gate (frame c n payload) = .run payload := by simp [AuthState.gate, hr, frame]
  rw [step_of_run esp rfl rfl hp hg rfl]
  rcases after_execute esp d.ota payload c n with h | ⟨rfl, -⟩ | ⟨rfl, -⟩
  · have h' : (execute esp d.ota c (frame c n payload).sequence payload).after = [] := h
    simp [h', Device.report, Device.reply, AuthState.remember, AuthState.response, AuthState.signs,
      hr]
    exact ⟨rfl, rfl, rfl⟩
  · exact absurd rfl hc.1
  · exact absurd rfl hc.2

theorem sent_step_open (hr : d.auth.required = false) (hp : c.isProtected = true)
    (hc : c ≠ .reboot ∧ c ≠ .rollback) : sent (d.step esp (frame c n payload)).2 =
      [frame (responseFor (execute esp d.ota c n payload).error) n
        (statusPayload (execute esp d.ota c n payload).error)] := by
  rw [step_open hr hp hc]
  simp [sent_of_isCall (isCall_of_execute esp d.ota payload c n), Event.sent?]

theorem ota_step_open {w : World β} (hr : w.device.auth.required = false)
    (hp : c.isProtected = true)
    (hc : c ≠ .reboot ∧ c ≠ .rollback) :
    (w.step esp (frame c n payload)).device.ota = (execute esp w.device.ota c n payload).ota := by
  rw [World.step, step_open hr hp hc]

end Open

/-- `o` leaves the record `s` of a device without a key as it is. -/
def Inert (f : List β) (o : Packet β) (s : OtaState β) : Prop :=
  ∀ (d : Device β) (esp : EspIdf β), esp.takes f = true → d.auth.required = false → d.ota = s →
    (d.step esp o).1.ota = s

theorem inert_of_execute {f : List β} {c : Command} {n : UInt16} {payload : List β} {s : OtaState β}
    (hp : c.isProtected = true) (hc : c ≠ .reboot ∧ c ≠ .rollback)
    (h : ∀ esp : EspIdf β, (execute esp s c n payload).ota = s) :
    Inert f (frame c n payload) s := by
  rintro d esp - hr rfl
  rw [step_open hr hp hc]
  exact h esp

theorem inert_ping {f : List β} {n : UInt16} {s : OtaState β} : Inert f (frame .ping n []) s := by
  rintro d esp - hr rfl
  have hhandle : d.handle esp (frame .ping n []) = (d, [.send (ackFrame n)]) := by
    simp [Device.handle, commandsHandlePacket, frame, ackFrame]
  rw [step_of_send hhandle]

/-- The device has received packets of these commands only. -/
def Seen (cs : List Command) (w : World β) : Prop :=
  ∀ q, .receive q ∈ w.trace → ∃ c ∈ cs, q.command = c.code

theorem Seen.step {cs : List Command} {w : World β} (h : Seen cs w) {q : Packet β}
    (hq : ∃ c ∈ cs, q.command = c.code) (esp : EspIdf β) : Seen cs (w.step esp q) := by
  intro p hp
  rcases List.mem_append.mp hp with hp | hp
  · exact h p hp
  · exact receive_of_mem_step hp ▸ hq

omit [Alphabet β] in
theorem Seen.mono {cs cs' : List Command} {w : World β} (h : Seen cs w) (hcs : cs ⊆ cs') :
    Seen cs' w := fun q hq => (h q hq).imp fun _ hc => ⟨hcs hc.1, hc.2⟩

/-- A device without a key that has received these commands, and its record, which the
packet in flight does not change. -/
structure Rests (f : List β) (cs : List Command) (o : Packet β) (s : OtaState β) (w : World β) :
    Prop where
  required : w.device.auth.required = false
  ota : w.device.ota = s
  seen : Seen cs w
  inert : Inert f o s
  mem : ∃ c ∈ cs, o.command = c.code

section Exchange
variable {f : List β} {cfg : HostConfig β} {cs : List Command} {o : Packet β} {s : OtaState β}
  {w w' : World β} {q r : Packet β}

theorem Rests.serves (h : Rests f cs o s w)
    (hs : (deviceServer false (EspIdf.takes f)).Serves w o r w') : Rests f cs o s w' := by
  obtain ⟨esp, he, -, rfl⟩ := serves_iff.mp hs
  exact ⟨(required_step _ _ _).trans h.required, h.inert _ _ he h.required h.ota,
    h.seen.step h.mem esp, h.inert, h.mem⟩

theorem not_tick {P : Prop} (ht : (deviceServer false (EspIdf.takes f)).tick w = some w') : P := by
  simpa using (tick_iff.mp ht).1

/-- The first response to a request that cannot be repeated is an ACK, and it is not lost. -/
def FirstAcked (m : Packet β) (mine : List (Reply (Packet β) (World β))) : Prop :=
  ∃ q rest, mine = q :: rest ∧ q.request = m ∧ q.response = ackFrame m.sequence ∧
    .receive m ∉ q.asOf.trace

theorem FirstAcked.lose {m : Packet β} {xs ys : List (Reply (Packet β) (World β))}
    {x : Reply (Packet β) (World β)} (hm : m.isOnce = true) (h : FirstAcked m (xs ++ x :: ys))
    (hp : (Policy.firstAnswered cfg).lose x = true) : FirstAcked m (xs ++ ys) := by
  obtain ⟨q, rest, heq, hreq, hres, hfirst⟩ := h
  cases xs with
  | nil =>
    obtain ⟨rfl, -⟩ := List.cons.inj heq
    simp [Policy.firstAnswered, hreq, hm, hfirst] at hp
  | cons y ys =>
    obtain ⟨rfl, -⟩ := List.cons.inj heq
    exact ⟨y, _, rfl, hreq, hres, hfirst⟩

/-- The exchange of a request that cannot be repeated: the first copy is executed, and
later ones change nothing. -/
theorem exchange_first {c : Command} {payload : List β} (Next : World β → Prop)
    (hp : c.isProtected = true) (hc : c ≠ .reboot ∧ c ≠ .rollback) (hcs : c ∉ cs)
    (honce : (frame c (o.sequence + 1) payload).isOnce = true)
    (hrun : ∀ (w : World β) esp, esp.takes f = true → w.device.auth.required = false →
      w.device.ota = s → (execute esp s c (o.sequence + 1) payload).error = .ok ∧
        Next (w.step esp (frame c (o.sequence + 1) payload)))
    (hagain : ∀ (w : World β) esp, esp.takes f = true → w.device.auth.required = false → Next w →
      Next (w.step esp (frame c (o.sequence + 1) payload))) :
    Exchange Packet.sequence (deviceServer false (EspIdf.takes f)) (Policy.firstAnswered cfg) o
      (frame c (o.sequence + 1) payload) (Rests f cs o s)
      (fun mine w => w.device.auth.required = false ∧ Next w ∧ Seen (c :: cs) w ∧
        FirstAcked (frame c (o.sequence + 1) payload) mine) where
  tag_ne := sequence_ne _
  old h _ hs := h.serves hs
  tick _ ht := not_tick ht
  first {w r w'} h _ hs := by
    obtain ⟨esp, he, hsent, rfl⟩ := serves_iff.mp hs
    obtain ⟨hok, hnext⟩ := hrun w esp he h.required h.ota
    refine ⟨(required_step _ _ _).trans h.required, hnext,
      (h.seen.mono (List.subset_cons_self _ _)).step ⟨c, by simp, rfl⟩ esp, _, _, rfl, rfl, ?_, ?_⟩
    · rw [sent_step_open h.required hp hc, h.ota, hok] at hsent
      exact (List.cons.inj hsent).1.symm
    · intro hmem
      obtain ⟨c', hc', heq⟩ := h.seen _ hmem
      exact hcs ((Command.code_injective heq) ▸ hc')
  again {mine w r w'} h _ hs := by
    obtain ⟨hr, hnext, hseen, q, rest, rfl, hq⟩ := h
    obtain ⟨esp, he, -, rfl⟩ := serves_iff.mp hs
    exact ⟨(required_step _ _ _).trans hr, hagain w esp he hr hnext,
      hseen.step ⟨c, by simp, rfl⟩ esp, q, _, rfl, hq⟩
  tick' _ ht := not_tick ht
  lose h hlose := ⟨h.1, h.2.1, h.2.2.1, h.2.2.2.lose honce hlose⟩

/-- The exchange of a chunk: every copy is acknowledged. -/
theorem exchange_data {off chunkNumber : ℕ} {chunk : List β} (hs : Receiving f off s)
    (hne : chunk ≠ []) (hlen : chunk.length ≤ otaMaxChunkDataSize)
    (hfit : off + chunk.length ≤ f.length) (hmax : f.length < 2 ^ 32) (hcs : .otaData ∈ cs) :
    Exchange Packet.sequence (deviceServer false (EspIdf.takes f)) (Policy.firstAnswered cfg) o
      (frame .otaData (o.sequence + 1) (le32 chunkNumber ++ le32 off ++ chunk)) (Rests f cs o s)
      (fun mine w => w.device.auth.required = false ∧ w.device.ota = s.wrote chunk ∧ Seen cs w ∧
        ∀ q ∈ mine, q.response = ackFrame (o.sequence + 1)) where
  tag_ne := sequence_ne _
  old h _ hs := h.serves hs
  tick _ ht := not_tick ht
  first {w r w'} h _ hserve := by
    obtain ⟨esp, he, hsent, rfl⟩ := serves_iff.mp hserve
    obtain ⟨hok, hota⟩ := execute_data (o.sequence + 1) chunkNumber he hs hne hlen hfit hmax
    refine ⟨(required_step _ _ _).trans h.required, ?_, h.seen.step ⟨.otaData, hcs, rfl⟩ esp, ?_⟩
    · rw [ota_step_open h.required rfl (by decide), h.ota, hota]
    · intro q hq
      rw [List.mem_singleton.mp hq]
      rw [sent_step_open h.required rfl (by decide), h.ota, hok] at hsent
      exact (List.cons.inj hsent).1.symm
  again {mine w r w'} h _ hserve := by
    obtain ⟨hr, hota, hseen, hack⟩ := h
    obtain ⟨esp, he, hsent, rfl⟩ := serves_iff.mp hserve
    obtain ⟨hok, hota'⟩ := execute_data_again (o.sequence + 1) chunkNumber hs hne hlen hfit
      hmax esp
    refine ⟨(required_step _ _ _).trans hr, ?_, hseen.step ⟨.otaData, hcs, rfl⟩ esp, ?_⟩
    · rw [ota_step_open hr rfl (by decide), hota, hota']
    · intro q hq
      rcases List.mem_append.mp hq with hq | hq
      · exact hack q hq
      · rw [List.mem_singleton.mp hq]
        rw [sent_step_open hr rfl (by decide), hota, hok] at hsent
        exact (List.cons.inj hsent).1.symm
  tick' _ ht := not_tick ht
  lose h _ := ⟨h.1, h.2.1, h.2.2.1, fun q hq => h.2.2.2 q (by simp at hq ⊢; tauto)⟩

end Exchange

/-! ## The client -/

section Client
variable {f : List β} {cfg : HostConfig β} (hkey : cfg.authKey = none) (hretries : 0 < cfg.retries)

/-- The client's side of a link to a device that does not reset and whose platform takes the
image. -/
abbrev openEnv (f : List β) (P : Policy (Packet β) (World β)) :
    Env Ask (Answer β) (Packet β) (Link (Packet β) (World β)) :=
  linkEnv false (EspIdf.takes f) P

include hkey hretries

/-- A command whose accepted replies are ACKs does not fail. -/
theorem runCommand_acked {c : Command} {payload : List β} (context : Context) (u : HostState β)
    {o : Packet β} {Before : World β → Prop}
    {After : List (Reply (Packet β) (World β)) → World β → Prop}
    (hlen : payload.length ≤ protocolMaxPayload)
    (H : Exchange Packet.sequence (deviceServer false (EspIdf.takes f)) (Policy.firstAnswered cfg) o
      (frame c (o.sequence + 1) payload) Before After)
    (hack : ∀ q post w, After (q :: post) w → q.response = ackFrame (o.sequence + 1)) :
    Task.Spec (openEnv f (Policy.firstAnswered cfg)) (fun _ => True)
      (fun t L => t = u.at o.sequence ∧ Idle Packet.sequence o L ∧ Before L.server)
      (runCommand cfg c payload context)
      (fun _ t L => t.sequence = (frame c (o.sequence + 1) payload).sequence ∧
        ∃ q, Taken Packet.sequence (frame c (o.sequence + 1) payload) After q L)
      (fun _ _ _ => False) := by
  have hg : cfg.guards c = false := by simp [HostConfig.guards, hkey]
  have hrequest : Task.Spec (openEnv f (Policy.firstAnswered cfg)) (fun _ => True)
      (fun t L => t = u.at o.sequence ∧ Idle Packet.sequence o L ∧ Before L.server)
      (request cfg c payload) _ (fun _ _ _ => False) :=
    request_open_spec (I := fun _ => True) hg u hlen H (fun _ _ => trivial) (fun _ _ _ => trivial)
      <| by
      intro t L hgives
      have := hgives (cfg.retries - 1) (by omega)
      simp [Policy.firstAnswered, Policy.answered] at this
      omega
  refine Task.Spec.bind (hrequest.handle fun _ _ _ h => h.elim) fun r => ?_
  · rintro t L ⟨ht, -, q, rfl, htaken⟩
    have hr := hack q _ _ htaken.after
    have hok : ensureAck q.response context = (pure () : HostTask β Unit) := by
      simp [ensureAck, hr, ackFrame, frame, statusPayload]
    rw [hok]
    exact ⟨ht, q, htaken⟩

/-- The client after the first `off` octets of the file. -/
def Loaded (f : List β) (off : ℕ) (t : HostState β) (L : Link (Packet β) (World β)) : Prop :=
  ∃ u o s, t = HostState.at u o.sequence ∧ Idle Packet.sequence o L ∧
    Rests f [.otaData, .otaBegin, .ping] o s L.server ∧ Receiving f off s

theorem runUpdateBegin_acked (hmin : 32 ≤ f.length) (hmax : f.length < 2 ^ 32) (u : HostState β)
    {o : Packet β} {s : OtaState β} (hs : s.active = false) :
    Task.Spec (openEnv f (Policy.firstAnswered cfg)) (fun _ => True)
      (fun t L => t = u.at o.sequence ∧ Idle Packet.sequence o L ∧ Rests f [.ping] o s L.server)
      (runUpdateBegin cfg f) (fun _ => Loaded f 0) (fun _ _ _ => False) := by
  have hx : Exchange Packet.sequence (deviceServer false (EspIdf.takes f))
    (Policy.firstAnswered cfg) o
      (frame .otaBegin (o.sequence + 1) (announcement f)) (Rests f [.ping] o s) _ :=
    exchange_first (fun w => Receiving f 0 w.device.ota) rfl (by decide) (by decide) rfl
      (fun w esp he hr hota => by
        obtain ⟨hok, hrec⟩ := execute_begin (n := o.sequence + 1) he hs hmin hmax
        exact ⟨hok, by rw [ota_step_open hr rfl (by decide), hota]; exact hrec⟩)
      (fun w esp he hr hrec => by
        rw [ota_step_open hr rfl (by decide), execute_begin_active hrec.active]
        exact hrec)
  have hpayload : (buildOtaBeginPayload f.length (f.drop (f.length - 32)) : HostTask β (List β)) =
      pure (announcement f) := by
    unfold buildOtaBeginPayload announcement
    rw [if_neg]
    simp only [List.length_drop]
    omega
  unfold runUpdateBegin
  rw [if_neg (by omega), hpayload]
  refine (runCommand_acked hkey hretries .otaBegin u ?_ hx ?_).consequence (fun _ _ h => h) ?_
    (fun _ _ _ h => h)
  · simp only [announcement, List.length_append, length_le32, List.length_drop, protocolMaxPayload]
    omega
  · rintro q post w ⟨-, -, -, q', rest, heq, -, hres, -⟩
    obtain ⟨rfl, -⟩ := List.cons.inj heq
    exact hres
  · rintro _ t L ⟨ht, q, hidle, hr, hrec, hseen, -⟩
    refine ⟨t, _, L.server.device.ota, by rw [← ht]; rfl, hidle, ⟨hr, rfl, hseen.mono (by simp), ?_,
      .otaBegin, by simp, rfl⟩, hrec⟩
    exact inert_of_execute rfl (by decide) fun esp => execute_begin_active hrec.active _

/-- One chunk of the transfer. -/
theorem sendChunk_acked {off chunkNumber : ℕ} {chunk : List β} (hne : chunk ≠ [])
    (hlen : chunk.length ≤ otaMaxChunkDataSize) (hfit : off + chunk.length ≤ f.length)
    (hmax : f.length < 2 ^ 32) (context : Context) :
    Task.Spec (openEnv f (Policy.firstAnswered cfg)) (fun _ => True) (Loaded f off)
      (runCommand cfg .otaData (le32 chunkNumber ++ le32 off ++ chunk) context)
      (fun _ => Loaded f (off + chunk.length)) (fun _ _ _ => False) := by
  rintro t L ⟨u, o, s, rfl, hidle, hrests, hrec⟩
  refine (runCommand_acked hkey hretries context u ?_
    (exchange_data hrec hne hlen hfit hmax (by simp)) ?_).consequence (fun _ _ h => h) ?_
    (fun _ _ _ h => h) _ _ ⟨rfl, hidle, hrests⟩
  · simp only [List.length_append, length_le32, protocolMaxPayload]
    simp only [otaMaxChunkDataSize] at hlen
    omega
  · exact fun q post w h => h.2.2.2 q List.mem_cons_self
  · rintro _ t L ⟨ht, q, hidle, hr, hota, hseen, -⟩
    refine ⟨t, _, s.wrote chunk, by rw [← ht]; rfl, hidle,
      ⟨hr, hota, hseen, ?_, .otaData, by simp, rfl⟩,
      hrec.wrote hfit hmax⟩
    exact inert_of_execute rfl (by decide) fun esp =>
      (execute_data_again _ chunkNumber hrec hne hlen hfit hmax esp).2

/-- The loop sends the rest of the file; each pass takes at least one octet of it. -/
theorem sendChunks_acked (hmax : f.length < 2 ^ 32) (fuel : ℕ) : ∀ chunkNumber off,
    f.length - off < fuel → off ≤ f.length → chunkNumber ≤ off →
    Task.Spec (openEnv f (Policy.firstAnswered cfg)) (fun _ => True) (Loaded f off)
      (sendChunks cfg fuel chunkNumber off (f.drop off)) (fun _ => Loaded f f.length)
      (fun _ _ _ => False) := by
  induction fuel with
  | zero => exact fun _ _ h => absurd h (Nat.not_lt_zero _)
  | succ fuel ih =>
    intro chunkNumber off hfuel hoff hnumber
    have hsize : maxOtaChunkDataSize cfg = 1016 := by simp [maxOtaChunkDataSize, hkey]
    generalize hchunk : (f.drop off).take 1016 = chunk
    have hlen : chunk.length = min 1016 (f.length - off) := by
      rw [← hchunk, List.length_take, List.length_drop]
    simp only [sendChunks, hsize, hchunk]
    refine Task.Spec.ite (fun hnil => ?_) fun hne => ?_
    · have : off = f.length := by
        rw [hnil, List.length_nil] at hlen
        omega
      exact Task.Spec.pure fun t L h => this ▸ h
    · have hpos := List.length_pos_iff.mpr hne
      have hpayload : (buildOtaDataPayload chunkNumber off chunk : HostTask β (List β)) =
          pure (le32 chunkNumber ++ le32 off ++ chunk) := by
        unfold buildOtaDataPayload
        rw [if_neg (by omega), if_neg (by omega), if_neg (by omega)]
      rw [hpayload, drop_chunk, hchunk]
      change Task.Spec _ _ _ (do
        runCommand cfg .otaData (le32 chunkNumber ++ le32 off ++ chunk) (.otaData chunkNumber off)
        sendChunks cfg fuel (chunkNumber + 1) (off + chunk.length) (f.drop (off + chunk.length)))
          _ _
      refine Task.Spec.bind (sendChunk_acked hkey hretries hne ?_ (by omega) hmax _) fun _ =>
        ih (chunkNumber + 1) (off + chunk.length) (by omega) (by omega) (by omega)
      simp only [otaMaxChunkDataSize]
      omega

theorem runUpdateEnd_acked :
    Task.Spec (openEnv f (Policy.firstAnswered cfg)) (fun _ => True) (Loaded f f.length)
      (runUpdateEnd cfg) (fun _ _ L => Switched L.server) (fun _ _ _ => False) := by
  rintro t L ⟨u, o, s, rfl, hidle, hrests, hrec⟩
  have hx : Exchange Packet.sequence (deviceServer false (EspIdf.takes f))
    (Policy.firstAnswered cfg) o
      (frame .otaEnd (o.sequence + 1) []) (Rests f [.otaData, .otaBegin, .ping] o s) _ :=
    exchange_first (fun w => w.device.ota.active = false ∧ Switched w) rfl (by decide)
      (by decide) rfl
      (fun w esp he hr hota => by
        obtain ⟨hok, hinactive, hboot⟩ := execute_end (n := o.sequence + 1) he hrec
        obtain ⟨p, hp⟩ := Option.ne_none_iff_exists'.mp hrec.partition
        refine ⟨hok, by rw [ota_step_open hr rfl (by decide), hota]; exact hinactive, p, ?_⟩
        rw [World.step, step_open hr rfl (by decide), hota, ← hp]
        simp [hboot])
      (fun w esp he hr ⟨hinactive, p, hp⟩ => by
        refine ⟨?_, p, List.mem_append_left _ hp⟩
        rw [ota_step_open hr rfl (by decide), execute_end_inactive hinactive]
        exact hinactive)
  have hend : Task.Spec (openEnv f (Policy.firstAnswered cfg)) (fun _ => True)
      (fun t L => t = u.at o.sequence ∧ Idle Packet.sequence o L ∧
        Rests f [.otaData, .otaBegin, .ping] o s L.server)
      (runUpdateEnd cfg) (fun _ _ L => Switched L.server) (fun _ _ _ => False) := by
    refine (runCommand_acked hkey hretries .otaEnd u (by simp) hx ?_).consequence
      (fun _ _ h => h) ?_
      (fun _ _ _ h => h)
    · rintro q post w ⟨-, -, -, q', rest, heq, -, hres, -⟩
      obtain ⟨rfl, -⟩ := List.cons.inj heq
      exact hres
    · rintro _ t L ⟨-, q, -, -, ⟨-, hswitched⟩, -⟩
      exact hswitched
  exact hend _ _ ⟨rfl, hidle, hrests⟩

theorem cmdUpdate_acked (hmin : 32 ≤ f.length) (hmax : f.length < 2 ^ 32) (u : HostState β)
    {o : Packet β} {s : OtaState β} (hs : s.active = false) :
    Task.Spec (openEnv f (Policy.firstAnswered cfg)) (fun _ => True)
      (fun t L => t = u.at o.sequence ∧ Idle Packet.sequence o L ∧ Rests f [.ping] o s L.server)
      (cmdUpdate cfg f) (fun _ _ L => Switched L.server) (fun _ _ _ => False) :=
  Task.Spec.bind (runUpdateBegin_acked hkey hretries hmin hmax u hs) fun _ =>
    Task.Spec.bind (sendChunks_acked hkey hretries hmax _ 0 0 (by omega) (by omega) (by omega))
      fun _ =>
      runUpdateEnd_acked hkey hretries

theorem runAbort_acked (u : HostState β) {o : Packet β} {s : OtaState β} (hs : s.active = true) :
    Task.Spec (openEnv f (Policy.firstAnswered cfg)) (fun _ => True)
      (fun t L => t = u.at o.sequence ∧ Idle Packet.sequence o L ∧ Rests f [.ping] o s L.server)
      (runAbort cfg) (fun _ _ _ => True) (fun _ _ _ => False) := by
  have hx : Exchange Packet.sequence (deviceServer false (EspIdf.takes f))
    (Policy.firstAnswered cfg) o
      (frame .otaAbort (o.sequence + 1) []) (Rests f [.ping] o s) _ :=
    exchange_first (fun w => w.device.ota.active = false) rfl (by decide) (by decide) rfl
      (fun w esp he hr hota => by
        obtain ⟨hok, hinactive⟩ := execute_abort (n := o.sequence + 1) he hs
        exact ⟨hok, by rw [ota_step_open hr rfl (by decide), hota]; exact hinactive⟩)
      (fun w esp he hr hinactive => by
        rw [ota_step_open hr rfl (by decide), execute_abort_inactive hinactive]
        exact hinactive)
  refine (runCommand_acked hkey hretries .otaAbort u (by simp) hx ?_).consequence (fun _ _ h => h)
    (fun _ _ _ _ => trivial) (fun _ _ _ h => h)
  rintro q post w ⟨-, -, -, q', rest, heq, -, hres, -⟩
  obtain ⟨rfl, -⟩ := List.cons.inj heq
  exact hres

end Client

/-- **No lost acknowledgment is reported as a failure**, if it is not the first one to an
`OTA_BEGIN`, `OTA_END` or `OTA_ABORT`: an update then ends in success with the boot partition
switched, and an abort of an active session ends in success. -/
theorem lost_ack_safe {cfg : HostConfig β} (hkey : cfg.authKey = none) (hretries : 0 < cfg.retries)
    {d : Device β} (hd : d.auth.required = false) {f : List β} (hmin : 32 ≤ f.length)
    (hmax : f.length < 2 ^ 32) (u : HostState β) :
    (d.ota.active = false → ∀ r t L, (openEnv f (Policy.firstAnswered cfg)).Reaches
        (cmdUpdate cfg f u, .quiet ⟨d, []⟩) (.ret (r, t), L) → r = .ok () ∧ Switched L.server) ∧
      (d.ota.active = true → ∀ r t L, (openEnv f (Policy.firstAnswered cfg)).Reaches
        (runAbort cfg u, .quiet ⟨d, []⟩) (.ret (r, t), L) → r = .ok ()) := by
  have hrests : Rests f [.ping] (frame .ping u.sequence []) d.ota ⟨d, []⟩ :=
    ⟨hd, rfl, by simp [Seen], inert_ping, .ping, by simp, rfl⟩
  refine ⟨fun hs r t L h => ?_, fun hs r t L h => ?_⟩
  · have hspec := cmdUpdate_acked (o := frame .ping u.sequence []) hkey hretries hmin hmax u hs
    have hend := hspec.reaches ?_ (fun _ _ _ _ _ h => h) ⟨rfl, .quiet _ _, hrests⟩ h
    · cases r with
      | ok => exact ⟨rfl, hend⟩
      | error => exact hend.elim
    · rintro _ _ L L' hmove ⟨p, hp⟩
      cases hmove with
      | deliver _ hserve =>
        obtain ⟨esp, -, -, rfl⟩ := serves_iff.mp hserve
        exact ⟨p, List.mem_append_left _ hp⟩
      | loseRequest => exact ⟨p, hp⟩
      | loseReply => exact ⟨p, hp⟩
      | tick ht => exact not_tick ht
  · have hspec := runAbort_acked (f := f) (o := frame .ping u.sequence []) hkey hretries u hs
    have hend :=
      hspec.reaches (fun _ _ _ _ _ h => h) (fun _ _ _ _ _ h => h) ⟨rfl, .quiet _ _, hrests⟩ h
    cases r with
    | ok => rfl
    | error => exact hend.elim

/-- A client without a key that sends every request up to twice. -/
def openHost : HostConfig Octet := ⟨2, none⟩

/-- The response to a request is lost, and the one to its copy arrives. -/
def lostOnce : List (Choice (EspIdf Octet)) :=
  [.proceed, .deliver sampleEsp, .loseReply, .expire] ++ roundTrip

/-- The program is over and reports a failure. -/
def reportsFailure :
    Prog Ask (Answer β) (Packet β) (Except HostError Unit × HostState β) → Bool
  | .ret (.error _, _) => true
  | _ => false

/-- One lost acknowledgment of an `OTA_BEGIN` makes the client report a failure. -/
theorem lost_ack_rejected :
    ¬∀ (cfg : HostConfig Octet) (d : Device Octet) (f : List Octet) (u : HostState Octet)
      (r : Except HostError Unit) (t : HostState Octet) (L : Link (Packet Octet) (World Octet)),
      cfg.authKey = none → 0 < cfg.retries → d.auth.required = false → 32 ≤ f.length →
      f.length < 2 ^ 32 → d.ota.active = false →
      (openEnv f (Policy.answered cfg)).Reaches (cmdUpdate cfg f u, .quiet ⟨d, []⟩)
        (.ret (r, t), L) → r = .ok () := by
  intro h
  obtain ⟨⟨p, L⟩, hr, hp⟩ := exists_reaches_of_play (deviceServer false (EspIdf.takes sampleImage))
    (Policy.answered openHost) sampleAnswer lostOnce
    (cmdUpdate openHost sampleImage sampleClient, .quiet ⟨openDevice, []⟩)
    (fun c => reportsFailure c.1) (by decide +kernel)
  match p, hp with
  | .ret (.error e, t), _ =>
    have := h openHost openDevice sampleImage sampleClient _ t L rfl (by decide) rfl (by decide)
      (by decide) rfl hr
    cases this

/-- A lost acknowledgment of a chunk does no harm. -/
theorem lost_ack_safe_lostOnce : ∃ L, Switched L.server ∧ ∃ t,
    (openEnv sampleImage (Policy.firstAnswered openHost)).Reaches
      (cmdUpdate openHost sampleImage sampleClient, .quiet ⟨openDevice, []⟩)
        (.ret (.ok (), t), L) := by
  obtain ⟨⟨p, L⟩, hr, hp⟩ := exists_reaches_of_play (deviceServer false (EspIdf.takes sampleImage))
    (Policy.firstAnswered openHost) sampleAnswer (roundTrip ++ lostOnce ++ roundTrip)
    (cmdUpdate openHost sampleImage sampleClient, .quiet ⟨openDevice, []⟩)
    (fun c => reportsSuccess c.1) (by decide +kernel)
  match p, hp with
  | .ret (.ok (), t), _ =>
    exact ⟨L, ((lost_ack_safe rfl (by decide) rfl (by decide) (by decide) sampleClient).1 rfl _ t L
      hr).2, t, hr⟩

end OtaLink
