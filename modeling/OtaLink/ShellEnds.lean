import OtaLink.Lib.Ends
import OtaLink.LostAck
import OtaLink.Shell

/-!
# What can end the shell

Which exceptions a command can raise is read off the commands, whatever the device is and does;
the shell prints those that are a `SystemExit`. The others end it.

## Main definitions

* `ShellError.EscapesLine` — the exceptions that a command lets through.
* `Shell.Survives` — each command line has come to an outcome.
* `shell_survives` — what can end the shell.
-/

namespace OtaLink
open Lib

variable {β : Type} [Alphabet β]

/-! ## What a command raises -/

/-- An exception of `request` on a packet that fits: a timeout or a `SystemExit`. -/
def HostError.OfRequest (e : HostError) : Prop := e = .timeout ∨ e.isSystemExit = true

section Ends
variable {cfg : HostConfig β} {c : Command} {payload : List β}

omit [Alphabet β] in
theorem nextSequence_ends {Err : HostError → Prop} :
    (nextSequence : HostTask β UInt16).Ends (fun _ => True) Err :=
  (Task.Ends.update _).bind fun _ _ => Task.Ends.read.bind fun _ _ => Task.Ends.pure trivial

omit [Alphabet β] in
theorem buildPacket_ends {n : UInt16} (hl : payload.length ≤ protocolMaxPayload) :
    (buildPacket c n payload).Ends (fun _ => True) HostError.OfRequest :=
  Task.Ends.ite (fun h => absurd h (by omega)) fun _ => Task.Ends.pure trivial

omit [Alphabet β] in
theorem requestPacket_ends (m : Packet β) :
    (requestPacket cfg m).Ends (fun _ => True) HostError.OfRequest := by
  refine (Task.Ends.exchange _ _ _).bind fun r _ => ?_
  cases r with
  | some r => exact Task.Ends.pure trivial
  | none => exact Task.Ends.raise (.inl rfl)

omit [Alphabet β] in
theorem requestUnprotected_ends (hl : payload.length ≤ protocolMaxPayload) :
    (requestUnprotected cfg c payload).Ends (fun _ => True) HostError.OfRequest :=
  nextSequence_ends.bind fun _ _ => (buildPacket_ends hl).bind fun m _ => requestPacket_ends m

theorem ensureAck_ends (r : Packet β) (x : Context) :
    (ensureAck r x).Ends (fun _ => True) (·.isSystemExit = true) := by
  refine Task.Ends.ite (fun _ => ?_)
    fun _ => Task.Ends.ite (fun _ => Task.Ends.raise rfl) fun _ => Task.Ends.raise rfl
  split
  · exact Task.Ends.pure trivial
  · exact Task.Ends.ite (fun _ => Task.Ends.pure trivial) fun _ => Task.Ends.raise rfl

theorem authenticate_ends :
    (authenticate cfg).Ends (fun _ => True) HostError.OfRequest := by
  have hack : ∀ (r : Packet β) x, (ensureAck r x).Ends (fun _ => True) HostError.OfRequest :=
    fun r x => (ensureAck_ends r x).mono (fun _ h => h) fun _ h => .inr h
  rw [authenticate_eq]
  split
  · exact Task.Ends.pure trivial
  refine Task.Ends.read.bind fun t _ =>
    Task.Ends.ite (fun _ => Task.Ends.pure trivial) fun _ => ?_
  refine (Task.Ends.ask _).bind fun nonce _ => ?_
  have hl : nonce.1.length = authNonceSize := nonce.2
  refine (requestUnprotected_ends (by rw [hl]; decide)).bind fun challenge _ => ?_
  refine Task.Ends.ite (fun _ => Task.Ends.raise (.inr rfl)) fun _ => ?_
  refine (hack _ _).bind fun _ _ => Task.Ends.ite (fun _ => Task.Ends.raise (.inr rfl)) fun _ => ?_
  refine (Task.Ends.update _).bind fun _ _ => (requestUnprotected_ends ?_).bind fun response _ =>
    (hack _ _).bind fun _ _ => Task.Ends.update _
  simp [hl, authNonceSize, protocolMaxPayload]

/-- The payload on the link has a tag more where the command is guarded. -/
theorem authenticatedPayload_ends (n : UInt16) :
    (authenticatedPayload cfg c n payload).Ends
      (fun p => p.length = payload.length + if cfg.guards c then 16 else 0)
      HostError.OfRequest := by
  unfold authenticatedPayload
  cases hg : cfg.guards c with
  | false => exact Task.Ends.pure rfl
  | true =>
    refine Task.Ends.read.bind fun t _ => ?_
    split
    · exact Task.Ends.raise (.inr rfl)
    · exact Task.Ends.pure (by simp)

theorem finishRequest_ends (n : UInt16) (r : Packet β) :
    (finishRequest cfg c n r).Ends (fun _ => True) HostError.OfRequest := by
  have hverified : (verifiedResponse c n r).Ends (fun _ => True) HostError.OfRequest := by
    refine Task.Ends.read.bind fun t _ => ?_
    split
    · exact Task.Ends.raise (.inr rfl)
    · exact Task.Ends.ite (fun _ => Task.Ends.raise (.inr rfl)) fun _ =>
        Task.Ends.ite (fun _ => Task.Ends.raise (.inr rfl)) fun _ => Task.Ends.pure trivial
  have hchecked : (checkedResponse cfg c n r).Ends (fun _ => True) HostError.OfRequest :=
    Task.Ends.ite (fun _ => hverified) fun _ => Task.Ends.pure trivial
  exact hchecked.bind fun _ _ => Task.Ends.ite
    (fun _ => (Task.Ends.update _).bind fun _ _ => Task.Ends.pure trivial)
    fun _ => Task.Ends.pure trivial

section Fits
variable (hl : payload.length + (if cfg.guards c then 16 else 0) ≤ protocolMaxPayload)
include hl

theorem requestOnce_ends {again : Option (HostTask β (Packet β))}
    (hagain : ∀ task, again = some task → task.Ends (fun _ => True) HostError.OfRequest) :
    (requestOnce cfg c payload again).Ends (fun _ => True) HostError.OfRequest := by
  refine nextSequence_ends.bind fun n _ => (authenticatedPayload_ends n).bind fun p hp => ?_
  refine (buildPacket_ends (hp ▸ hl)).bind fun m _ => (requestPacket_ends m).bind fun r _ => ?_
  cases again with
  | none => exact finishRequest_ends n r
  | some task => exact Task.Ends.ite (fun _ => hagain task rfl) fun _ => finishRequest_ends n r

theorem request_ends : (request cfg c payload).Ends (fun _ => True) HostError.OfRequest := by
  have hfirst : (authenticateFor cfg c).Ends (fun _ => True) HostError.OfRequest :=
    Task.Ends.ite (fun _ => authenticate_ends) fun _ => Task.Ends.pure trivial
  refine hfirst.bind fun _ _ => requestOnce_ends hl ?_
  rintro task ⟨⟩
  exact (Task.Ends.update _).bind fun _ _ => authenticate_ends.bind fun _ _ =>
    requestOnce_ends hl fun _ h => by cases h

/-- A timeout is reported as a failure of the command. -/
theorem runCommand_ends (x : Context) :
    (runCommand cfg c payload x).Ends (fun _ => True) (·.isSystemExit = true) := by
  refine ((request_ends hl).handle fun e he => ?_).bind fun r _ => ensureAck_ends r x
  rcases he with rfl | he
  · exact Task.Ends.raise rfl
  · cases e <;> first | exact Task.Ends.raise rfl | cases he

end Fits

omit [Alphabet β] in
theorem fits_of_le (h : payload.length ≤ 1008) :
    payload.length + (if cfg.guards c then 16 else 0) ≤ protocolMaxPayload := by
  rw [protocolMaxPayload]
  split <;> omega

/-- The beginning of an update, of a file whose size need not fit the header. -/
theorem runUpdateBegin_ends (f : List β) : (runUpdateBegin cfg f).Ends
    (fun _ => f.length ≤ 0xFFFFFFFF)
    (fun e => e.isSystemExit = true ∨ e = .valueError ∧ 0xFFFFFFFF < f.length) := by
  refine Task.Ends.ite (fun _ => Task.Ends.raise (.inl rfl)) fun hmin => ?_
  have hpayload : (buildOtaBeginPayload f.length (f.drop (f.length - 32))).Ends
      (fun p => f.length ≤ 0xFFFFFFFF ∧ p.length = 36)
      (fun e => e.isSystemExit = true ∨ e = .valueError ∧ 0xFFFFFFFF < f.length) := by
    refine Task.Ends.ite (fun h => Task.Ends.raise (.inr ⟨rfl, ?_⟩)) fun h => Task.Ends.pure ?_
    · rw [List.length_drop] at h
      omega
    · rw [not_or, Decidable.not_not, Decidable.not_not] at h
      exact ⟨h.1.2, by rw [List.length_append, length_le32, h.2]⟩
  refine hpayload.bind fun p hp => ?_
  exact (runCommand_ends (fits_of_le (by omega)) _).mono (fun _ _ => hp.1) fun _ h => .inl h

/-- An exception that neither the client nor the shell handles, where these files are. -/
def ShellError.EscapesLine (files : String → Option (File β)) : ShellError → Prop
  | .infoRaised i => i.isProtocolError = false
  | .os => ∃ path file a, files path = some file ∧ file.fails a = true
  -- The size does not fit the header.
  | .client .valueError => ∃ path file, files path = some file ∧ 0xFFFFFFFF < file.content.length
  | _ => False

/-- An exception of a command. -/
def ShellError.OfLine (files : String → Option (File β)) (e : ShellError) : Prop :=
  e.isSystemExit = true ∨ e.EscapesLine files

section Files
variable {files : String → Option (File β)}

omit [Alphabet β] in
theorem client_ends {α : Type} {x : HostTask β α} {Ok : α → Prop}
    (h : x.Ends Ok (·.isSystemExit = true)) :
    (ShellTask.client x).Ends Ok (ShellError.OfLine files) :=
  h.recover fun _ he => Task.Ends.raise (.inl he)

theorem runInfo_ends : (runInfo cfg).Ends (fun _ => True) (ShellError.OfLine files) := by
  refine Task.Ends.bind (show Task.Ends _ (fun _ => True) _ from ?_) fun packet _ => ?_
  · refine (request_ends (fits_of_le (by simp))).recover fun e he => ?_
    rcases he with rfl | he
    · exact Task.Ends.raise (.inl rfl)
    · cases e <;> first | exact Task.Ends.raise (.inl rfl) | cases he
  · refine Task.Ends.ite (fun _ => Task.Ends.raise (.inl rfl)) fun _ =>
      Task.Ends.ite (fun _ => Task.Ends.raise (.inl rfl)) fun _ => ?_
    split
    · exact Task.Ends.pure trivial
    · exact Task.Ends.ite (fun _ => Task.Ends.raise (.inl rfl)) fun he =>
        Task.Ends.raise (.inr (by simpa [ShellError.EscapesLine] using he))

section Update
variable {path : String} {file : File β} (hfile : files path = some file)
include hfile

omit [Alphabet β] in
theorem access_ends (a : FileAccess) :
    (file.access a).Ends (fun _ => True) (ShellError.OfLine files) :=
  Task.Ends.ite (fun hfails => Task.Ends.raise (.inr ⟨path, file, a, hfile, hfails⟩))
    fun _ => Task.Ends.pure trivial

omit [Alphabet β] in
theorem firmwareMetadata_ends (again : Bool) :
    (firmwareMetadata file again).Ends (fun _ => True) (ShellError.OfLine files) :=
  (access_ends hfile _).bind fun _ _ =>
    Task.Ends.ite (fun _ => Task.Ends.raise (.inl rfl)) fun _ => access_ends hfile _

theorem shellUpdateBegin_ends : (shellUpdateBegin cfg file).Ends
    (fun _ => file.content.length ≤ 0xFFFFFFFF) (ShellError.OfLine files) := by
  refine (access_ends hfile _).bind fun _ _ => (firmwareMetadata_ends hfile _).bind fun _ _ =>
    (runUpdateBegin_ends file.content).recover fun e he => Task.Ends.raise ?_
  rcases he with he | ⟨rfl, hbig⟩
  · exact .inl he
  · exact .inr ⟨path, file, hfile, hbig⟩

theorem shellUpdateChunks_ends (fuel : ℕ) : ∀ (chunk sent : ℕ) (rest : List β), chunk ≤ sent →
    sent + rest.length ≤ 0xFFFFFFFF →
    (shellUpdateChunks cfg file fuel chunk sent rest).Ends (fun _ => True)
      (ShellError.OfLine files) := by
  induction fuel with
  | zero => exact fun _ _ _ _ _ => Task.Ends.pure trivial
  | succ fuel ih =>
    intro chunk sent rest hchunk hmax
    refine (access_ends hfile _).bind fun _ _ =>
      Task.Ends.ite (fun _ => Task.Ends.pure trivial) fun hne => ?_
    have hpos : 0 < (rest.take (maxOtaChunkDataSize cfg)).length := List.length_pos_iff.mpr hne
    have hsize : (rest.take (maxOtaChunkDataSize cfg)).length ≤ maxOtaChunkDataSize cfg := by simp
    have hrest : (rest.take (maxOtaChunkDataSize cfg)).length +
        (rest.drop (maxOtaChunkDataSize cfg)).length = rest.length := by
      rw [← List.length_append, List.take_append_drop]
    have hroom : maxOtaChunkDataSize cfg + (if cfg.guards .otaData then 16 else 0) = 1016 := by
      simp only [maxOtaChunkDataSize, HostConfig.guards, Command.isProtected, Bool.and_true]
      split <;> rfl
    have hpayload : (buildOtaDataPayload chunk sent (rest.take (maxOtaChunkDataSize cfg))).Ends
        (fun p : List β => p.length = 8 + (rest.take (maxOtaChunkDataSize cfg)).length)
        (·.isSystemExit = true) := by
      refine Task.Ends.ite (fun h => absurd h (by omega)) fun _ =>
        Task.Ends.ite (fun h => absurd h (by omega)) fun _ =>
        Task.Ends.ite (fun h => absurd h (by omega)) fun _ => Task.Ends.pure ?_
      simp only [le32, List.length_append, List.length_cons, List.length_nil]
    refine (client_ends hpayload).bind fun p hp => ?_
    have hfits : p.length + (if cfg.guards .otaData then 16 else 0) ≤ protocolMaxPayload := by
      rw [protocolMaxPayload]
      omega
    exact (client_ends (runCommand_ends hfits _)).bind fun _ _ => ih _ _ _ (by omega) (by omega)

end Update

theorem shellUpdate_ends (arguments : List String) :
    (shellUpdate cfg files arguments).Ends (fun _ => True) (ShellError.OfLine files) := by
  unfold shellUpdate
  split
  swap
  · exact Task.Ends.pure trivial
  split
  · exact Task.Ends.pure trivial
  rename_i file hfile
  refine (access_ends hfile _).bind fun _ _ => (firmwareMetadata_ends hfile _).bind fun _ _ =>
    (shellUpdateBegin_ends hfile).bind fun _ hmax => ?_
  refine (shellUpdateChunks_ends hfile _ 0 0 _ le_rfl (by omega)).bind fun _ _ => ?_
  exact (client_ends (runCommand_ends (fits_of_le (by simp)) _)).bind fun _ _ =>
    Task.Ends.pure trivial

/-- The exceptions that a line lets through. -/
theorem shellLine_ends (command : String) (arguments : List String) :
    (shellLine cfg files command arguments).Ends (fun _ => True)
      (ShellError.EscapesLine files) := by
  have hone : ∀ (c : Command) (x : Context) (o : ShellOutcome β),
      (do ShellTask.client (runCommand cfg c [] x); return o : ShellTask β (ShellOutcome β)).Ends
        (fun _ => True) (ShellError.OfLine files) := fun c x o =>
    (client_ends (runCommand_ends (fits_of_le (by simp)) x)).bind fun _ _ => Task.Ends.pure trivial
  refine Task.Ends.handle (show Task.Ends _ (fun _ => True) (ShellError.OfLine files) from ?_)
    fun e he => ?_
  · unfold shellCommand
    split
    · exact hone _ _ _
    · exact runInfo_ends.bind fun _ _ => Task.Ends.pure trivial
    · exact hone _ _ _
    · exact hone _ _ _
    · exact shellUpdate_ends arguments
    · exact hone _ _ _
    · exact hone _ _ _
    · exact Task.Ends.pure trivial
    · exact Task.Ends.pure trivial
  · exact Task.Ends.ite (fun _ => Task.Ends.pure trivial) fun hs =>
      Task.Ends.raise (he.resolve_left hs)

end Files

/-! ## The loop -/

/-- The line asks for a command. -/
def Line.isCommand (line : Line β) : Bool :=
  match line.words with
  | some (command :: _) => Verb.ofWord? command != some .quit
  | _ => false

/-- Each command line has come to an outcome, up to the one that is carried out and the one that
has ended the shell, by one of these exceptions. -/
def Shell.Survives (sh : Shell β) : Prop :=
  match sh.place with
  | .prompt _ | .left => sh.printed.length = sh.typed.countP Line.isCommand
  | .command _ => sh.printed.length + 1 = sh.typed.countP Line.isCommand
  | .raised e => sh.typed.countP Line.isCommand ≤ sh.printed.length + 1 ∧
      (e = .port ∨ e = .split ∧ (∃ line ∈ sh.typed, line.words = none) ∨
        ∃ line ∈ sh.typed, e.EscapesLine line.files)

/-- The command that is carried out lets only these exceptions through. -/
def Shell.Bounded (sh : Shell β) : Prop :=
  ∀ p, sh.place = .command p → ∃ line ∈ sh.typed, p.Ends fun r => ∀ e, r.1 = .error e →
    e.EscapesLine line.files

section Loop
variable {σ : Type} {E : Env Ask (Answer β) (Packet β) σ} {sh sh' : Shell β} {s s' : σ}

theorem enter_survives {typed : List (Line β)} {printed : List (ShellOutcome β)}
    (h : printed.length = typed.countP Line.isCommand) (line : Line β) (t : HostState β) :
    Shell.Survives ⟨typed ++ [line], printed, line.enter cfg t⟩ ∧
      Shell.Bounded ⟨typed ++ [line], printed, line.enter cfg t⟩ := by
  have hlast : line ∈ typed ++ [line] := List.mem_append_right _ List.mem_cons_self
  refine ⟨?_, fun p hplace => ?_⟩
  · obtain ⟨words, files⟩ := line
    match words with
    | none =>
      refine ⟨?_, .inr (.inl ⟨rfl, _, hlast, rfl⟩)⟩
      simp [Line.isCommand, h]
    | some [] => simp [Shell.Survives, Line.enter, Line.isCommand, h]
    | some (command :: arguments) =>
      by_cases hquit : Verb.ofWord? command = some .quit
      · simp [Shell.Survives, Line.enter, Line.isCommand, hquit, h]
      · simp [Shell.Survives, Line.enter, Line.isCommand, hquit, h]
  · obtain ⟨command, arguments, -, -, rfl⟩ := enter_eq_command hplace
    refine ⟨line, hlast, Prog.Ends.mono ?_ (shellLine_ends command arguments t)⟩
    rintro ⟨_, u⟩ hend e rfl
    exact hend

/-- **One step** of the shell. -/
theorem Shell.Step.survives (h : Shell.Step cfg E (sh, s) (sh', s'))
    (hi : sh.Survives ∧ sh.Bounded) : sh'.Survives ∧ sh'.Bounded := by
  obtain ⟨hsurvives, hbounded⟩ := hi
  cases h with
  | wait => exact ⟨hsurvives, nofun⟩
  | eof => exact ⟨hsurvives, nofun⟩
  | line line => exact enter_survives hsurvives line _
  | work hstep =>
    refine ⟨hsurvives, ?_⟩
    rintro p ⟨⟩
    obtain ⟨line, hline, hend⟩ := hbounded _ rfl
    exact ⟨line, hline, hend.step hstep⟩
  | print =>
    refine ⟨?_, nofun⟩
    simpa [Shell.Survives] using hsurvives
  | escape =>
    obtain ⟨line, hline, hend⟩ := hbounded _ rfl
    exact ⟨⟨hsurvives.ge, .inr (.inr ⟨line, hline, hend _ rfl⟩)⟩, nofun⟩
  | port => exact ⟨⟨hsurvives.ge, .inl rfl⟩, nofun⟩

/-- **What can end the shell.** Whatever the device is and does, and whatever the user types, the
shell of a client with or without a key comes to an outcome for each command line, until it is
left. Only a failure of the port ends it earlier, or a line that `shlex.split` rejects, an access
to a file that fails, a file whose size does not fit the header, or an answer to GET_INFO at which
`parse_info_payload` raises something else than `ProtocolError`. -/
theorem shell_survives {n : UInt16}
    (hr : Relation.ReflTransGen (Shell.Step cfg E) (.opened n, s) (sh, s')) : sh.Survives := by
  suffices ∀ c, Relation.ReflTransGen (Shell.Step cfg E) (.opened n, s) c →
      c.1.Survives ∧ c.1.Bounded from (this _ hr).1
  intro c hc
  induction hc with
  | refl => exact ⟨rfl, nofun⟩
  | tail _ hstep ih => exact hstep.survives ih

end Loop
end Ends

section Runs
variable {σ : Type} {cfg : HostConfig β} {E : Env Ask (Answer β) (Packet β) σ}
  {typed : List (Line β)} {printed : List (ShellOutcome β)} {s s' : σ}

/-- What a command does, the shell does. -/
theorem Shell.reaches_command
    {p p' : Prog Ask (Answer β) (Packet β) (Except ShellError (ShellOutcome β) × HostState β)}
    (h : E.Reaches (p, s) (p', s')) : Relation.ReflTransGen (Shell.Step cfg E)
      (⟨typed, printed, .command p⟩, s) (⟨typed, printed, .command p'⟩, s') := by
  suffices ∀ c, E.Reaches (p, s) c → Relation.ReflTransGen (Shell.Step cfg E)
      (⟨typed, printed, .command p⟩, s) (⟨typed, printed, .command c.1⟩, c.2) from this _ h
  intro c hc
  induction hc with
  | refl => exact .refl
  | tail _ hstep ih => exact ih.tail (.work hstep)

/-- **A file that cannot be looked at ends the shell**: the `OSError` of `is_file` escapes. -/
theorem shell_raises_os {line : Line β} {path : String} {file : File β} {t : HostState β}
    (hwords : line.words = some ["update", path]) (hfile : line.files path = some file)
    (hfails : file.fails (.isFile false) = true) : Relation.ReflTransGen (Shell.Step cfg E)
      (⟨typed, printed, .prompt t⟩, s) (⟨typed ++ [line], printed, .raised .os⟩, s) := by
  have hupdate : shellUpdate cfg line.files [path] t = .ret (.error .os, t) := by
    simp only [shellUpdate, hfile, File.access, hfails, if_true]
    rfl
  have hcommand : shellCommand cfg line.files "update" [path] = shellUpdate cfg line.files [path] :=
    rfl
  have hraised : shellLine cfg line.files "update" [path] t = .ret (.error .os, t) := by
    rw [shellLine, Task.handle, hcommand, hupdate]
    rfl
  have henter : line.enter cfg t = .command (.ret (.error .os, t)) := by
    rw [← hraised, Line.enter, hwords]
    exact if_neg (by decide)
  refine .tail (.single (.line line)) ?_
  rw [henter]
  exact .escape

end Runs

/-! ### An INFO of sixteen octets -/

/-- A platform that describes itself in sixteen octets. -/
def tersePlatform : EspIdf Octet :=
  { sampleEsp with infoPayload := octets (List.replicate 16 0), infoPayload_le := by decide }

/-- A command is over, with this exception. -/
def endedBy {α : Type} (e : ShellError) :
    Prog Ask (Answer β) (Packet β) (Except ShellError α × HostState β) → Bool
  | .ret (.error e', _) => e' == e
  | _ => false

omit [Alphabet β] in
theorem of_endedBy {α : Type} {e : ShellError}
    {p : Prog Ask (Answer β) (Packet β) (Except ShellError α × HostState β)}
    (h : endedBy e p = true) : ∃ t, p = .ret (.error e, t) := by
  unfold endedBy at h
  split at h
  · exact ⟨_, by rw [beq_iff_eq.mp h]⟩
  · cases h

def sampleInfoLine : Line Octet := ⟨some ["info"], fun _ => none⟩

/-- It ends the shell. -/
theorem shell_survives_sixteen : ∃ sh L, Relation.ReflTransGen
    (Shell.Step openHost (fifo (deviceServer false fun _ => true) (Policy.answered openHost)))
    (.opened 0, .quiet ⟨openDevice, []⟩) (sh, L) ∧
    sh.place = .raised (.infoRaised .index) ∧ sh.Survives := by
  obtain ⟨⟨p, L⟩, hr, hp⟩ := exists_reaches_of_play (deviceServer false fun _ => true)
    (Policy.answered openHost) sampleAnswer [.proceed, .deliver tersePlatform, .proceed]
    (shellLine openHost sampleInfoLine.files "info" [] (.opened 0), .quiet ⟨openDevice, []⟩)
    (fun c => endedBy (.infoRaised .index) c.1) (by decide +kernel)
  obtain ⟨t, rfl⟩ := of_endedBy hp
  have hrun := ((Relation.ReflTransGen.single
    (@Shell.Step.line _ _ _ openHost _ [] [] _ _ sampleInfoLine)).trans
    (Shell.reaches_command hr)).tail .escape
  exact ⟨_, L, hrun, rfl, shell_survives hrun⟩

end OtaLink
