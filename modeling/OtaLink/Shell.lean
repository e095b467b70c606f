import OtaLink.Host
import OtaLink.InfoPayload

/-!
# The interactive shell (`cmd_shell`)

The shell keeps one client and runs one command a line. A `SystemExit` of a command is printed
and the shell goes on, any other exception ends it. Files and the port may fail at any access, and
the `OSError` is one of those that nobody handles. What a line comes to is here a value, and what
it prints is left to the reader. The user types one line after another, so he may answer what the
shell has printed.

## Main definitions

* `runInfo`, `shellLine` — the functions of `otalink.py`, and the body of the loop.
* `ShellOutcome` — what a line comes to.
* `Shell`, `Shell.Step` — `cmd_shell`, step by step.
-/

namespace OtaLink
open Lib

variable {β : Type} [Alphabet β]

/-! ## Commands of the shell -/

/-- The exceptions that reach the shell. -/
inductive ShellError
  /-- An exception of the client or of a command that changes the device. -/
  | client (e : HostError)
  /-- `No GET_INFO response from device on ..`. -/
  | infoNoResponse
  /-- `Device rejected GET_INFO: ..`. -/
  | infoRejected
  /-- `Unexpected response command: ..`. -/
  | infoUnexpected
  /-- `Could not parse GET_INFO response: ..`. -/
  | infoUnparsed (e : InfoError)
  /-- An exception of `parse_info_payload` that is no `ProtocolError`. -/
  | infoRaised (e : InfoError)
  /-- `ValueError` of `shlex.split`. -/
  | split
  /-- `OSError` of a file. -/
  | os
  /-- `SerialException`, or another exception of the port. -/
  | port
  deriving DecidableEq

/-- The exception is a `SystemExit`. -/
def HostError.isSystemExit : HostError → Bool
  | .timeout | .packetTooLarge | .valueError => false
  | _ => true

def ShellError.isSystemExit : ShellError → Bool
  | .client e => e.isSystemExit
  | .infoRaised _ | .split | .os | .port => false
  | _ => true

abbrev ShellTask (β α : Type) := Task Ask (Answer β) (Packet β) (HostState β) ShellError α

/-- A command of the client, as the shell runs it. -/
def ShellTask.client {α : Type} (x : HostTask β α) : ShellTask β α :=
  x.recover fun e => Task.raise (.client e)

/-- `run_info` with the response. -/
def readInfo (packet : Packet β) : ShellTask β Info :=
  if packet.command = Command.nack.code then Task.raise .infoRejected
  else if packet.command ≠ Command.info.code then Task.raise .infoUnexpected
  else
    match parseInfoPayload (packet.payload.map toByte) with
    | .ok info => pure info
    | .error e =>
      if e.isProtocolError then Task.raise (.infoUnparsed e) else Task.raise (.infoRaised e)

/-- `run_info`; it returns what it prints. -/
def runInfo (cfg : HostConfig β) : ShellTask β Info := do
  let packet ← (request cfg .getInfo []).recover fun e =>
    match e with
    | .timeout => Task.raise .infoNoResponse
    | e => Task.raise (.client e)
  readInfo packet

/-! ## Files -/

/-- An access of `update` to its file. Up to the first packet each is made twice: by the shell, and
`again` by `run_update_begin`. -/
inductive FileAccess
  | isFile (again : Bool)
  /-- `stat` in `firmware_metadata`. -/
  | stat (again : Bool)
  /-- `open`, `read` and `seek` there. -/
  | contents (again : Bool)
  /-- `read` of a block in `run_update_data`, with `open` before the first. -/
  | block (chunkNumber : ℕ)

/-- A file, which does not change during a command. -/
structure File (β : Type) where
  content : List β
  /-- The accesses that raise `OSError`. -/
  fails : FileAccess → Bool

section Update
variable (cfg : HostConfig β) (file : File β)

omit [Alphabet β] in
def File.access (a : FileAccess) : ShellTask β Unit :=
  if file.fails a then Task.raise .os else pure ()

/-- `firmware_metadata`. -/
def firmwareMetadata (again : Bool) : ShellTask β Unit := do
  file.access (.stat again)
  if file.content.length < 32 then Task.raise (.client .firmwareTooSmall)
  else file.access (.contents again)

/-- `run_update_begin` with its accesses. -/
def shellUpdateBegin : ShellTask β Unit := do
  file.access (.isFile true)
  firmwareMetadata file true
  ShellTask.client (runUpdateBegin cfg file.content)

/-- The loop of `run_update_data` with its accesses, as `sendChunks` is without. -/
def shellUpdateChunks : ℕ → ℕ → ℕ → List β → ShellTask β Unit
  | 0, _, _, _ => pure ()
  | fuel + 1, chunkNumber, sent, rest => do
    file.access (.block chunkNumber)
    let chunk := rest.take (maxOtaChunkDataSize cfg)
    if chunk = [] then pure ()
    else do
      let payload ← ShellTask.client (buildOtaDataPayload chunkNumber sent chunk)
      ShellTask.client (runCommand cfg .otaData payload (.otaData chunkNumber sent))
      shellUpdateChunks fuel (chunkNumber + 1) (sent + chunk.length)
        (rest.drop (maxOtaChunkDataSize cfg))

def shellUpdateData : ShellTask β Unit :=
  shellUpdateChunks cfg file (file.content.length + 1) 0 0 file.content

end Update

/-! ## Lines -/

/-- A line that the user types, and the files there are then. -/
structure Line (β : Type) where
  /-- The words as `shlex.split` finds them, the first of them in lower case, or none where
  `shlex.split` raises `ValueError`. -/
  words : Option (List String)
  /-- None where `is_file` is false. -/
  files : String → Option (File β)

/-- The commands of the shell. -/
inductive Verb
  | quit | ping | info | reboot | rollback | update | finish | abort
  deriving DecidableEq

def Verb.ofWord? (command : String) : Option Verb :=
  if command = "quit" ∨ command = "exit" then some .quit
  else if command = "ping" then some .ping
  else if command = "info" then some .info
  else if command = "reboot" then some .reboot
  else if command = "rollback" then some .rollback
  else if command = "update" then some .update
  else if command = "end" then some .finish
  else if command = "abort" then some .abort
  else none

/-- What a line comes to; each is a text that the shell prints. -/
inductive ShellOutcome (β : Type)
  /-- `Device responded`. -/
  | responded
  | described (info : Info)
  /-- `Reboot requested`. -/
  | rebootRequested
  /-- `Rollback requested`. -/
  | rollbackRequested
  /-- `Run 'reboot' to boot the finalized image.` -/
  | updated (firmware : List β)
  /-- `OTA finalized`. -/
  | finalized
  /-- `OTA aborted`. -/
  | aborted
  /-- `Usage: update <firmware.bin>`. -/
  | usage
  /-- `Firmware file not found: ..`. -/
  | notFound (path : String)
  /-- `Unknown command: ..`. -/
  | unknown (command : String)
  /-- The text of a `SystemExit`. -/
  | failed (e : ShellError)

section Command
variable (cfg : HostConfig β) (files : String → Option (File β))

/-- The `update` of the shell. -/
def shellUpdate (arguments : List String) : ShellTask β (ShellOutcome β) :=
  match arguments with
  | [path] =>
    match files path with
    | none => pure (.notFound path)
    | some file => do
      file.access (.isFile false)
      firmwareMetadata file false
      shellUpdateBegin cfg file
      shellUpdateData cfg file
      ShellTask.client (runUpdateEnd cfg)
      return .updated file.content
  | _ => pure .usage

/-- The body of the `try` for the command of a line. -/
def shellCommand (command : String) (arguments : List String) : ShellTask β (ShellOutcome β) :=
  match Verb.ofWord? command with
  | some .ping => do
    ShellTask.client (runPing cfg)
    return .responded
  | some .info => do
    let info ← runInfo cfg
    return .described info
  | some .reboot => do
    ShellTask.client (runReboot cfg)
    return .rebootRequested
  | some .rollback => do
    ShellTask.client (runRollback cfg)
    return .rollbackRequested
  | some .update => shellUpdate cfg files arguments
  | some .finish => do
    ShellTask.client (runUpdateEnd cfg)
    return .finalized
  | some .abort => do
    ShellTask.client (runAbort cfg)
    return .aborted
  -- `quit` has left the loop before.
  | some .quit | none => pure (.unknown command)

/-- The body of the `try` with its `except SystemExit`. -/
def shellLine (command : String) (arguments : List String) : ShellTask β (ShellOutcome β) :=
  (shellCommand cfg files command arguments).handle fun e =>
    if e.isSystemExit then pure (.failed e) else Task.raise e

end Command

/-! ## The loop -/

/-- Where the shell is. -/
inductive Place (β : Type)
  /-- At the prompt, with this client. -/
  | prompt (t : HostState β)
  /-- In a command. -/
  | command (p : Prog Ask (Answer β) (Packet β) (Except ShellError (ShellOutcome β) × HostState β))
  /-- Behind the loop. -/
  | left
  /-- An exception has ended it. -/
  | raised (e : ShellError)

/-- `cmd_shell`, with what the user has typed and what has been printed. -/
structure Shell (β : Type) where
  typed : List (Line β)
  printed : List (ShellOutcome β)
  place : Place β

def Shell.opened (n : UInt16) : Shell β := ⟨[], [], .prompt (.opened n)⟩

/-- What the shell does about a line. -/
def Line.enter (cfg : HostConfig β) (line : Line β) (t : HostState β) : Place β :=
  match line.words with
  | none => .raised .split
  | some [] => .prompt t
  | some (command :: arguments) =>
    if Verb.ofWord? command = some .quit then .left
    else .command (shellLine cfg line.files command arguments t)

section Enter
variable {cfg : HostConfig β} {line : Line β} {t t' : HostState β}

theorem enter_eq_prompt (h : line.enter cfg t = .prompt t') : t' = t := by
  unfold Line.enter at h
  split at h
  · cases h
  · exact (Place.prompt.inj h).symm
  · split at h <;> cases h

theorem enter_eq_command
    {p : Prog Ask (Answer β) (Packet β) (Except ShellError (ShellOutcome β) × HostState β)}
    (h : line.enter cfg t = .command p) : ∃ command arguments,
    line.words = some (command :: arguments) ∧ Verb.ofWord? command ≠ some .quit ∧
      p = shellLine cfg line.files command arguments t := by
  unfold Line.enter at h
  split at h
  · cases h
  · cases h
  · rename_i command arguments hwords
    split at h
    · cases h
    · exact ⟨command, arguments, hwords, ‹_›, (Place.command.inj h).symm⟩

end Enter

/-- The program writes to the port or reads from it. -/
def usesPort {α : Type} : Prog Ask (Answer β) (Packet β) α → Bool
  | .send _ _ | .recv _ _ => true
  | .ret _ | .ask _ _ => false

/-- One step of `cmd_shell`. -/
inductive Shell.Step {σ : Type} (cfg : HostConfig β) (E : Env Ask (Answer β) (Packet β) σ) :
    Shell β × σ → Shell β × σ → Prop
  /-- The other side goes on while the shell waits for the user. -/
  | wait {typed printed t s s'} (h : E.rely s s') :
      Step cfg E (⟨typed, printed, .prompt t⟩, s) (⟨typed, printed, .prompt t⟩, s')
  /-- `EOFError`. -/
  | eof {typed printed t s} :
      Step cfg E (⟨typed, printed, .prompt t⟩, s) (⟨typed, printed, .left⟩, s)
  | line {typed printed t s} (line : Line β) : Step cfg E (⟨typed, printed, .prompt t⟩, s)
      (⟨typed ++ [line], printed, line.enter cfg t⟩, s)
  | work {typed printed p p' s s'} (h : E.Step (p, s) (p', s')) :
      Step cfg E (⟨typed, printed, .command p⟩, s) (⟨typed, printed, .command p'⟩, s')
  | print {typed printed o t s} : Step cfg E (⟨typed, printed, .command (.ret (.ok o, t))⟩, s)
      (⟨typed, printed ++ [o], .prompt t⟩, s)
  | escape {typed printed e t s} :
      Step cfg E (⟨typed, printed, .command (.ret (.error e, t))⟩, s)
        (⟨typed, printed, .raised e⟩, s)
  /-- The port fails; no handler of the client is for that. -/
  | port {typed printed p s} (hp : usesPort p = true) :
      Step cfg E (⟨typed, printed, .command p⟩, s) (⟨typed, printed, .raised .port⟩, s)

end OtaLink
