import OtaLink.Recovery

/-!
# An attacker on the link

The link belongs to somebody who has seen every packet of the client and of the device, and
who lets either of them receive whatever can be derived from that: packets may be lost,
repeated, delayed, reordered and invented. The device may lose power at any time. Nonces
are new when they are drawn.

A log holds all that has happened, the newest first. The statements about it say which
nonce pairs the device has drawn, which of them the client has proved, which requests the
client has built under a session key, and which responses the device has signed.

## Main definitions

* `Happening`, `Net` — the log, and the device under it.
* `Net.Knows`, `Net.Derives` — what the attacker has seen and what can be made of it.
* `attackerEnv` — the attacker as the environment of the client.
* `Run`, `Moment` — the calls of a client, one after another, and all moments of them.
* `session`, `earlier` — the log since the latest challenge, and until then.
* `Drawn`, `Proved`, `Built`, `Signed`, `Admitted`, `Executed` — what the log says.
-/

namespace OtaLink
open Lib

/-- Something that has happened. -/
inductive Happening (β : Type)
  /-- The client has put a packet on the link. -/
  | built (packet : Packet β)
  /-- The device, in this state, has handled a packet. -/
  | handled (device : Device β) (esp : EspIdf β) (packet : Packet β)
  /-- The device has lost power. -/
  | reset

section Happening
variable {β : Type} [Alphabet β]

/-- The packets everybody can see. -/
def Happening.said : Happening β → List (Packet β)
  | .built packet => [packet]
  | .handled d esp packet => sent (d.step esp packet).2
  | .reset => []

/-- The packet the client has built or the device has handled. -/
def Happening.packet? : Happening β → Option (Packet β)
  | .built packet | .handled _ _ packet => some packet
  | .reset => none

/-- A packet for which the device draws a nonce. -/
def Packet.draws (packet : Packet β) : Bool :=
  packet.version == protocolVersion && packet.isChallenge

/-- The device has no session left of those before: it has drawn a nonce or started again. -/
def Happening.restarts : Happening β → Bool
  | .built _ => false
  | .handled d esp packet => packet.draws || (d.step esp packet).2.any Event.reboots
  | .reset => true

/-- What has happened since the latest challenge or restart of the device. -/
def session (log : List (Happening β)) : List (Happening β) :=
  log.takeWhile fun x => !x.restarts

/-- What has happened until then. -/
def earlier (log : List (Happening β)) : List (Happening β) :=
  log.dropWhile fun x => !x.restarts

theorem session_append_earlier (log : List (Happening β)) : session log ++ earlier log = log :=
  List.takeWhile_append_dropWhile

section Sessions
variable {x : Happening β} {log : List (Happening β)}

theorem session_cons (h : x.restarts = false) : session (x :: log) = x :: session log := by
  simp [session, h]
theorem earlier_cons (h : x.restarts = false) : earlier (x :: log) = earlier log := by
  simp [earlier, h]
theorem earlier_of_restarts (h : x.restarts = true) : earlier (x :: log) = x :: log := by
  simp [earlier, h]

end Sessions

end Happening

/-! ## The link of the attacker -/

/-- The device, and all that has happened, the newest first. -/
structure Net where
  device : Device Octet
  log : List (Happening Octet)

namespace Net

/-- The client puts `packet` on the link. -/
def build (s : Net) (packet : Packet Octet) : Net := { s with log := .built packet :: s.log }

/-- The device handles `packet`. -/
def handle (s : Net) (esp : EspIdf Octet) (packet : Packet Octet) : Net :=
  ⟨(s.device.step esp packet).1, .handled s.device esp packet :: s.log⟩

/-- The device loses power. -/
def reset (s : Net) : Net := ⟨s.device.restarted, .reset :: s.log⟩

/-- An octet of a packet that has been on the link. -/
def Knows (s : Net) (a : Octet) : Prop := ∃ x ∈ s.log, ∃ m ∈ x.said, a ∈ m.payload

/-- The attacker can make `payload`. -/
def Derives (s : Net) (payload : List Octet) : Prop := ∀ a ∈ payload, Sym.Derives s.Knows a

end Net

/-- A text of machine octets. -/
def IsPublic (payload : List Octet) : Prop := ∃ bytes, payload = octets bytes

namespace Net

/-- No challenge of anybody has carried `nonce`. -/
def NewClientNonce (s : Net) (nonce : List Octet) : Prop :=
  ∀ x ∈ s.log, ∀ m, x.packet? = some m → m.isChallenge = true → m.payload ≠ nonce

/-- The device has never drawn `nonce`. -/
def NewServerNonce (s : Net) (nonce : List Octet) : Prop :=
  ∀ d esp m, .handled d esp m ∈ s.log → m.draws = true → esp.fillRandom ≠ nonce

/-- The platform answers with machine octets, and with a new nonce where it draws one. -/
structure Allows (s : Net) (esp : EspIdf Octet) (packet : Packet Octet) : Prop where
  nonce : IsPublic esp.fillRandom
  info : IsPublic esp.infoPayload
  fresh : packet.draws = true → s.NewServerNonce esp.fillRandom

/-- What happens without the client. -/
inductive Rely (s : Net) : Net → Prop
  | handle {esp : EspIdf Octet} {packet : Packet Octet} (h : s.Derives packet.payload)
      (hesp : s.Allows esp packet) : Rely s (s.handle esp packet)
  | reset : Rely s s.reset

end Net

/-- The client among all this: it draws a nonce, which is `new` as far as that is assumed,
everybody sees what it sends, and it receives what the attacker can make, or nothing. -/
def attackerEnv (new : Net → List Octet → Prop) : Env Ask (Answer Octet) (Packet Octet) Net where
  rely := Net.Rely
  ask s
    | .urandom, nonce, s' => IsPublic nonce.1 ∧ new s nonce.1 ∧ s' = s
  send s m s' := s' = s.build m
  recv s accept r s' := s' = s ∧ ∀ m, r = some m → accept m = true ∧ s.Derives m.payload

section Run
variable (new : Net → List Octet → Prop) (cfg : HostConfig Octet) (d₀ : Device Octet)

/-- The calls of a client, one after another, with whatever happens during them and in
between; a call may fail. The attacker may choose the payloads. The number counts the
requests of the client's session. -/
inductive Run : HostState Octet → Net → ℕ → Prop
  | opened (n : UInt16) : Run (.opened n) ⟨d₀, []⟩ 0
  | idle {t : HostState Octet} {s s' : Net} {k : ℕ} (h : Run t s k) (hs : s.Rely s') : Run t s' k
  | authenticated {t t' : HostState Octet} {s s' : Net} {k : ℕ} {r : Except HostError Unit}
      (h : Run t s k) (hr : (attackerEnv new).Reaches (authenticate cfg t, s) (.ret (r, t'), s')) :
      Run t' s' (if t.authenticated then k else 0)
  | requested {t t' : HostState Octet} {s s' : Net} {k : ℕ} {c : Command}
      {payload : List Octet} {r : Except HostError (Packet Octet)} (h : Run t s k)
      (hp : s.Derives payload)
      (hr : (attackerEnv new).Reaches (request cfg c payload t, s) (.ret (r, t'), s')) :
      Run t' s' (if t.authenticated ∧ t'.sessionKey = t.sessionKey then k + 1 else 1)

/-- A moment of a run, between two calls or during one, of which `p` is left. -/
inductive Moment : {α : Type} →
    Prog Ask (Answer Octet) (Packet Octet) (Except HostError α × HostState Octet) → Net → Prop
  | between {t : HostState Octet} {s : Net} {k : ℕ} (h : Run new cfg d₀ t s k) :
      Moment (.ret (.ok (), t)) s
  | authenticating {t : HostState Octet} {s s' : Net} {k : ℕ}
      {p : Prog Ask (Answer Octet) (Packet Octet) (Except HostError Unit × HostState Octet)}
      (h : Run new cfg d₀ t s k)
      (hr : (attackerEnv new).Reaches (authenticate cfg t, s) (p, s')) : Moment p s'
  | requesting {t : HostState Octet} {s s' : Net} {k : ℕ} {c : Command} {payload : List Octet}
      {p : Prog Ask (Answer Octet) (Packet Octet)
        (Except HostError (Packet Octet) × HostState Octet)}
      (h : Run new cfg d₀ t s k) (hp : s.Derives payload)
      (hr : (attackerEnv new).Reaches (request cfg c payload t, s) (p, s')) : Moment p s'

end Run

/-! ## Nonce pairs -/

/-- The nonces of a handshake. -/
@[ext] structure NoncePair (β : Type) where
  client : List β
  server : List β
  length_client : client.length = authNonceSize
  length_server : server.length = authNonceSize

section NoncePair
variable {β : Type} [Alphabet β]

/-- The pair of the device's latest challenge. -/
def AuthState.pair (s : AuthState β) : NoncePair β :=
  ⟨s.clientNonce, s.serverNonce, s.length_clientNonce, s.length_serverNonce⟩

def NoncePair.sessionKey (q : NoncePair β) (psk : List β) : List β :=
  sessionKeyOf psk q.client q.server
def NoncePair.deviceProof (q : NoncePair β) (psk : List β) : List β :=
  deviceProofOf psk q.client q.server
def NoncePair.authProof (q : NoncePair β) (psk : List β) : List β :=
  authProofOf psk q.client q.server

/-- The payload by which the client proves `q`. -/
def NoncePair.proof (q : NoncePair β) (psk : List β) : List β := q.client ++ q.authProof psk

end NoncePair

/-! ## What the log says -/

section Log
variable (log : List (Happening Octet))

/-- The device has drawn the server nonce of `q` for a challenge with its client nonce. -/
def Drawn (q : NoncePair Octet) : Prop :=
  ∃ d esp m, .handled d esp m ∈ log ∧ m.draws = true ∧ m.payload = q.client ∧
    esp.fillRandom = q.server

/-- The client has sent the proof of `q`. -/
def Proved (psk : List Octet) (q : NoncePair Octet) : Prop :=
  ∃ m, .built m ∈ log ∧ m.payload = q.proof psk

/-- The client has built a protected request under `key`. -/
def Built (key : List Octet) (c : Command) (n : UInt16) (payload : List Octet) : Prop :=
  c.isProtected = true ∧ .built (tagged key c n payload) ∈ log

/-- The device has sent a response to command `c` with the tag of `key`. -/
def Signed (key : List Octet) (c : Command) (response : UInt8) (n : UInt16)
    (body : List Octet) : Prop :=
  ∃ d esp m, .handled d esp m ∈ log ∧ ∃ r ∈ sent (d.step esp m).2, r.command = response ∧
    r.sequence = n ∧ r.payload = body ++ responseTag key c.code response n body

/-- The device has accepted the proof of `q`. -/
def Admitted (psk : List Octet) (q : NoncePair Octet) : Prop :=
  ∃ d esp m, .handled d esp m ∈ log ∧ m.payload = q.proof psk ∧
    .send (ackFrame m.sequence) ∈ (d.step esp m).2

/-- While `key` was its session key, the device has accepted this request, reported no error and
made the platform calls of the command. -/
def Executed (key : List Octet) (c : Command) (n : UInt16) (payload : List Octet) : Prop :=
  ∃ d esp, .handled d esp (tagged key c n payload) ∈ log ∧ d.auth.authenticated = true ∧
    d.auth.sessionKey = key ∧
    .operate c n payload .ok ∈ (d.step esp (tagged key c n payload)).2 ∧
    c.CarriedOut d.ota payload (d.step esp (tagged key c n payload)).2

end Log

end OtaLink
