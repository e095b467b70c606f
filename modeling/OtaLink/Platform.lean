import OtaLink.Protocol

/-!
# The platform under the component

ESP-IDF is not part of the repository. An `EspIdf` record holds what its calls
answer while one packet is handled; the component makes each call at most once
per packet, so a run with one record per packet covers every behaviour of the
platform. An `Event` is one call or one written frame, with its result.

## Main definitions

* `Partition` — an application partition.
* `EspIdf` — the answers of one packet's calls.
* `Event` — what the component does to the outside.
-/

namespace OtaLink

/-- An application partition, identified by its flash address. -/
structure Partition where
  address : ℕ
  size : ℕ
  deriving DecidableEq, Repr

/-- `esp_ota_handle_t`. -/
abbrev Handle := ℕ

variable {β : Type}

/-- What the platform answers while one packet is handled. An optional result is
`none` where the call returns an error or a null pointer. -/
structure EspIdf (β : Type) where
  /-- `esp_fill_random` of a server nonce. -/
  fillRandom : List β
  length_fillRandom : fillRandom.length = 16
  /-- What `device_info_build_payload` encodes, empty when it returns 0. -/
  infoPayload : List β
  infoPayload_le : infoPayload.length ≤ protocolMaxPayload
  /-- `esp_ota_get_next_update_partition`. -/
  nextUpdatePartition : Option Partition
  /-- `esp_ota_begin`. -/
  otaBegin : Option Handle
  /-- `esp_ota_write` returns `ESP_OK`. -/
  otaWrite : Bool
  /-- `esp_ota_abort` returns `ESP_OK`. -/
  otaAbort : Bool
  /-- `esp_ota_end` returns `ESP_OK`. -/
  otaEnd : Bool
  /-- `esp_partition_get_sha256`. -/
  partitionSha256 : Option (List β)
  /-- `esp_ota_set_boot_partition` returns `ESP_OK`. -/
  setBootPartition : Bool
  /-- `esp_ota_check_rollback_is_possible`. -/
  rollbackIsPossible : Bool
  /-- `esp_ota_mark_app_invalid_rollback_and_reboot` reboots instead of returning an error. -/
  markInvalidReboots : Bool

/-- A platform whose every call succeeds: it offers `partition` and reads back `sha256`. -/
def EspIdf.succeeding [Alphabet β] (partition : Partition) (sha256 : List β) : EspIdf β where
  fillRandom := List.replicate 16 (ofByte 0)
  length_fillRandom := rfl
  infoPayload := [ofByte 1]
  infoPayload_le := by simp [protocolMaxPayload]
  nextUpdatePartition := some partition
  otaBegin := some 1
  otaWrite := true
  otaAbort := true
  otaEnd := true
  partitionSha256 := some sha256
  setBootPartition := true
  rollbackIsPossible := true
  markInvalidReboots := true

/-- A call of the component with its result, a step of the dispatcher, or a packet or
a power cycle that reaches the device. -/
inductive Event (β : Type)
  /-- The parser hands over a decoded packet. -/
  | receive (packet : Packet β)
  /-- The device loses power and starts again. -/
  | reset
  /-- A frame given to the transport. -/
  | send (packet : Packet β)
  /-- The dispatcher has run a protected command on the unwrapped payload. -/
  | operate (command : Command) (sequence : UInt16) (payload : List β) (result : ProtocolError)
  | getNextUpdatePartition (result : Option Partition)
  | otaBegin (partition : Partition) (size : ℕ) (result : Option Handle)
  | otaWrite (handle : Handle) (data : List β) (ok : Bool)
  | otaAbort (handle : Handle) (ok : Bool)
  | otaEnd (handle : Handle) (ok : Bool)
  | partitionGetSha256 (partition : Option Partition) (result : Option (List β))
  | setBootPartition (partition : Option Partition) (ok : Bool)
  | checkRollbackIsPossible (result : Bool)
  | restart
  | markInvalidRollbackAndReboot (reboots : Bool)
  deriving DecidableEq

/-- The device starts again after this event. -/
def Event.reboots : Event β → Bool
  | .restart => true
  | .markInvalidRollbackAndReboot r => r
  | _ => false

/-- The frame this event writes, if it writes one. -/
def Event.sent? : Event β → Option (Packet β)
  | .send packet => some packet
  | _ => none

/-- The frames written among `events`, in order. -/
def sent (events : List (Event β)) : List (Packet β) := events.filterMap Event.sent?

@[simp] theorem sent_nil : sent ([] : List (Event β)) = [] := rfl
@[simp] theorem sent_cons (e : Event β) (events : List (Event β)) :
    sent (e :: events) = e.sent?.toList ++ sent events := by
  cases h : e.sent? <;> simp [sent, h]
@[simp] theorem sent_append (xs ys : List (Event β)) : sent (xs ++ ys) = sent xs ++ sent ys :=
  List.filterMap_append

/-- An event inside an operation: it writes no frame and does not restart the device. -/
def Event.isCall : Event β → Bool
  | .getNextUpdatePartition _ | .otaBegin .. | .otaWrite .. | .otaAbort .. | .otaEnd ..
  | .partitionGetSha256 .. | .setBootPartition .. | .checkRollbackIsPossible _
  | .operate .. => true
  | _ => false

theorem Event.sent?_of_isCall {e : Event β} (h : e.isCall = true) : e.sent? = none := by
  cases e <;> first | rfl | exact absurd h (by simp [Event.isCall])

theorem Event.reboots_of_isCall {e : Event β} (h : e.isCall = true) : e.reboots = false := by
  cases e <;> first | rfl | exact absurd h (by simp [Event.isCall])

theorem sent_of_isCall {events : List (Event β)} (h : ∀ e ∈ events, e.isCall = true) :
    sent events = [] :=
  List.filterMap_eq_nil_iff.mpr fun e he => Event.sent?_of_isCall (h e he)

theorem any_reboots_of_isCall {events : List (Event β)} (h : ∀ e ∈ events, e.isCall = true) :
    events.any Event.reboots = false :=
  List.any_eq_false.mpr fun e he => by simp [Event.reboots_of_isCall (h e he)]

end OtaLink
