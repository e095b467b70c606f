import OtaLink.Decoders
import OtaLink.Lib.Loop

/-!
# The backlog of the host

`PacketParser.feed` loops until its buffer has nothing more to say. Every pass that goes round
has deleted an octet at least, so the loop ends, and what it leaves behind is short: nothing,
the first half of the magic, or the beginning of one frame that more octets may complete.

## Main definitions

* `PacketParser.feedBody` — one pass of the loop.
* `FrameShape`, `Pending` — a frame but for its checksum, and a proper beginning of one.
* `feed_backlog` — the loop ends, and what it leaves.
-/

namespace OtaLink
open Lib

/-- The octets are laid out as one frame, whatever its checksum. -/
structure FrameShape (f : List UInt8) : Prop where
  magic : f.take 2 = [magic0, magic1]
  length_le : unpackU16 (f.drop 6) ≤ protocolMaxPayload
  length : f.length = frameSize f

/-- The octets are the beginning of a frame: the magic and not yet a header, or a header that
announces a payload which fits and not yet the whole frame. -/
structure Pending (b : List UInt8) : Prop where
  magic : b.take 2 = [magic0, magic1]
  short : b.length < headerSize ∨
    (unpackU16 (b.drop 6) ≤ protocolMaxPayload ∧ b.length < frameSize b)
  completes : ∃ rest, rest ≠ [] ∧ FrameShape (b ++ rest)

/-! ## What can be completed -/

section Completion
variable {b : List UInt8}

/-- A header that announces a payload which fits can be completed. -/
theorem completes_of_header (hmagic : b.take 2 = [magic0, magic1]) (hheader : headerSize ≤ b.length)
    (hlong : unpackU16 (b.drop 6) ≤ protocolMaxPayload) (hlt : b.length < frameSize b) :
    ∃ rest, rest ≠ [] ∧ FrameShape (b ++ rest) := by
  refine ⟨List.replicate (frameSize b - b.length) 0, ?_, ?_, ?_, ?_⟩
  · rw [Ne, List.replicate_eq_nil_iff]
    omega
  · rwa [List.take_append_of_le_length (by simp only [headerSize] at hheader; omega)]
  · rwa [unpackU16_drop_append _ hheader]
  · rw [frameSize_append _ hheader, List.length_append, List.length_replicate]
    omega

/-- A length field whose high octet is zero is small. -/
theorem unpackU16_high_zero {c : List UInt8} (hc : c.length = 7) :
    unpackU16 ((c ++ [0]).drop 6) < 2 ^ 8 := by
  obtain ⟨x, hx⟩ := List.length_eq_one_iff.mp (show (c.drop 6).length = 1 by simp [hc])
  rw [List.drop_append_of_le_length (by omega), hx]
  simpa [unpackU16] using x.toNat_lt

/-- The magic and not yet a header can be completed, first to the header of a short frame. -/
theorem completes_of_short (hmagic : b.take 2 = [magic0, magic1]) (hshort : b.length < headerSize) :
    ∃ rest, rest ≠ [] ∧ FrameShape (b ++ rest) := by
  simp only [headerSize] at hshort
  have htwo : 2 ≤ b.length := by
    have htake := congrArg List.length hmagic
    simp only [List.length_take, List.length_cons, List.length_nil] at htake
    omega
  generalize hpad : List.replicate (7 - b.length) (0 : UInt8) = pad
  have hlen : (b ++ pad).length = 7 := by
    rw [← hpad, List.length_append, List.length_replicate]
    omega
  have hheader : (b ++ pad ++ [0]).length = headerSize := by
    rw [List.length_append, hlen]
    rfl
  have hsmall := unpackU16_high_zero hlen
  have hsize := le_frameSize (b ++ pad ++ [0])
  have hcrc : 0 < crcSize := by decide
  obtain ⟨rest, -, hframe⟩ := completes_of_header (b := b ++ pad ++ [0])
    (by rwa [List.append_assoc, List.take_append_of_le_length htwo]) hheader.ge
    (by simp only [protocolMaxPayload]; omega) (by omega)
  refine ⟨pad ++ [0] ++ rest, by simp, ?_⟩
  simpa only [List.append_assoc] using hframe

theorem Pending.length_lt (h : Pending b) :
    b.length < headerSize + protocolMaxPayload + crcSize := by
  obtain ⟨rest, hne, hframe⟩ := h.completes
  have hlen := hframe.length
  have hle := hframe.length_le
  have hrest := List.length_pos_iff.mpr hne
  rw [List.length_append, frameSize] at hlen
  omega

end Completion

/-! ## What is left -/

/-- What a parser may hold between two chunks. -/
def Retained (b : List UInt8) : Prop := b = [] ∨ b = [magic0] ∨ Pending b

theorem retained_of_wait {b : List UInt8} (h : hostDecoder.judge b = none) : Retained b := by
  rcases wait_cases h with rfl | rfl | ⟨rest, hb, hjudge⟩
  · exact .inl rfl
  · exact .inr (.inl rfl)
  have hmagic : b.take 2 = [magic0, magic1] := by
    rw [hb]
    rfl
  refine .inr (.inr ?_)
  unfold judgeFrame at hjudge
  split at hjudge
  · rename_i hshort
    exact ⟨hmagic, .inl hshort, completes_of_short hmagic hshort⟩
  rename_i hheader
  split at hjudge
  · cases hjudge
  rename_i hlong
  split at hjudge
  · rename_i hlt
    have hlong := not_lt.mp hlong
    exact ⟨hmagic, .inr ⟨hlong, hlt⟩, completes_of_header hmagic (not_lt.mp hheader) hlong hlt⟩
  · split at hjudge <;> cases hjudge

theorem Retained.length_le {b : List UInt8} (h : Retained b) : b.length ≤ 1035 := by
  rcases h with rfl | rfl | h
  · simp
  · simp
  · have hlt := h.length_lt
    simp only [headerSize, protocolMaxPayload, crcSize] at hlt
    omega

/-! ## The loop of `feed` -/

namespace PacketParser

/-- One pass of the loop of `feed`, on the buffer and the packets. -/
def feedBody (s : List UInt8 × List (Packet UInt8)) :
    Pass (List UInt8 × List (Packet UInt8)) (List UInt8 × List (Packet UInt8)) :=
  match turn s.1 with
  | .done buffer => .leave (buffer, s.2)
  | .again buffer packet => .again (buffer, s.2 ++ packet.toList)

/-- What the scanner makes of the buffer, behind the packets there are. -/
def scanned (s : List UInt8 × List (Packet UInt8)) : List UInt8 × List (Packet UInt8) :=
  ((hostDecoder.scan s.1).1, s.2 ++ (hostDecoder.scan s.1).2)

/-- A pass that goes round deletes an octet. -/
theorem feedBody_again {s s' : List UInt8 × List (Packet UInt8)} (h : feedBody s = .again s') :
    scanned s' = scanned s ∧ s'.1.length < s.1.length := by
  have hturn := turn_spec s.1
  rw [feedBody] at h
  cases ht : turn s.1 with
  | done buffer =>
    rw [ht] at h
    cases h
  | again buffer packet =>
    rw [ht] at h hturn
    cases h
    refine ⟨?_, hturn.1⟩
    rw [scanned, scanned, hturn.2, List.append_assoc]

theorem feedBody_leave {s r : List UInt8 × List (Packet UInt8)} (h : feedBody s = .leave r) :
    r = scanned s := by
  have hturn := turn_spec s.1
  rw [feedBody] at h
  cases ht : turn s.1 with
  | done buffer =>
    rw [ht] at h hturn
    cases h
    rw [scanned, show hostDecoder.scan s.1 = (buffer, []) from hturn, List.append_nil]
  | again buffer packet =>
    rw [ht] at h
    cases h

/-- **The loop ends**, with what `feed` returns, after no more passes than there are octets. -/
theorem feed_leaves (buffer data : List UInt8) : ∃ n ≤ (buffer ++ data).length,
    Leaves feedBody (buffer ++ data, []) n (feed buffer data) := by
  obtain ⟨n, r, hn, hr⟩ := exists_leaves (f := fun s => s.1.length)
    (fun _ _ h => (feedBody_again h).2) (buffer ++ data, [])
  have hscan : r = scanned (buffer ++ data, []) := by
    refine hr.post (I := fun s => scanned s = scanned (buffer ++ data, []))
      (fun s s' hs h => (feedBody_again h).1.trans hs)
      (fun s r hs h => (feedBody_leave h).trans hs) rfl
  refine ⟨n, hn, ?_⟩
  rwa [feed_eq_scan, ← show scanned (buffer ++ data, []) = hostDecoder.scan (buffer ++ data) from
    rfl, ← hscan]

theorem retained_feed (buffer data : List UInt8) : Retained (feed buffer data).1 := by
  rw [feed_eq_scan]
  exact retained_of_wait (Scanner.judge_scan _)

/-- **The host makes progress and keeps little.** Whatever it holds and whatever arrives, the
loop of `feed` ends, and leaves nothing, the first half of the magic, or a proper beginning of
one frame: never more than 1035 octets. -/
theorem feed_backlog (buffer data : List UInt8) :
    (∃ n ≤ (buffer ++ data).length,
      Leaves feedBody (buffer ++ data, []) n (feed buffer data)) ∧
    ((feed buffer data).1 = [] ∨ (feed buffer data).1 = [magic0] ∨ Pending (feed buffer data).1) ∧
    (feed buffer data).1.length ≤ 1035 :=
  ⟨feed_leaves buffer data, retained_feed buffer data, (retained_feed buffer data).length_le⟩

/-- However long the stream and wherever it is cut, the backlog is short. -/
theorem length_run_le (pieces : List (List UInt8)) : (run [] pieces).1.length ≤ 1035 := by
  rw [run_eq rfl]
  exact (retained_of_wait (Scanner.judge_scan _)).length_le

end PacketParser
end OtaLink
