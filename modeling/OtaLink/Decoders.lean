import Mathlib.Data.List.GetD
import OtaLink.Framing

/-!
# The two stream decoders

Both decoders are scanners of one kind: they drop what cannot begin a frame, wait for a
frame to be complete, and drop it whether or not its checksum is right. They differ in one
number: how many octets an over-long header costs, all eight of it on the device and the
magic alone on the host.

## Main definitions

* `judge`, `decoder` — the scanner, with the cost of an over-long header as a parameter.
* `protocolParserRun_eq`, `PacketParser.run_eq` — the two decoders are such scanners.
* `framing_round_trip` — both read back what either encoder wrote, through noise.
* `NoHiddenMagic`, `decoders_agree` — when the two decoders agree.
-/

namespace OtaLink
open Lib

/-! ## The scanner -/

/-- The size a complete header announces for its frame. -/
def frameSize (b : List UInt8) : ℕ := headerSize + unpackU16 (b.drop 6) + crcSize

/-- The packet in a complete frame. -/
def framePacket (b : List UInt8) : Packet UInt8 where
  version := b.getD 2 0
  command := b.getD 3 0
  sequence := UInt16.ofNat (unpackU16 (b.drop 4))
  payload := (b.drop headerSize).take (unpackU16 (b.drop 6))

/-- The checksum of a complete frame is right. -/
def FrameOk (b : List UInt8) : Prop :=
  zlibCrc32 ((b.drop 2).take (headerSize - 2 + unpackU16 (b.drop 6))) =
    unpackU32 (b.drop (headerSize + unpackU16 (b.drop 6)))

instance (b : List UInt8) : Decidable (FrameOk b) := inferInstanceAs (Decidable (_ = _))

/-- What a buffer that begins with the magic says. -/
def judgeFrame (skip : ℕ) (b : List UInt8) : Option (ℕ × Option (Packet UInt8)) :=
  if b.length < headerSize then none
  else if protocolMaxPayload < unpackU16 (b.drop 6) then some (skip, none)
  else if b.length < frameSize b then none
  else if FrameOk b then some (frameSize b, some (framePacket b))
  else some (frameSize b, none)

/-- What a buffer says. -/
def judge (skip : ℕ) : List UInt8 → Option (ℕ × Option (Packet UInt8))
  | [] => none
  | [b₀] => if b₀ = magic0 then none else some (1, none)
  | b₀ :: b₁ :: rest =>
    if b₀ = magic0 ∧ b₁ = magic1 then judgeFrame skip (b₀ :: b₁ :: rest) else some (1, none)

theorem unpackU16_append {xs : List UInt8} (h : 2 ≤ xs.length) (t : List UInt8) :
    unpackU16 (xs ++ t) = unpackU16 xs := by
  rcases xs with _ | ⟨b₀, _ | ⟨b₁, rest⟩⟩
  · simp at h
  · simp at h
  · rfl

theorem unpackU32_append {xs : List UInt8} (h : 4 ≤ xs.length) (t : List UInt8) :
    unpackU32 (xs ++ t) = unpackU32 xs := by
  rcases xs with _ | ⟨b₀, _ | ⟨b₁, _ | ⟨b₂, _ | ⟨b₃, rest⟩⟩⟩⟩
  · simp at h
  · simp at h
  · simp at h
  · simp at h
  · rfl

theorem le_frameSize (b : List UInt8) : headerSize + crcSize ≤ frameSize b := by
  unfold frameSize
  omega

section Stable
variable {b : List UInt8} (t : List UInt8)

theorem unpackU16_drop_append {i : ℕ} (h : i + 2 ≤ b.length) :
    unpackU16 ((b ++ t).drop i) = unpackU16 (b.drop i) := by
  rw [List.drop_append_of_le_length (by omega),
    unpackU16_append (by rw [List.length_drop]; omega)]

theorem frameSize_append (h : headerSize ≤ b.length) : frameSize (b ++ t) = frameSize b := by
  rw [frameSize, frameSize, unpackU16_drop_append t h]

theorem framePacket_append (h : headerSize ≤ b.length) (hsize : frameSize b ≤ b.length) :
    framePacket (b ++ t) = framePacket b := by
  simp only [frameSize, headerSize, crcSize] at h hsize
  simp only [framePacket, headerSize, unpackU16_drop_append t h,
    unpackU16_drop_append t (show 4 + 2 ≤ b.length by omega),
    List.getD_append _ _ _ _ (show 2 < b.length by omega),
    List.getD_append _ _ _ _ (show 3 < b.length by omega)]
  rw [List.drop_append_of_le_length (by omega),
    List.take_append_of_le_length (by rw [List.length_drop]; omega)]

theorem frameOk_append (h : headerSize ≤ b.length) (hsize : frameSize b ≤ b.length) :
    FrameOk (b ++ t) ↔ FrameOk b := by
  simp only [frameSize, headerSize, crcSize] at h hsize
  simp only [FrameOk, headerSize, unpackU16_drop_append t h]
  rw [List.drop_append_of_le_length (by omega), List.drop_append_of_le_length (by omega),
    List.take_append_of_le_length (by rw [List.length_drop]; omega),
    unpackU32_append (by rw [List.length_drop]; omega)]

/-- The octets of the frame alone say what the frame is. -/
theorem framePacket_take (hsize : frameSize b ≤ b.length) :
    framePacket b = {
      version := (b.take (frameSize b)).getD 2 0
      command := (b.take (frameSize b)).getD 3 0
      sequence := UInt16.ofNat (unpackU16 ((b.take (frameSize b)).drop 4))
      payload := ((b.take (frameSize b)).drop headerSize).take (unpackU16 (b.drop 6)) } := by
  have hle := le_frameSize b
  have hheader : headerSize ≤ (b.take (frameSize b)).length := by
    rw [List.length_take]
    omega
  have hlen : unpackU16 ((b.take (frameSize b)).drop 6) = unpackU16 (b.drop 6) := by
    rw [← unpackU16_drop_append (b.drop (frameSize b)) hheader, List.take_append_drop]
  have hframe : frameSize (b.take (frameSize b)) = frameSize b := by
    rw [frameSize, hlen]
    rfl
  have happ := framePacket_append (b := b.take (frameSize b)) (b.drop (frameSize b)) hheader
    (by rw [hframe, List.length_take]; omega)
  rw [List.take_append_drop] at happ
  rw [happ, framePacket, hlen]

theorem unpackU32_take (xs : List UInt8) : unpackU32 (xs.take 4) = unpackU32 xs := by
  rcases xs with _ | ⟨b₀, _ | ⟨b₁, _ | ⟨b₂, _ | ⟨b₃, rest⟩⟩⟩⟩ <;> rfl

theorem frameOk_take :
    FrameOk b ↔ zlibCrc32 (((b.take (frameSize b)).take (frameSize b - crcSize)).drop 2) =
      unpackU32 ((b.take (frameSize b)).drop (frameSize b - crcSize)) := by
  have hcrc : frameSize b - crcSize = headerSize + unpackU16 (b.drop 6) := Nat.add_sub_cancel ..
  have hbody : headerSize + unpackU16 (b.drop 6) - 2 = headerSize - 2 + unpackU16 (b.drop 6) := by
    simp only [headerSize]
    omega
  rw [hcrc, List.take_take, List.drop_take, List.drop_take,
    min_eq_left (by unfold frameSize; omega),
    hbody, show frameSize b - (headerSize + unpackU16 (b.drop 6)) = 4 by
      unfold frameSize crcSize; omega, unpackU32_take]
  rfl

theorem judgeFrame_append {skip : ℕ} {v : ℕ × Option (Packet UInt8)}
    (hv : judgeFrame skip b = some v) : judgeFrame skip (b ++ t) = some v := by
  unfold judgeFrame at hv ⊢
  split at hv
  · cases hv
  rename_i hshort
  have hheader : headerSize ≤ b.length := not_lt.mp hshort
  rw [if_neg (by rw [List.length_append]; omega), unpackU16_drop_append t hheader]
  split at hv
  · rename_i hlong
    rwa [if_pos hlong]
  rename_i hlong
  rw [if_neg hlong, frameSize_append t hheader]
  split at hv
  · cases hv
  rename_i hsize
  simp only [frameOk_append t hheader (not_lt.mp hsize),
    framePacket_append t hheader (not_lt.mp hsize)]
  rwa [if_neg (by rw [List.length_append]; omega)]

end Stable

/-- A frame is dropped with an over-long header, or whole. -/
theorem judgeFrame_cases {skip n : ℕ} {b : List UInt8} {p : Option (Packet UInt8)}
    (h : judgeFrame skip b = some (n, p)) :
    headerSize ≤ b.length ∧
      ((protocolMaxPayload < unpackU16 (b.drop 6) ∧ n = skip ∧ p = none) ∨
        (unpackU16 (b.drop 6) ≤ protocolMaxPayload ∧ frameSize b ≤ b.length ∧
          n = frameSize b)) := by
  unfold judgeFrame at h
  split at h
  · cases h
  rename_i hshort
  refine ⟨not_lt.mp hshort, ?_⟩
  split at h
  · rename_i hlong
    cases h
    exact .inl ⟨hlong, rfl, rfl⟩
  rename_i hlong
  split at h
  · cases h
  rename_i hsize
  have hn : n = frameSize b := by split at h <;> cases h <;> rfl
  exact .inr ⟨not_lt.mp hlong, not_lt.mp hsize, hn⟩

theorem judgeFrame_bound {skip n : ℕ} {b : List UInt8} {p : Option (Packet UInt8)}
    (h₀ : 0 < skip) (h₈ : skip ≤ headerSize) (h : judgeFrame skip b = some (n, p)) :
    0 < n ∧ n ≤ b.length := by
  have hsize := le_frameSize b
  have hpos : 0 < headerSize := by decide
  rcases judgeFrame_cases h with ⟨hheader, ⟨-, rfl, -⟩ | ⟨-, hle, rfl⟩⟩ <;> omega

/-- The scanner that drops `skip` octets of an over-long header. -/
def decoder (skip : ℕ) (h₀ : 0 < skip) (h₈ : skip ≤ headerSize) :
    Scanner UInt8 (Packet UInt8) where
  judge := judge skip
  bound := by
    intro b n p h
    rcases b with _ | ⟨b₀, _ | ⟨b₁, rest⟩⟩
    · cases h
    · simp only [judge] at h
      split at h <;> cases h
      simp
    · simp only [judge] at h
      split at h
      · exact judgeFrame_bound h₀ h₈ h
      · cases h
        simp
  stable := by
    intro b v t h
    rcases b with _ | ⟨b₀, _ | ⟨b₁, rest⟩⟩
    · cases h
    · simp only [judge] at h
      split at h
      · cases h
      rename_i hb₀
      rcases t with _ | ⟨b₁, t⟩
      · simpa only [List.append_nil, judge, if_neg hb₀] using h
      · simpa only [List.cons_append, List.nil_append, judge, hb₀, false_and, if_false] using h
    · simp only [judge, List.cons_append] at h ⊢
      split at h
      · rename_i hmagic
        rw [if_pos hmagic]
        exact judgeFrame_append t h
      · rename_i hmagic
        rwa [if_neg hmagic]

/-! ## What the scanner drops and what it reads -/

section Scan
variable {skip : ℕ} {h₀ : 0 < skip} {h₈ : skip ≤ headerSize}

@[simp] theorem scan_nil : (decoder skip h₀ h₈).scan [] = ([], []) :=
  Scanner.scan_of_wait rfl

theorem scan_magic0 : (decoder skip h₀ h₈).scan [magic0] = ([magic0], []) :=
  Scanner.scan_of_wait (by simp [decoder, judge])

theorem scan_singleton {b : UInt8} (h : b ≠ magic0) :
    (decoder skip h₀ h₈).scan [b] = ([], []) := by
  rw [Scanner.scan_of_drop (n := 1) (p := none) (by simp [decoder, judge, h])]
  simp

theorem scan_cons_cons {b₀ b₁ : UInt8} (rest : List UInt8) (h : ¬ (b₀ = magic0 ∧ b₁ = magic1)) :
    (decoder skip h₀ h₈).scan (b₀ :: b₁ :: rest) = (decoder skip h₀ h₈).scan (b₁ :: rest) := by
  rw [Scanner.scan_of_drop (n := 1) (p := none) (by simp only [decoder, judge, if_neg h])]
  simp

theorem judge_magic (rest : List UInt8) :
    (decoder skip h₀ h₈).judge (magic0 :: magic1 :: rest) =
      judgeFrame skip (magic0 :: magic1 :: rest) := by
  simp [decoder, judge]

/-- A buffer the scanner waits on begins with the magic, or with the first half of it at
its end. -/
theorem wait_cases {b : List UInt8} (h : (decoder skip h₀ h₈).judge b = none) :
    b = [] ∨ b = [magic0] ∨ ∃ rest, b = magic0 :: magic1 :: rest ∧ judgeFrame skip b = none := by
  rcases b with _ | ⟨b₀, _ | ⟨b₁, rest⟩⟩
  · exact .inl rfl
  · simp only [decoder, judge] at h
    split at h
    · rename_i hb₀
      exact .inr (.inl (by rw [hb₀]))
    · cases h
  · simp only [decoder, judge] at h
    split at h
    · rename_i hmagic
      obtain ⟨rfl, rfl⟩ := hmagic
      exact .inr (.inr ⟨rest, rfl, h⟩)
    · cases h

/-- Octets without the magic are dropped, but for the first half of it at the end. -/
theorem scan_noise {b : List UInt8} (h : PacketParser.findMagic b = none) :
    (decoder skip h₀ h₈).scan b = (PacketParser.keepPossiblePartialMagic b, []) := by
  induction b with
  | nil => rw [scan_nil]; rfl
  | cons b₀ rest ih =>
    rcases rest with _ | ⟨b₁, rest⟩
    · by_cases hb₀ : b₀ = magic0
      · rw [hb₀, scan_magic0]; rfl
      · rw [scan_singleton hb₀]
        simp [PacketParser.keepPossiblePartialMagic, hb₀]
    · simp only [PacketParser.findMagic] at h
      split at h
      · cases h
      rename_i hmagic
      rw [scan_cons_cons rest hmagic, ih (Option.map_eq_none_iff.mp h)]
      simp [PacketParser.keepPossiblePartialMagic]

/-- What precedes the first magic is dropped. -/
theorem scan_findMagic {b : List UInt8} {i : ℕ} (h : PacketParser.findMagic b = some i) :
    (decoder skip h₀ h₈).scan b = (decoder skip h₀ h₈).scan (b.drop i) ∧
      ∃ rest, b.drop i = magic0 :: magic1 :: rest := by
  induction b generalizing i with
  | nil => cases h
  | cons b₀ rest ih =>
    rcases rest with _ | ⟨b₁, rest⟩
    · cases h
    · simp only [PacketParser.findMagic] at h
      split at h
      · rename_i hmagic
        cases h
        exact ⟨rfl, rest, by rw [hmagic.1, hmagic.2]; rfl⟩
      · rename_i hmagic
        obtain ⟨j, hj, rfl⟩ := Option.map_eq_some_iff.mp h
        rw [scan_cons_cons rest hmagic, List.drop_succ_cons]
        exact ih hj

/-- A buffer too short for a frame hands on nothing. -/
theorem scan_short {b : List UInt8} (h : b.length < headerSize + crcSize) :
    ((decoder skip h₀ h₈).scan b).2 = [] := by
  induction b using Scanner.scan_induction (S := decoder skip h₀ h₈) with
  | wait b hb => rw [Scanner.scan_of_wait hb]
  | drop b n p hb ih =>
    have hp : p = none := by
      rcases b with _ | ⟨b₀, _ | ⟨b₁, rest⟩⟩
      · cases hb
      · simp only [decoder, judge] at hb
        split at hb <;> cases hb
        rfl
      · simp only [decoder, judge] at hb
        split at hb
        · have hsize := le_frameSize (b₀ :: b₁ :: rest)
          rcases judgeFrame_cases hb with ⟨-, ⟨-, -, hp⟩ | ⟨-, hle, -⟩⟩
          · exact hp
          · omega
        · cases hb
          rfl
    rw [Scanner.scan_of_drop hb, hp, ih (by rw [List.length_drop]; omega)]
    rfl

end Scan

/-! ## The decoder of the device -/

/-- A complete header that announces more than the largest payload. -/
def Overlong (header : List UInt8) : Prop :=
  header.length = headerSize ∧ protocolMaxPayload < unpackU16 (header.drop 6)

instance (header : List UInt8) : Decidable (Overlong header) :=
  inferInstanceAs (Decidable (_ ∧ _))

/-- Inside a frame the parser says what the scanner says, and drops all it holds. -/
theorem protocolParserFeed_frame {b : List UInt8} {x : UInt8} (hb : b ≠ [])
    (hx : b.length = 1 → x = magic1) :
    protocolParserFeed b x = match judgeFrame headerSize (b ++ [x]) with
      | none => (b ++ [x], none)
      | some (_, p) => ([], p) := by
  have hlen : b.length ≠ 0 := fun h => hb (List.length_eq_zero_iff.mp h)
  have hcrc : ∀ xs ys : List UInt8, protocolCrc32 xs ≠ readLe32 ys ↔
      ¬ zlibCrc32 xs = unpackU32 ys := fun xs ys => by
    rw [← protocolCrc32_eq, ← toNat_readLe32, UInt32.toNat_inj]
  rw [protocolParserFeed, if_neg (fun h => hlen h.1), if_neg (fun h => h.2 (hx h.1)), judgeFrame]
  generalize b ++ [x] = c
  have hseq : readLe16 (c.drop 4) = UInt16.ofNat (unpackU16 (c.drop 4)) := by
    rw [← toNat_readLe16, UInt16.ofNat_toNat]
  simp only [hcrc, hseq, toNat_readLe16]
  split
  · rfl
  split
  · rfl
  by_cases hsize : c.length < headerSize + unpackU16 (c.drop 6) + crcSize
  · rw [if_pos hsize, if_pos (show c.length < frameSize c from hsize)]
  rw [if_neg hsize, if_neg (show ¬ c.length < frameSize c from hsize)]
  by_cases hok : zlibCrc32 ((c.drop 2).take (headerSize - 2 + unpackU16 (c.drop 6))) =
      unpackU32 (c.drop (headerSize + unpackU16 (c.drop 6)))
  · rw [if_neg (not_not.mpr hok), if_pos (show FrameOk c from hok)]
    rfl
  · rw [if_pos hok, if_neg (show ¬ FrameOk c from hok)]

section Feed
variable {skip : ℕ} {h₀ : 0 < skip} {h₈ : skip ≤ headerSize}

/-- A frame is judged when its last octet arrives. -/
theorem judgeFrame_exact {b : List UInt8} {x : UInt8} {n : ℕ} {p : Option (Packet UInt8)}
    (hb : judgeFrame skip b = none) (h : judgeFrame skip (b ++ [x]) = some (n, p)) :
    (Overlong (b ++ [x]) ∧ n = skip ∧ p = none) ∨ n = (b ++ [x]).length := by
  have hlen : (b ++ [x]).length = b.length + 1 := by simp
  obtain ⟨hheader, hcases⟩ := judgeFrame_cases h
  unfold judgeFrame at hb
  by_cases hshort : b.length < headerSize
  · -- The octet completes the header.
    rcases hcases with ⟨hlong, rfl, rfl⟩ | ⟨-, hsize, rfl⟩
    · exact .inl ⟨⟨by omega, hlong⟩, rfl, rfl⟩
    · have := le_frameSize (b ++ [x])
      have : 0 < crcSize := by decide
      omega
  · -- The header was complete, so the octet completes the frame it announces.
    rw [if_neg hshort] at hb
    rw [unpackU16_drop_append [x] (not_lt.mp hshort), frameSize_append [x] (not_lt.mp hshort)]
      at hcases
    split at hb
    · cases hb
    rename_i hlong
    split at hb
    · rename_i hsize
      rcases hcases with ⟨hlong', -, -⟩ | ⟨-, hsize', rfl⟩
      · exact absurd hlong' hlong
      · exact .inr (by omega)
    · split at hb <;> cases hb

/-- Unless the octet completes an over-long header, all scanners judge it alike. -/
theorem judgeFrame_congr {b : List UInt8} {x : UInt8} (h₈ : skip ≤ headerSize)
    (hb : judgeFrame skip b = none) (hskip : skip = headerSize ∨ ¬ Overlong (b ++ [x])) :
    judgeFrame skip (b ++ [x]) = judgeFrame headerSize (b ++ [x]) := by
  rcases hskip with rfl | hshort
  · rfl
  unfold judgeFrame
  split
  · rfl
  rename_i hheader
  split
  · rename_i hlong
    have hjudge : judgeFrame skip (b ++ [x]) = some (skip, none) := by
      rw [judgeFrame, if_neg hheader, if_pos hlong]
    rcases judgeFrame_exact hb hjudge with ⟨hover, -⟩ | hlen
    · exact absurd hover hshort
    · exact absurd ⟨by omega, hlong⟩ hshort
  · rfl

/-- **One octet makes the parser take one step of the scanner**, unless it completes an
over-long header of which the scanner keeps a part. -/
theorem scan_feed {b : List UInt8} {x : UInt8} (hb : (decoder skip h₀ h₈).judge b = none)
    (hskip : skip = headerSize ∨ ¬ Overlong (b ++ [x])) :
    (decoder skip h₀ h₈).scan (b ++ [x]) =
      ((protocolParserFeed b x).1, (protocolParserFeed b x).2.toList) := by
  rcases wait_cases hb with rfl | rfl | ⟨rest, rfl, hwait⟩
  · -- Between frames.
    by_cases hx : x = magic0
    · subst hx
      exact scan_magic0
    · rw [List.nil_append, scan_singleton hx]
      simp [protocolParserFeed, hx]
  · by_cases hx : x = magic1
    · subst hx
      exact Scanner.scan_of_wait (by rw [List.singleton_append, judge_magic]; rfl)
    · rw [List.singleton_append, scan_cons_cons _ (fun h => hx h.2)]
      by_cases hx₀ : x = magic0
      · rw [hx₀, scan_magic0]
        rfl
      · rw [scan_singleton hx₀]
        simp [protocolParserFeed, hx, hx₀]
  · -- Inside a frame: the verdict drops all there is.
    generalize hc : magic0 :: magic1 :: rest = b at hb hwait hskip ⊢
    have hjudge : (decoder skip h₀ h₈).judge (b ++ [x]) = judgeFrame skip (b ++ [x]) := by
      rw [← hc, List.cons_append, List.cons_append, judge_magic]
    have hne : b ≠ [] := by simp [← hc]
    have hlen : b.length = 1 → x = magic1 := by simp [← hc]
    rw [protocolParserFeed_frame hne hlen, ← judgeFrame_congr h₈ hwait hskip]
    rcases hv : judgeFrame skip (b ++ [x]) with _ | ⟨n, p⟩
    · rw [Scanner.scan_of_wait (hjudge.trans hv)]
      rfl
    · have hn : n = (b ++ [x]).length := by
        rcases judgeFrame_exact hwait hv with ⟨hover, rfl, -⟩ | hn
        · exact (hskip.resolve_right (not_not.mpr hover)).trans hover.1.symm
        · exact hn
      rw [Scanner.scan_of_drop (hjudge.trans hv), hn, List.drop_length, scan_nil, List.append_nil]

end Feed

/-- The scanner of the device. -/
abbrev deviceDecoder : Scanner UInt8 (Packet UInt8) :=
  decoder headerSize (by decide) le_rfl

/-- The scanner of the host. -/
abbrev hostDecoder : Scanner UInt8 (Packet UInt8) := decoder 2 (by decide) (by decide)

/-- What the parser holds after the octet is again something it waits on. -/
theorem judge_protocolParserFeed {b : List UInt8} (hb : deviceDecoder.judge b = none) (x : UInt8) :
    deviceDecoder.judge (protocolParserFeed b x).1 = none := by
  have h := Scanner.judge_scan (S := deviceDecoder) (b ++ [x])
  rwa [scan_feed hb (.inl rfl)] at h

/-- **Fed octet by octet, the parser of the device is the scanner of the device.** -/
theorem protocolParserRun_eq {b : List UInt8} (hb : deviceDecoder.judge b = none)
    (bytes : List UInt8) : protocolParserRun b bytes = deviceDecoder.scan (b ++ bytes) := by
  induction bytes generalizing b with
  | nil => rw [List.append_nil, Scanner.scan_of_wait hb]; rfl
  | cons x bytes ih =>
    rw [protocolParserRun, ih (judge_protocolParserFeed hb x), List.append_cons,
      Scanner.scan_append (b ++ [x]), scan_feed hb (.inl rfl)]

/-! ## The decoder of the host -/

namespace PacketParser

/-- What a turn does with a buffer that begins with the magic. -/
def turnFrame (buffer : List UInt8) : Turn :=
  match judgeFrame 2 buffer with
  | none => .done buffer
  | some (n, p) => .again (buffer.drop n) p

/-- The turn reads the frame it cuts off as the scanner reads it in the buffer. -/
theorem turn_of_findMagic {b : List UInt8} {i : ℕ} (h : findMagic b = some i) :
    turn b = turnFrame (b.drop i) := by
  obtain ⟨-, rest, hrest⟩ := @scan_findMagic 2 (by decide) (by decide) b i h
  rw [turn, h, turnFrame, judgeFrame]
  simp only
  have hmagic : (b.drop i).take 2 = [magic0, magic1] := by rw [hrest]; rfl
  generalize b.drop i = c at hmagic ⊢
  have hframe : headerSize + unpackU16 (c.drop 6) + crcSize = frameSize c := rfl
  rw [if_neg (not_not.mpr hmagic), hframe]
  split
  · rfl
  split
  · rfl
  split
  · rfl
  rename_i hsize
  have hraw := framePacket_take (not_lt.mp hsize)
  have hok := frameOk_take (b := c)
  by_cases h : FrameOk c
  · rw [if_pos h, if_neg (not_not.mpr (hok.mp h)), hraw]
  · rw [if_neg h, if_pos (mt hok.mpr h)]

/-- **One turn of the loop is a step of the scanner.** -/
theorem turn_spec (b : List UInt8) :
    match turn b with
    | .done b' => hostDecoder.scan b = (b', [])
    | .again b' p => b'.length < b.length ∧
        hostDecoder.scan b = ((hostDecoder.scan b').1, p.toList ++ (hostDecoder.scan b').2) := by
  rcases hfind : findMagic b with _ | i
  · rw [turn, hfind]
    exact scan_noise hfind
  obtain ⟨hscan, rest, hrest⟩ :=
    @scan_findMagic 2 (by decide) (by decide) b i hfind
  have hjudge : hostDecoder.judge (b.drop i) = judgeFrame 2 (b.drop i) := by
    rw [hrest, judge_magic]
  rw [turn_of_findMagic hfind, turnFrame, hscan]
  rcases hv : judgeFrame 2 (b.drop i) with _ | ⟨n, p⟩
  · exact Scanner.scan_of_wait (hjudge.trans hv)
  · have hn := hostDecoder.bound (hjudge.trans hv)
    rw [List.length_drop] at hn
    exact ⟨by rw [List.length_drop, List.length_drop]; omega,
      Scanner.scan_of_drop (hjudge.trans hv)⟩

theorem loop_eq {fuel : ℕ} {b : List UInt8} (h : b.length < fuel) :
    loop fuel b = hostDecoder.scan b := by
  induction fuel generalizing b with
  | zero => omega
  | succ fuel ih =>
    have hturn := turn_spec b
    rw [loop]
    rcases hb : turn b with b' | ⟨b', p⟩ <;> rw [hb] at hturn
    · exact hturn.symm
    · rw [hturn.2, ← ih (show b'.length < fuel by have := hturn.1; omega)]

/-- The loop always returns, and what it returns is the scan. -/
theorem feed_eq_scan (b data : List UInt8) : feed b data = hostDecoder.scan (b ++ data) :=
  loop_eq (Nat.lt_succ_self _)

/-- **Fed in any pieces, the parser of the host is the scanner of the host.** -/
theorem run_eq {b : List UInt8} (hb : hostDecoder.judge b = none) (pieces : List (List UInt8)) :
    run b pieces = hostDecoder.scan (b ++ pieces.flatten) := by
  have hfeed : run b pieces = hostDecoder.feedAll b pieces := by
    clear hb
    induction pieces generalizing b with
    | nil => rfl
    | cons data pieces ih => rw [run, Scanner.feedAll, feed_eq_scan, ih]
  rw [hfeed, Scanner.feedAll_eq hb]

end PacketParser

/-! ## Round trip -/

theorem magic_infix_cons {b₀ b₁ : UInt8} (rest : List UInt8) (h : ¬ (b₀ = magic0 ∧ b₁ = magic1)) :
    [magic0, magic1] <:+: b₀ :: b₁ :: rest ↔ [magic0, magic1] <:+: b₁ :: rest := by
  rw [List.infix_cons_iff]
  exact or_iff_right fun hp => h (by simpa [eq_comm] using hp)

theorem findMagic_eq_none_iff (b : List UInt8) :
    PacketParser.findMagic b = none ↔ ¬ [magic0, magic1] <:+: b := by
  induction b with
  | nil => simp [PacketParser.findMagic]
  | cons b₀ rest ih =>
    rcases rest with _ | ⟨b₁, rest⟩
    · simp [PacketParser.findMagic, List.infix_cons_iff]
    · rw [PacketParser.findMagic]
      by_cases h : b₀ = magic0 ∧ b₁ = magic1
      · simp [h.1, h.2, List.infix_cons_iff]
      · rw [if_neg h, Option.map_eq_none_iff, ih, magic_infix_cons rest h]

section Scan
variable {skip : ℕ} {h₀ : 0 < skip} {h₈ : skip ≤ headerSize}

/-- The packet a frame carries. -/
def framedPacket (command : UInt8) (sequence : UInt16) (payload : List UInt8) : Packet UInt8 :=
  ⟨protocolVersion, command, sequence, payload⟩

theorem length_framed (body : List UInt8) : (framed body).length = body.length + 6 := by
  simp only [framed, packU32, List.length_append, List.length_cons, List.length_nil]
  omega

/-- A frame of a consistent body is complete and passes its check. -/
theorem judgeFrame_framed {body : List UInt8} (hbody : body.length = 6 + unpackU16 (body.drop 4))
    (h : unpackU16 (body.drop 4) ≤ protocolMaxPayload) :
    judgeFrame skip (framed body) =
      some ((framed body).length, some (framePacket (framed body))) := by
  have hlen := length_framed body
  have hunpack : unpackU16 ((framed body).drop 6) = unpackU16 (body.drop 4) := by
    refine Eq.trans ?_ (unpackU16_drop_append (packU32 (zlibCrc32 body)) (by omega))
    rfl
  have hsize : frameSize (framed body) = (framed body).length := by
    rw [frameSize, hunpack, hlen, hbody]
    simp only [headerSize, crcSize]
    omega
  have hcovered : ((framed body).drop 2).take (6 + unpackU16 (body.drop 4)) = body :=
    List.take_left' hbody
  have hcrc : (framed body).drop (headerSize + unpackU16 (body.drop 4)) =
      packU32 (zlibCrc32 body) := by
    rw [framed, List.drop_left']
    simp only [List.length_append, hbody, List.length_cons, List.length_nil, headerSize]
    omega
  have hok : FrameOk (framed body) := by
    rw [FrameOk, hunpack, hcrc]
    refine (congrArg zlibCrc32 hcovered).trans ?_
    simpa using (unpackU32_packU32 (zlibCrc32_lt body) []).symm
  have hheader : headerSize ≤ (framed body).length := hsize ▸
    (Nat.le_add_right _ _).trans (le_frameSize _)
  rw [judgeFrame, if_neg (by omega), hunpack, if_neg (by omega), hsize, if_neg (lt_irrefl _),
    if_pos hok]

theorem unpackU16_frameBody (command : UInt8) (sequence : UInt16) {payload : List UInt8}
    (h : payload.length ≤ protocolMaxPayload) :
    unpackU16 ((frameBody command sequence payload).drop 4) = payload.length := by
  simp only [protocolMaxPayload] at h
  exact unpackU16_packU16 (n := payload.length) (by omega) _

theorem framePacket_frame (command : UInt8) (sequence : UInt16) {payload : List UInt8}
    (h : payload.length ≤ protocolMaxPayload) :
    framePacket (packetFrame command sequence payload) = framedPacket command sequence payload := by
  have hlen : unpackU16 ((packetFrame command sequence payload).drop 6) = payload.length := by
    simp only [protocolMaxPayload] at h
    exact unpackU16_packU16 (n := payload.length) (by omega) _
  have hseq : unpackU16 ((packetFrame command sequence payload).drop 4) = sequence.toNat :=
    unpackU16_packU16 sequence.toNat_lt _
  have hpayload : ((packetFrame command sequence payload).drop headerSize).take payload.length =
      payload := List.take_left
  rw [framePacket, hlen, hseq, hpayload, UInt16.ofNat_toNat]
  rfl

theorem judgeFrame_frame (command : UInt8) (sequence : UInt16) {payload : List UInt8}
    (h : payload.length ≤ protocolMaxPayload) :
    judgeFrame skip (packetFrame command sequence payload) =
      some ((packetFrame command sequence payload).length,
        some (framedPacket command sequence payload)) := by
  have hlen := unpackU16_frameBody command sequence h
  rw [← framePacket_frame command sequence h]
  exact judgeFrame_framed (by rw [hlen, length_frameBody]) (hlen ▸ h)

/-- **A frame is read back and dropped, also after half a magic.** -/
theorem scan_frame (command : UInt8) (sequence : UInt16) {payload : List UInt8}
    (h : payload.length ≤ protocolMaxPayload) (t : List UInt8) :
    (decoder skip h₀ h₈).scan (packetFrame command sequence payload ++ t) =
      (((decoder skip h₀ h₈).scan t).1,
        framedPacket command sequence payload :: ((decoder skip h₀ h₈).scan t).2) := by
  have hjudge : (decoder skip h₀ h₈).judge (packetFrame command sequence payload) =
      some ((packetFrame command sequence payload).length,
        some (framedPacket command sequence payload)) := by
    rw [← @judgeFrame_frame skip command sequence payload h]
    exact judge_magic _
  rw [Scanner.scan_of_drop ((decoder skip h₀ h₈).stable t hjudge), List.drop_left]
  rfl

/-- Noise before a frame is dropped. -/
theorem scan_noise_frame {noise : List UInt8} (hnoise : ¬ [magic0, magic1] <:+: noise)
    (command : UInt8) (sequence : UInt16) {payload : List UInt8}
    (h : payload.length ≤ protocolMaxPayload) (t : List UInt8) :
    (decoder skip h₀ h₈).scan (noise ++ (packetFrame command sequence payload ++ t)) =
      (((decoder skip h₀ h₈).scan t).1,
        framedPacket command sequence payload :: ((decoder skip h₀ h₈).scan t).2) := by
  rw [Scanner.scan_append, scan_noise ((findMagic_eq_none_iff noise).mpr hnoise),
    PacketParser.keepPossiblePartialMagic]
  split
  · -- Half a magic is held when the frame begins.
    have hhalf :
      (decoder skip h₀ h₈).scan ([magic0] ++ (packetFrame command sequence payload ++ t)) =
        (decoder skip h₀ h₈).scan (packetFrame command sequence payload ++ t) :=
      scan_cons_cons _ (by decide)
    rw [hhalf, scan_frame command sequence h, List.nil_append]
  · rw [List.nil_append, scan_frame command sequence h, List.nil_append]

end Scan

/-- A packet to be framed and the noise before its frame. -/
structure Sending where
  noise : List UInt8
  command : UInt8
  sequence : UInt16
  payload : List UInt8
  quiet : ¬ [magic0, magic1] <:+: noise
  short : payload.length ≤ protocolMaxPayload

/-- What the other side is to decode. -/
def Sending.packet (m : Sending) : Packet UInt8 := framedPacket m.command m.sequence m.payload

/-- The stream the device writes. -/
def deviceStream (sendings : List Sending) (tail : List UInt8) : List UInt8 :=
  sendings.flatMap (fun m => m.noise ++ protocolSendPacket m.command m.sequence m.payload) ++ tail

/-- The stream the host writes. -/
def hostStream : List Sending → List UInt8 → Except Framing.BuildError (List UInt8)
  | [], tail => .ok tail
  | m :: sendings, tail => do
    let bytes ← Framing.buildPacket m.command m.sequence.toNat m.payload
    let stream ← hostStream sendings tail
    return m.noise ++ bytes ++ stream

theorem hostStream_eq (sendings : List Sending) (tail : List UInt8) :
    hostStream sendings tail = .ok (deviceStream sendings tail) := by
  induction sendings with
  | nil => rfl
  | cons m sendings ih =>
    rw [hostStream, buildPacket_eq m.command m.sequence m.short, ih]
    simp only [deviceStream, List.flatMap_cons, protocolSendPacket_eq _ _ m.short,
      List.append_assoc]
    rfl

theorem scan_deviceStream {skip : ℕ} {h₀ : 0 < skip} {h₈ : skip ≤ headerSize}
    (sendings : List Sending) {tail : List UInt8} (h : ¬ [magic0, magic1] <:+: tail) :
    ((decoder skip h₀ h₈).scan (deviceStream sendings tail)).2 = sendings.map Sending.packet := by
  induction sendings with
  | nil => rw [deviceStream, List.flatMap_nil, List.nil_append,
      scan_noise ((findMagic_eq_none_iff tail).mpr h)]; rfl
  | cons m sendings ih =>
    have hstream : deviceStream (m :: sendings) tail =
        m.noise ++ (packetFrame m.command m.sequence m.payload ++ deviceStream sendings tail) := by
      simp only [deviceStream, List.flatMap_cons, protocolSendPacket_eq _ _ m.short,
        List.append_assoc]
    rw [hstream, scan_noise_frame m.quiet _ _ m.short, ih]
    rfl

/-- **Each side decodes from the other's stream exactly the packets it was given, in
order, through any noise without a magic and in any pieces.** -/
theorem framing_round_trip (sendings : List Sending) (tail : List UInt8)
    (h : ¬ [magic0, magic1] <:+: tail) :
    (∃ stream, hostStream sendings tail = .ok stream ∧
      (protocolParserRun [] stream).2 = sendings.map Sending.packet) ∧
    ∀ pieces : List (List UInt8), pieces.flatten = deviceStream sendings tail →
      (PacketParser.run [] pieces).2 = sendings.map Sending.packet := by
  refine ⟨⟨_, hostStream_eq sendings tail, ?_⟩, fun pieces hpieces => ?_⟩
  · rw [protocolParserRun_eq rfl]
    exact scan_deviceStream sendings h
  · rw [PacketParser.run_eq rfl, hpieces]
    exact scan_deviceStream sendings h

/-- Noise that ends in half a magic, before a packet that carries a whole one. -/
def magicPayload : Sending where
  noise := [0x55, 0xAA]
  command := Command.ping.code
  sequence := 0x55AA
  payload := [0xAA, 0x55]
  quiet := by decide
  short := by decide

theorem framing_round_trip_magicPayload :
    (∃ stream, hostStream [magicPayload] [0xAA] = .ok stream ∧
      (protocolParserRun [] stream).2 = [magicPayload].map Sending.packet) ∧
    ∀ pieces : List (List UInt8), pieces.flatten = deviceStream [magicPayload] [0xAA] →
      (PacketParser.run [] pieces).2 = [magicPayload].map Sending.packet :=
  framing_round_trip [magicPayload] [0xAA] (by decide)

/-! ## Agreement -/

/-- A magic may begin among these octets. -/
def MayBegin (b : List UInt8) : Prop := [magic0, magic1] <:+: b ∨ [magic0] <:+ b

instance (b : List UInt8) : Decidable (MayBegin b) := inferInstanceAs (Decidable (_ ∨ _))

/-- While the parser of the device takes these octets, no over-long header has a magic, or
the beginning of one, after its own. -/
def NoHiddenMagic (buffer : List UInt8) : List UInt8 → Prop
  | [] => True
  | x :: bytes =>
    (Overlong (buffer ++ [x]) → ¬ MayBegin ((buffer ++ [x]).drop 2)) ∧
      NoHiddenMagic (protocolParserFeed buffer x).1 bytes

instance NoHiddenMagic.decidable (buffer bytes : List UInt8) :
    Decidable (NoHiddenMagic buffer bytes) :=
  match bytes with
  | [] => .isTrue trivial
  | x :: bytes =>
    have := NoHiddenMagic.decidable (protocolParserFeed buffer x).1 bytes
    inferInstanceAs (Decidable (_ ∧ _))

/-- An over-long header costs `skip` octets. -/
theorem scan_overlong {skip : ℕ} {h₀ : 0 < skip} {h₈ : skip ≤ headerSize} {b : List UInt8}
    {x : UInt8} (hb : (decoder skip h₀ h₈).judge b = none) (h : Overlong (b ++ [x])) :
    (decoder skip h₀ h₈).scan (b ++ [x]) = (decoder skip h₀ h₈).scan ((b ++ [x]).drop skip) := by
  have hlen : b.length = 7 := by simpa [headerSize] using h.1
  have hjudge : (decoder skip h₀ h₈).judge (b ++ [x]) = some (skip, none) := by
    rcases wait_cases hb with rfl | rfl | ⟨rest, hrest, -⟩
    · simp at hlen
    · simp at hlen
    · have hmagic := @judge_magic skip h₀ h₈ (rest ++ [x])
      rw [← List.cons_append, ← List.cons_append, ← hrest] at hmagic
      rw [hmagic, judgeFrame, if_neg (not_lt.mpr h.1.ge), if_pos h.2]
  rw [Scanner.scan_of_drop hjudge]
  rfl

/-- A buffer too short for a header is held from where a magic may begin. -/
theorem scan_mayBegin {skip : ℕ} {h₀ : 0 < skip} {h₈ : skip ≤ headerSize} {b : List UInt8}
    (h : b.length < headerSize) : ((decoder skip h₀ h₈).scan b).1 = [] ↔ ¬ MayBegin b := by
  induction b with
  | nil => simp [MayBegin]
  | cons b₀ rest ih =>
    rcases rest with _ | ⟨b₁, rest⟩
    · by_cases hb₀ : b₀ = magic0
      · simp [hb₀, scan_magic0, MayBegin]
      · simp [scan_singleton hb₀, MayBegin, List.infix_cons_iff, List.suffix_cons_iff, Ne.symm hb₀]
    · by_cases hmagic : b₀ = magic0 ∧ b₁ = magic1
      · obtain ⟨rfl, rfl⟩ := hmagic
        rw [Scanner.scan_of_wait ((judge_magic rest).trans (by rw [judgeFrame, if_pos h]))]
        simp [MayBegin, List.infix_cons_iff]
      · have hsuffix : [magic0] <:+ b₀ :: b₁ :: rest ↔ [magic0] <:+ b₁ :: rest := by
          rw [List.suffix_cons_iff]
          exact or_iff_right (by simp)
        rw [scan_cons_cons rest hmagic, ih (by simp only [List.length_cons] at h ⊢; omega),
          MayBegin, MayBegin, magic_infix_cons rest hmagic, hsuffix]

/-- Part of a header that waits for the rest can be completed to a frame. -/
theorem exists_completion {b : List UInt8} (hb : hostDecoder.judge b = none) (hne : b ≠ [])
    (hlen : b.length ≤ 6) :
    ∃ t : List UInt8, t.length ≤ 11 ∧ (hostDecoder.scan (b ++ t)).2 ≠ [] := by
  have key : ∀ body : List UInt8, body.length = 6 → unpackU16 (body.drop 4) = 0 →
      (hostDecoder.scan (framed body)).2 ≠ [] := by
    intro body hbody hzero
    have hjudge : hostDecoder.judge (framed body) = _ :=
      (judge_magic _).trans (judgeFrame_framed (by rw [hbody, hzero]) (by rw [hzero]; decide))
    rw [Scanner.scan_of_drop hjudge]
    simp
  rcases wait_cases hb with rfl | rfl | ⟨rest, rfl, -⟩
  · exact absurd rfl hne
  · refine ⟨(framed (List.replicate 6 0)).drop 1, by decide, ?_⟩
    exact key (List.replicate 6 0) rfl rfl
  · have hrest : rest.length ≤ 4 := by
      simp only [List.length_cons] at hlen
      omega
    refine ⟨List.replicate (6 - rest.length) 0 ++
      packU32 (zlibCrc32 (rest ++ List.replicate (6 - rest.length) 0)), ?_, ?_⟩
    · simp only [List.length_append, List.length_replicate, packU32, List.length_cons,
        List.length_nil]
      omega
    · have hzero : unpackU16 ((rest ++ List.replicate (6 - rest.length) (0 : UInt8)).drop 4) =
          0 := by
        rw [List.drop_append, List.drop_eq_nil_of_le hrest, List.drop_replicate,
          show 6 - rest.length - (4 - rest.length) = 2 by omega]
        rfl
      have hframed := key _ (by simp; omega) hzero
      simpa [framed] using hframed

theorem scan_device_overlong {b : List UInt8} {x : UInt8} (hb : deviceDecoder.judge b = none)
    (h : Overlong (b ++ [x])) : deviceDecoder.scan (b ++ [x]) = ([], []) := by
  have hdrop : (b ++ [x]).drop headerSize = [] := List.drop_eq_nil_of_le h.1.le
  rw [scan_overlong hb h, hdrop, scan_nil]

/-- An octet that does not complete an over-long header with a magic in it makes both
decoders take the same step. -/
theorem scan_host_step {b : List UInt8} {x : UInt8} (hb : hostDecoder.judge b = none)
    (hdev : deviceDecoder.judge b = none)
    (h : Overlong (b ++ [x]) → ¬ MayBegin ((b ++ [x]).drop 2)) :
    hostDecoder.scan (b ++ [x]) =
      ((protocolParserFeed b x).1, (protocolParserFeed b x).2.toList) := by
  rw [← scan_feed hdev (.inl rfl)]
  by_cases hover : Overlong (b ++ [x])
  · have hshort : ((b ++ [x]).drop 2).length < headerSize := by
      rw [List.length_drop, hover.1]
      decide
    have hrest := (@scan_mayBegin 2 Nat.two_pos (by decide) _ hshort).mpr (h hover)
    have hquiet := @scan_short 2 Nat.two_pos (by decide) _
      (Nat.lt_add_right crcSize hshort)
    rw [scan_overlong hb hover, scan_device_overlong hdev hover]
    exact Prod.ext hrest hquiet
  · rw [scan_feed hb (.inr hover), scan_feed hdev (.inl rfl)]

theorem judge_host_step {b : List UInt8} {x : UInt8} (hb : hostDecoder.judge b = none)
    (hdev : deviceDecoder.judge b = none)
    (h : Overlong (b ++ [x]) → ¬ MayBegin ((b ++ [x]).drop 2)) :
    hostDecoder.judge (protocolParserFeed b x).1 = none := by
  have hwait := Scanner.judge_scan (S := hostDecoder) (b ++ [x])
  rwa [scan_host_step hb hdev h] at hwait

theorem scan_host_eq {b bytes : List UInt8} (hb : hostDecoder.judge b = none)
    (hdev : deviceDecoder.judge b = none) (h : NoHiddenMagic b bytes) :
    hostDecoder.scan (b ++ bytes) = deviceDecoder.scan (b ++ bytes) := by
  induction bytes generalizing b with
  | nil => rw [List.append_nil, Scanner.scan_of_wait hb, Scanner.scan_of_wait hdev]
  | cons x bytes ih =>
    rw [List.append_cons, Scanner.scan_append (b ++ [x]), Scanner.scan_append (b ++ [x]),
      scan_host_step hb hdev h.1, scan_feed hdev (.inl rfl),
      ih (judge_host_step hb hdev h.1) (judge_protocolParserFeed hdev x) h.2]

/-- A hidden magic shows: after it, octets that complete its frame for the host are lost on
the device. -/
theorem exists_disagreement {b bytes : List UInt8} (hb : hostDecoder.judge b = none)
    (hdev : deviceDecoder.judge b = none) (h : ¬ NoHiddenMagic b bytes) :
    ∃ p t : List UInt8, p <+: bytes ∧ t.length ≤ 11 ∧
      (hostDecoder.scan (b ++ (p ++ t))).2 ≠ (deviceDecoder.scan (b ++ (p ++ t))).2 := by
  induction bytes generalizing b with
  | nil => exact absurd trivial h
  | cons x bytes ih =>
    by_cases hx : Overlong (b ++ [x]) → ¬ MayBegin ((b ++ [x]).drop 2)
    · obtain ⟨p, t, hp, ht, hne⟩ := ih (judge_host_step hb hdev hx)
        (judge_protocolParserFeed hdev x) fun hrest => h ⟨hx, hrest⟩
      refine ⟨x :: p, t, List.cons_prefix_cons.mpr ⟨rfl, hp⟩, ht, ?_⟩
      rw [List.cons_append, List.append_cons, Scanner.scan_append (b ++ [x]),
        Scanner.scan_append (b ++ [x]), scan_host_step hb hdev hx, scan_feed hdev (.inl rfl)]
      simpa using hne
    · obtain ⟨hover, hbegin⟩ := Classical.not_imp.mp hx
      have hshort : ((b ++ [x]).drop 2).length < headerSize := by
        rw [List.length_drop, hover.1]
        decide
      have hheld : (hostDecoder.scan ((b ++ [x]).drop 2)).1 ≠ [] :=
        mt (@scan_mayBegin 2 Nat.two_pos (by decide) _ hshort).mp hbegin
      have hlen : (hostDecoder.scan ((b ++ [x]).drop 2)).1.length ≤ 6 :=
        (Scanner.length_scan_le _).trans (by rw [List.length_drop, hover.1]; decide)
      obtain ⟨t, ht, hpacket⟩ := exists_completion (Scanner.judge_scan _) hheld hlen
      have hlost : (deviceDecoder.scan t).2 = [] := scan_short (by
        simp only [headerSize, crcSize]
        omega)
      refine ⟨[x], t, by simp, ht, ?_⟩
      rw [← List.append_assoc, Scanner.scan_append (b ++ [x]), Scanner.scan_append (b ++ [x]),
        scan_overlong hb hover, scan_device_overlong hdev hover,
        @scan_short 2 Nat.two_pos (by decide) _ (Nat.lt_add_right crcSize hshort)]
      simpa [hlost] using hpacket

/-- **The decoders agree on every stream in which no over-long header hides a magic, in
whatever pieces the host receives it, and only there: from any other stream a beginning
can be continued by at most eleven octets to one on which they differ.** -/
theorem decoders_agree (bytes : List UInt8) :
    (NoHiddenMagic [] bytes → ∀ pieces : List (List UInt8), pieces.flatten = bytes →
      (PacketParser.run [] pieces).2 = (protocolParserRun [] bytes).2) ∧
    (¬ NoHiddenMagic [] bytes → ∃ p t : List UInt8, p <+: bytes ∧ t.length ≤ 11 ∧
      ∀ pieces : List (List UInt8), pieces.flatten = p ++ t →
        (PacketParser.run [] pieces).2 ≠ (protocolParserRun [] (p ++ t)).2) := by
  constructor
  · intro h pieces hpieces
    rw [PacketParser.run_eq rfl, protocolParserRun_eq rfl, hpieces, scan_host_eq rfl rfl h]
  · intro h
    obtain ⟨p, t, hp, ht, hne⟩ := exists_disagreement rfl rfl h
    refine ⟨p, t, hp, ht, fun pieces hpieces => ?_⟩
    rw [PacketParser.run_eq rfl, protocolParserRun_eq rfl, hpieces]
    exact hne

/-- An over-long header with nothing hidden in it, before the frame of a PING. -/
def longHeader : List UInt8 :=
  [magic0, magic1, 1, 1, 0, 0, 0xFF, 0xFF] ++ packetFrame Command.ping.code 0 []

theorem decoders_agree_longHeader :
    ∀ pieces : List (List UInt8), pieces.flatten = longHeader →
      (PacketParser.run [] pieces).2 = (protocolParserRun [] longHeader).2 :=
  (decoders_agree longHeader).1 (by decide +kernel)

/-- Two stray octets before the frame of a PING whose sequence is 2048. -/
def strayMagic : List UInt8 := [magic0, magic1] ++ packetFrame Command.ping.code 2048 []

/-- The host reads the PING and the device does not. -/
theorem decoders_disagree :
    ¬ ∀ (bytes : List UInt8) (pieces : List (List UInt8)), pieces.flatten = bytes →
      (PacketParser.run [] pieces).2 = (protocolParserRun [] bytes).2 := by
  intro h
  have := h strayMagic [strayMagic] (by simp)
  revert this
  decide +kernel

end OtaLink
