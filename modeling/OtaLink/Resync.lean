import OtaLink.Segments

/-!
# How long a decoder can stay out of step

A parser that is inside a frame that never ends takes octets of later frames for its own, at
most as many as the longest frame has. After them it may be in the middle of a frame, but a
frame with no magic inside is noise from there on, and the next one is decoded again.

## Main definitions

* `stream` — frames back to back.
* `Synced` — the parser is between two frames, or holds half a magic.
* `bounded_loss` — how much is lost.
-/

namespace OtaLink
open Lib

/-- The frames of these packets, back to back. -/
def stream (ps : List (Packet UInt8)) : List UInt8 := ps.flatMap segment

@[simp] theorem stream_nil : stream [] = [] := rfl
@[simp] theorem stream_cons (p : Packet UInt8) (ps : List (Packet UInt8)) :
    stream (p :: ps) = segment p ++ stream ps := List.flatMap_cons

/-- A valid frame. -/
def Valid (p : Packet UInt8) : Prop := p.payload.length ≤ protocolMaxPayload

/-- A valid frame with the magic at its start only. -/
def Clean (p : Packet UInt8) : Prop := Valid p ∧ ¬ [magic0, magic1] <:+: (segment p).drop 1

instance (p : Packet UInt8) : Decidable (Clean p) :=
  inferInstanceAs (Decidable (_ ≤ _ ∧ _))

/-- The octets of the largest frame. -/
def maxFrameSize : ℕ := headerSize + protocolMaxPayload + crcSize

/-- The parser is between two frames, or holds half a magic. -/
def Synced (b : List UInt8) : Prop := b = [] ∨ b = [magic0]

theorem framePacket_segment {p : Packet UInt8} (h : Valid p) : framePacket (segment p) = p := by
  have hlt : p.payload.length < 2 ^ 16 := lt_of_le_of_lt h (by decide)
  have hlen : unpackU16 ((segment p).drop 6) = p.payload.length := unpackU16_packU16 hlt _
  have hseq : unpackU16 ((segment p).drop 4) = p.sequence.toNat :=
    unpackU16_packU16 p.sequence.toNat_lt _
  have hpayload : ((segment p).drop headerSize).take p.payload.length = p.payload := List.take_left
  rw [framePacket, hlen, hseq, hpayload, UInt16.ofNat_toNat]
  rfl

section Scan
variable {skip : ℕ} {h₀ : 0 < skip} {h₈ : skip ≤ headerSize} {b noise : List UInt8}
  {ps : List (Packet UInt8)}

/-- **A valid frame is read.** -/
theorem scan_segment {p : Packet UInt8} (h : Valid p) (t : List UInt8) :
    (decoder skip h₀ h₈).scan (segment p ++ t) =
      (((decoder skip h₀ h₈).scan t).1, p :: ((decoder skip h₀ h₈).scan t).2) := by
  have hlt : p.payload.length < 2 ^ 16 := lt_of_le_of_lt h (by decide)
  have hlen : unpackU16 ((segmentBody p).drop 4) = p.payload.length := unpackU16_packU16 hlt _
  have hbody : (segmentBody p).length = 6 + unpackU16 ((segmentBody p).drop 4) := by
    rw [hlen]
    simp [segmentBody, packU16]
    omega
  have hframe := @judgeFrame_framed skip (segmentBody p) hbody (hlen ▸ h)
  have hjudge : (decoder skip h₀ h₈).judge (segment p) =
      some ((segment p).length, some (framePacket (segment p))) := (judge_magic _).trans hframe
  rw [framePacket_segment h] at hjudge
  rw [Scanner.scan_of_drop ((decoder skip h₀ h₈).stable t hjudge), List.drop_left]
  rfl

/-- **A decoder in step reads every frame**, and stays in step. -/
theorem scan_stream (hb : Synced b) (hps : ∀ p ∈ ps, Valid p) :
    ((decoder skip h₀ h₈).scan (b ++ stream ps)).2 = ps ∧
      Synced ((decoder skip h₀ h₈).scan (b ++ stream ps)).1 := by
  induction ps generalizing b with
  | nil =>
    rcases hb with rfl | rfl
    · exact ⟨by rw [stream_nil, List.append_nil, scan_nil], by
        rw [stream_nil, List.append_nil, scan_nil]
        exact .inl rfl⟩
    · exact ⟨by rw [stream_nil, List.append_nil, scan_magic0], by
        rw [stream_nil, List.append_nil, scan_magic0]
        exact .inr rfl⟩
  | cons p ps ih =>
    have hhead : (decoder skip h₀ h₈).scan (b ++ stream (p :: ps)) =
        (decoder skip h₀ h₈).scan (segment p ++ stream ps) := by
      rcases hb with rfl | rfl
      · rw [List.nil_append, stream_cons]
      · exact scan_cons_cons _ (by decide)
    have hrest := ih (.inl rfl) fun q hq => hps q (List.mem_cons_of_mem p hq)
    rw [List.nil_append] at hrest
    rw [hhead, scan_segment (hps p List.mem_cons_self), hrest.1]
    exact ⟨rfl, hrest.2⟩

/-- After noise a decoder is in step. -/
theorem synced_scan_noise (hnoise : ¬ [magic0, magic1] <:+: noise) (hps : ∀ p ∈ ps, Valid p) :
    Synced ((decoder skip h₀ h₈).scan (noise ++ stream ps)).1 := by
  rw [Scanner.scan_append, scan_noise ((findMagic_eq_none_iff noise).mpr hnoise)]
  refine (scan_stream ?_ hps).2
  rw [PacketParser.keepPossiblePartialMagic]
  split
  · exact .inr rfl
  · exact .inl rfl

/-- From the middle of clean frames on there is noise, and then a frame begins. -/
theorem drop_stream {m : ℕ} (hm : 0 < m) (hle : m ≤ (stream ps).length)
    (hps : ∀ p ∈ ps, Clean p) : ∃ noise rest, (stream ps).drop m = noise ++ stream rest ∧
      ¬ [magic0, magic1] <:+: noise ∧ ∀ p ∈ rest, Valid p := by
  induction ps generalizing m with
  | nil =>
    rw [stream_nil, List.length_nil] at hle
    omega
  | cons p ps ih =>
    have hrest : ∀ q ∈ ps, Clean q := fun q hq => hps q (List.mem_cons_of_mem p hq)
    rw [stream_cons, List.length_append] at hle
    rw [stream_cons, List.drop_append]
    rcases lt_trichotomy m (segment p).length with hlt | heq | hgt
    · refine ⟨(segment p).drop m, ps, ?_, ?_, fun q hq => (hrest q hq).1⟩
      · rw [show m - (segment p).length = 0 by omega, List.drop_zero]
      · intro hmagic
        refine (hps p List.mem_cons_self).2 (hmagic.trans ?_)
        rw [show m = 1 + (m - 1) by omega, ← List.drop_drop]
        exact (List.drop_suffix _ _).isInfix
    · refine ⟨[], ps, ?_, by simp, fun q hq => (hrest q hq).1⟩
      rw [heq, Nat.sub_self, List.drop_length, List.drop_zero]
    · obtain ⟨noise, rest, hdrop, hquiet, hvalid⟩ :=
        ih (m := m - (segment p).length) (by omega) (by omega) hrest
      refine ⟨noise, rest, ?_, hquiet, hvalid⟩
      rw [List.drop_eq_nil_of_le (by omega), List.nil_append, hdrop]

/-- An unfinished frame ends within as many octets as the largest frame has. -/
theorem judgeFrame_ends {b t : List UInt8} (hb : judgeFrame skip b = none)
    (h₈ : skip = headerSize) (hlen : maxFrameSize ≤ t.length) :
    ∃ n p, judgeFrame skip (b ++ t) = some (n, p) ∧ b.length < n ∧ n ≤ maxFrameSize := by
  subst h₈
  have hheader : headerSize ≤ (b ++ t).length := by
    rw [List.length_append]
    simp only [maxFrameSize] at hlen
    omega
  have hpos : headerSize + crcSize ≤ maxFrameSize := by decide
  by_cases hshort : b.length < headerSize
  · by_cases hlong : protocolMaxPayload < unpackU16 ((b ++ t).drop 6)
    · refine ⟨headerSize, none, ?_, hshort, by decide⟩
      rw [judgeFrame, if_neg (not_lt.mpr hheader), if_pos hlong]
    · have hsize : frameSize (b ++ t) ≤ maxFrameSize := by
        simp only [frameSize, maxFrameSize]
        omega
      have hge := le_frameSize (b ++ t)
      have hfit : ¬ (b ++ t).length < frameSize (b ++ t) := by
        rw [List.length_append]
        omega
      refine ⟨frameSize (b ++ t), if FrameOk (b ++ t) then some (framePacket (b ++ t)) else none,
        ?_, by omega, hsize⟩
      rw [judgeFrame, if_neg (not_lt.mpr hheader), if_neg hlong, if_neg hfit]
      split <;> rfl
  · unfold judgeFrame at hb
    rw [if_neg hshort] at hb
    split at hb
    · cases hb
    rename_i hlong
    split at hb
    · rename_i hwait
      have hunpack := unpackU16_drop_append t (i := 6) (not_lt.mp hshort)
      have hframe := frameSize_append t (not_lt.mp hshort)
      have hsize : frameSize b ≤ maxFrameSize := by
        simp only [frameSize, maxFrameSize]
        omega
      have hfit : ¬ (b ++ t).length < frameSize b := by
        rw [List.length_append]
        omega
      refine ⟨frameSize b, if FrameOk (b ++ t) then some (framePacket (b ++ t)) else none, ?_,
        hwait, hsize⟩
      rw [judgeFrame, if_neg (not_lt.mpr hheader), hunpack, if_neg hlong, hframe, if_neg hfit]
      split <;> rfl
    · split at hb <;> cases hb

end Scan

/-- **A decoder out of step is in step after clean frames of the length of the largest one.** -/
theorem synced_scan_stream {b : List UInt8} (hb : deviceDecoder.judge b = none)
    {ps : List (Packet UInt8)} (hps : ∀ p ∈ ps, Clean p)
    (hlen : maxFrameSize ≤ (stream ps).length) :
    Synced (deviceDecoder.scan (b ++ stream ps)).1 := by
  have hvalid : ∀ p ∈ ps, Valid p := fun p hp => (hps p hp).1
  rcases wait_cases hb with rfl | rfl | ⟨rest, rfl, hwait⟩
  · exact (scan_stream (.inl rfl) hvalid).2
  · exact (scan_stream (.inr rfl) hvalid).2
  · -- The frame it is in ends in the middle of one of these, or between two.
    obtain ⟨n, p, hjudge, hlt, hle⟩ := judgeFrame_ends hwait rfl hlen
    have hdevice : deviceDecoder.judge (magic0 :: magic1 :: rest ++ stream ps) = some (n, p) :=
      (judge_magic (rest ++ stream ps)).trans hjudge
    rw [Scanner.scan_of_drop hdevice, List.drop_append, List.drop_eq_nil_of_le hlt.le,
      List.nil_append]
    obtain ⟨noise, frames, hdrop, hquiet, hframes⟩ :=
      drop_stream (Nat.sub_pos_of_lt hlt) (by omega) hps
    rw [hdrop]
    exact synced_scan_noise hquiet hframes

/-- **Bounded loss.** Whatever the parser has received, after clean frames that have as many
octets as the largest frame it decodes every frame that follows, and nothing else. -/
theorem bounded_loss (before : List UInt8) {lost found : List (Packet UInt8)}
    (hlost : ∀ p ∈ lost, Clean p) (hlen : maxFrameSize ≤ (stream lost).length)
    (hfound : ∀ p ∈ found, Valid p) :
    (protocolParserRun (protocolParserRun (protocolParserRun [] before).1 (stream lost)).1
      (stream found)).2 = found := by
  have hb : deviceDecoder.judge (protocolParserRun [] before).1 = none := by
    rw [protocolParserRun_eq rfl]
    exact Scanner.judge_scan _
  have hsynced := synced_scan_stream hb hlost hlen
  rw [protocolParserRun_eq hb, protocolParserRun_eq (Scanner.judge_scan _)]
  exact (scan_stream hsynced hfound).1

/-- A header that announces the largest payload, and 87 frames without one. -/
theorem bounded_loss_pings :
    (protocolParserRun (protocolParserRun
      (protocolParserRun [] [magic0, magic1, 1, 1, 0, 0, 0, 4]).1
        (stream (List.replicate 87 (framedPacket Command.ping.code 1 [])))).1
      (stream [framedPacket Command.ping.code 2 []])).2 =
        [framedPacket Command.ping.code 2 []] := by
  refine bounded_loss _ (fun p hp => ?_) ?_ (by simp [Valid, framedPacket])
  · rw [List.eq_of_mem_replicate hp]
    decide +kernel
  · simp [stream, length_segment, framedPacket, maxFrameSize, headerSize, crcSize,
      protocolMaxPayload]

end OtaLink
