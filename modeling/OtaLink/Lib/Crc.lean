import Mathlib.Data.BitVec
import Mathlib.Tactic.Common
import Mathlib.Logic.Function.Iterate

/-!
# Reflected cyclic redundancy checks

A CRC is the remainder of the message, read as a polynomial over the two-element field,
by the generator. The standard form of a reflected CRC feeds every octet from its least
significant bit into a register that shifts left, and reverses the register at the end.
Software keeps the register reversed instead: it shifts right, takes in eight bits at
once and uses the reversed generator. The two agree for every generator and message.

## Main definitions

* `divide` — one message bit in the polynomial division.
* `reflected` — the standard form.
* `shiftRight`, `rightShifting` — the register of the software form.
* `reflected_eq_rightShifting` — the two forms agree.
* `foldl_divide_residue` — a message and its checksum always leave the same remainder.
* `eq_false_of_burst` — an error no longer than the register leaves another one.
-/

namespace OtaLink.Lib.Crc

variable {w : ℕ}

/-- One message bit enters the register at the top. -/
def divide (poly r : BitVec w) (b : Bool) : BitVec w :=
  if (r.msb ^^ b) then (r <<< 1) ^^^ poly else r <<< 1

/-- The low `n` bits of a word, the least significant first. -/
def lowBits (v : BitVec w) (n : ℕ) : List Bool := (List.range n).map v.getLsbD

/-- The bits of an octet in the order a reflected CRC takes them. -/
def octetBits (x : UInt8) : List Bool := lowBits x.toBitVec 8

/-- The reflected CRC of `bytes`: a register of ones, divided by the message, reversed
and complemented. -/
def reflected (poly : BitVec w) (bytes : List UInt8) : BitVec w :=
  ~~~ ((bytes.flatMap octetBits).foldl (divide poly) (BitVec.allOnes w)).reverse

/-- One step of the register that shifts right. -/
def shiftRight (poly r : BitVec w) : BitVec w :=
  if r.getLsbD 0 then (r >>> 1) ^^^ poly else r >>> 1

/-- The software form: an octet is added at the bottom, then the register shifts eight
times. -/
def rightShifting (poly : BitVec w) (bytes : List UInt8) : BitVec w :=
  ~~~ (bytes.foldl (fun r x => (shiftRight poly)^[8] (r ^^^ x.toBitVec.setWidth w))
    (BitVec.allOnes w))

/-! ## Reversal -/

theorem reverse_xor (x y : BitVec w) : (x ^^^ y).reverse = x.reverse ^^^ y.reverse := by
  apply BitVec.eq_of_getLsbD_eq
  intro i _
  simp only [BitVec.getLsbD_reverse, BitVec.getLsbD_xor, BitVec.getMsbD_xor]

theorem reverse_shiftLeft_one (x : BitVec w) : (x <<< 1).reverse = x.reverse >>> 1 := by
  apply BitVec.eq_of_getLsbD_eq
  intro i hi
  simp only [BitVec.getLsbD_reverse, BitVec.getMsbD_shiftLeft, BitVec.getLsbD_ushiftRight,
    Nat.add_comm]

theorem bit_shiftRight (b : Bool) : (BitVec.ofBool b).setWidth w >>> 1 = 0#w := by
  apply BitVec.eq_of_getLsbD_eq
  intro i _
  simp [BitVec.getLsbD_ushiftRight]

/-- The two registers step alike: the bit that enters one at the top is added to the
other at the bottom. -/
theorem reverse_divide (poly r : BitVec w) (b : Bool) :
    (divide poly r b).reverse =
      shiftRight poly.reverse (r.reverse ^^^ (BitVec.ofBool b).setWidth w) := by
  rcases Nat.eq_zero_or_pos w with rfl | hw
  · exact Subsingleton.elim _ _
  have hbit : (r.reverse ^^^ (BitVec.ofBool b).setWidth w).getLsbD 0 = (r.msb ^^ b) := by
    rw [BitVec.getLsbD_xor, BitVec.getLsbD_reverse, BitVec.msb]
    simp [hw]
  have hshift : (r.reverse ^^^ (BitVec.ofBool b).setWidth w) >>> 1 = r.reverse >>> 1 := by
    rw [BitVec.ushiftRight_xor_distrib, bit_shiftRight, BitVec.xor_zero]
  unfold divide shiftRight
  rw [hbit, hshift]
  split
  · rw [reverse_xor, reverse_shiftLeft_one]
  · rw [reverse_shiftLeft_one]

/-! ## Eight bits at once -/

/-- A word whose lowest bit is clear only shifts. -/
theorem shiftRight_xor (poly x y : BitVec w) (h : y.getLsbD 0 = false) :
    shiftRight poly (x ^^^ y) = shiftRight poly x ^^^ (y >>> 1) := by
  unfold shiftRight
  rw [BitVec.getLsbD_xor, h, Bool.xor_false, BitVec.ushiftRight_xor_distrib]
  split
  · rw [BitVec.xor_assoc, BitVec.xor_comm (y >>> 1), BitVec.xor_assoc]
  · rfl

theorem lowBits_succ (v : BitVec w) (n : ℕ) :
    lowBits v (n + 1) = v.getLsbD 0 :: lowBits (v >>> 1) n := by
  simp only [lowBits, List.range_succ_eq_map, List.map_cons, List.map_map, List.cons.injEq,
    true_and]
  apply List.map_congr_left
  intro i _
  simp [BitVec.getLsbD_ushiftRight, Nat.add_comm]

/-- **Adding `n` bits at once and shifting `n` times is taking them in one by one.** -/
theorem foldl_lowBits (poly : BitVec w) {n : ℕ} :
    ∀ (r v : BitVec w), (∀ i, n ≤ i → v.getLsbD i = false) →
      (lowBits v n).foldl (fun r b => shiftRight poly (r ^^^ (BitVec.ofBool b).setWidth w)) r =
        (shiftRight poly)^[n] (r ^^^ v) := by
  induction n with
  | zero =>
    intro r v hv
    have : v = 0#w := BitVec.eq_of_getLsbD_eq fun i _ => by simpa using hv i (Nat.zero_le i)
    simp [lowBits, this]
  | succ n ih =>
    intro r v hv
    -- `v` is its lowest bit and a word whose lowest bit is clear.
    have hlow : (v ^^^ (BitVec.ofBool (v.getLsbD 0)).setWidth w).getLsbD 0 = false := by
      rcases Nat.eq_zero_or_pos w with rfl | hw
      · simp [BitVec.getLsbD_of_ge]
      · simp [hw]
    have hsplit : r ^^^ v = (r ^^^ (BitVec.ofBool (v.getLsbD 0)).setWidth w) ^^^
        (v ^^^ (BitVec.ofBool (v.getLsbD 0)).setWidth w) := by
      rw [BitVec.xor_comm v, BitVec.xor_assoc, ← BitVec.xor_assoc _ _ v, BitVec.xor_self,
        BitVec.zero_xor]
    rw [lowBits_succ, List.foldl_cons, ih _ _ fun i hi => by
      rw [BitVec.getLsbD_ushiftRight]; exact hv _ (by omega)]
    rw [Function.iterate_succ_apply, hsplit, shiftRight_xor _ _ _ hlow,
      BitVec.ushiftRight_xor_distrib, bit_shiftRight, BitVec.xor_zero]

theorem foldl_divide (poly : BitVec w) (bits : List Bool) (r : BitVec w) :
    (bits.foldl (divide poly) r).reverse =
      bits.foldl (fun r b => shiftRight poly.reverse (r ^^^ (BitVec.ofBool b).setWidth w))
        r.reverse := by
  induction bits generalizing r with
  | nil => rfl
  | cons b bits ih => rw [List.foldl_cons, ih, reverse_divide, List.foldl_cons]

theorem foldl_octetBits (poly r : BitVec w) (hw : 8 ≤ w) (x : UInt8) :
    (octetBits x).foldl (fun r b => shiftRight poly (r ^^^ (BitVec.ofBool b).setWidth w)) r =
      (shiftRight poly)^[8] (r ^^^ x.toBitVec.setWidth w) := by
  have hbits : octetBits x = lowBits (x.toBitVec.setWidth w) 8 := by
    apply List.map_congr_left
    intro i hi
    have hi' := List.mem_range.mp hi
    simp [show i < w by omega]
  rw [hbits]
  refine foldl_lowBits poly r _ fun i hi => ?_
  rw [BitVec.getLsbD_setWidth, BitVec.getLsbD_of_ge _ _ hi, Bool.and_false]

/-- **The software form computes the standard reflected CRC.** -/
theorem reflected_eq_rightShifting (poly : BitVec w) (hw : 8 ≤ w) (bytes : List UInt8) :
    reflected poly bytes = rightShifting poly.reverse bytes := by
  have hones : (BitVec.allOnes w).reverse = BitVec.allOnes w := by
    apply BitVec.eq_of_getLsbD_eq
    intro i hi
    simp [BitVec.getLsbD_reverse, BitVec.getMsbD, hi, show w - 1 - i < w by omega]
  rw [reflected, rightShifting, foldl_divide, List.foldl_flatMap, hones]
  simp only [foldl_octetBits _ _ hw]

/-! ## Linearity -/

/-- The division is linear. -/
theorem divide_xor (poly r r' : BitVec w) (b b' : Bool) :
    divide poly (r ^^^ r') (b ^^ b') = divide poly r b ^^^ divide poly r' b' := by
  unfold divide
  rw [BitVec.msb_xor, BitVec.shiftLeft_xor_distrib,
    show ((r.msb ^^ r'.msb) ^^ (b ^^ b')) = ((r.msb ^^ b) ^^ (r'.msb ^^ b')) by
      cases r.msb <;> cases r'.msb <;> cases b <;> cases b' <;> rfl]
  cases r.msb ^^ b <;> cases r'.msb ^^ b'
  · rfl
  · simp only [Bool.false_xor, if_true, Bool.false_eq_true, if_false, BitVec.xor_assoc]
  · simp only [Bool.xor_false, if_true, Bool.false_eq_true, if_false, BitVec.xor_assoc,
      BitVec.xor_comm poly]
  · simp only [Bool.xor_self, Bool.false_eq_true, if_false, if_true]
    rw [BitVec.xor_assoc, ← BitVec.xor_assoc poly, BitVec.xor_comm poly,
      BitVec.xor_assoc (r' <<< 1), BitVec.xor_self, BitVec.xor_zero]

theorem foldl_divide_xor (poly : BitVec w) {bits bits' : List Bool}
    (h : bits.length = bits'.length) : ∀ r r' : BitVec w,
    (List.zipWith xor bits bits').foldl (divide poly) (r ^^^ r') =
      bits.foldl (divide poly) r ^^^ bits'.foldl (divide poly) r' := by
  induction bits generalizing bits' with
  | nil =>
    intro r r'
    rw [List.length_eq_zero_iff.mp h.symm]
    rfl
  | cons b bits ih =>
    intro r r'
    obtain ⟨b', bits', rfl⟩ := List.exists_cons_of_length_eq_add_one h.symm
    rw [List.zipWith_cons_cons, List.foldl_cons, divide_xor, ih (by simpa using h)]
    rfl

/-! ## The remainder of a message with its checksum -/

/-- A register that is fed its own bits from the top only shifts. -/
theorem foldl_divide_getMsbD (poly r : BitVec w) {n : ℕ} (h : n ≤ w) :
    ((List.range n).map r.getMsbD).foldl (divide poly) r = r <<< n := by
  induction n with
  | zero => simp
  | succ n ih =>
    have hmsb : (r <<< n).msb = r.getMsbD n := by
      rw [BitVec.msb, BitVec.getMsbD_shiftLeft, Nat.zero_add]
    rw [List.range_succ, List.map_append, List.foldl_append, ih (by omega), List.map_singleton,
      List.foldl_cons, List.foldl_nil, divide, hmsb, Bool.xor_self, if_neg (by simp),
      ← BitVec.shiftLeft_add]

/-- **A message and its checksum always leave the same remainder.** -/
theorem foldl_divide_residue (poly r : BitVec w) :
    (lowBits (~~~ r.reverse) w).foldl (divide poly) r =
      (List.replicate w true).foldl (divide poly) 0#w := by
  have hbits : lowBits (~~~ r.reverse) w =
      List.zipWith xor ((List.range w).map r.getMsbD) (List.replicate w true) := by
    refine List.ext_getElem (by simp [lowBits]) fun i hi _ => ?_
    have hi : i < w := by simpa [lowBits] using hi
    simp only [lowBits, List.getElem_map, List.getElem_range, List.getElem_zipWith,
      List.getElem_replicate, Bool.xor_true, BitVec.getLsbD_not, hi, decide_true, Bool.true_and,
      BitVec.getLsbD_reverse]
  rw [hbits, ← BitVec.xor_zero (x := r)]
  rw [foldl_divide_xor poly (by simp), BitVec.xor_zero, foldl_divide_getMsbD poly r le_rfl,
    BitVec.shiftLeft_eq_zero le_rfl, BitVec.zero_xor]

/-! ## Bursts -/

section Burst
variable {poly r : BitVec w}

theorem divide_zero_false (poly : BitVec w) : divide poly 0#w false = 0#w := by
  simp [divide]

theorem foldl_divide_false (poly : BitVec w) {bits : List Bool} (h : ∀ b ∈ bits, b = false) :
    bits.foldl (divide poly) 0#w = 0#w := by
  induction bits with
  | nil => rfl
  | cons b bits ih =>
    rw [List.foldl_cons, h b List.mem_cons_self, divide_zero_false,
      ih fun b hb => h b (List.mem_cons_of_mem _ hb)]

/-- The lowest bit of the next register tells whether the generator was added. -/
theorem getLsbD_zero_divide (hpoly : poly.getLsbD 0 = true) (b : Bool) :
    (divide poly r b).getLsbD 0 = (r.msb ^^ b) := by
  unfold divide
  cases r.msb ^^ b <;> simp [hpoly]

/-- After `bits` the register is empty only if it had nothing below them. -/
theorem getLsbD_eq_false_of_foldl (hpoly : poly.getLsbD 0 = true) {bits : List Bool} :
    ∀ {r : BitVec w}, bits.foldl (divide poly) r = 0#w → ∀ i, i + bits.length < w →
      r.getLsbD i = false := by
  induction bits with
  | nil =>
    rintro r h i -
    rw [List.foldl_nil] at h
    rw [h, BitVec.getLsbD_zero]
  | cons b bits ih =>
    intro r h i hi
    rw [List.length_cons] at hi
    have hlow : (r.msb ^^ b) = false := by
      rw [← getLsbD_zero_divide hpoly]
      exact ih h 0 (by omega)
    have hnext := ih h (i + 1) (by omega)
    rw [divide, hlow, if_neg (by simp), BitVec.getLsbD_shiftLeft] at hnext
    simpa [show i + 1 < w by omega] using hnext

/-- Zeros do not empty a register. -/
theorem eq_zero_of_foldl_false (hpoly : poly.getLsbD 0 = true) {bits : List Bool}
    (hbits : ∀ b ∈ bits, b = false) : ∀ {r : BitVec w}, bits.foldl (divide poly) r = 0#w →
      r = 0#w := by
  induction bits with
  | nil => exact fun h => h
  | cons b bits ih =>
    intro r h
    have hnext := ih (fun b hb => hbits b (List.mem_cons_of_mem _ hb)) h
    have hmsb : r.msb = false := by
      have hlow := getLsbD_zero_divide (r := r) hpoly b
      rw [hnext, BitVec.getLsbD_zero, hbits b List.mem_cons_self, Bool.xor_false] at hlow
      exact hlow.symm
    rw [divide, hmsb, hbits b List.mem_cons_self, if_neg (by simp)] at hnext
    -- Nothing is shifted out, and what is left is zero.
    apply BitVec.eq_of_getLsbD_eq
    intro i hi
    rw [BitVec.getLsbD_zero]
    by_cases htop : i + 1 = w
    · rw [BitVec.msb_eq_getLsbD_last] at hmsb
      rwa [show i = w - 1 by omega]
    · have hbit := congrArg (BitVec.getLsbD · (i + 1)) hnext
      simp only [BitVec.getLsbD_shiftLeft, BitVec.getLsbD_zero] at hbit
      simpa [show i + 1 < w by omega] using hbit

/-- No burst that fits the register empties it. -/
theorem eq_false_of_short (hpoly : poly.getLsbD 0 = true) {bits : List Bool}
    (hlen : bits.length ≤ w) (h : bits.foldl (divide poly) 0#w = 0#w) :
    ∀ b ∈ bits, b = false := by
  induction bits with
  | nil => simp
  | cons b bits ih =>
    rw [List.length_cons] at hlen
    cases b with
    | false =>
      rw [List.foldl_cons, divide_zero_false] at h
      intro b hb
      rcases List.mem_cons.mp hb with rfl | hb
      · rfl
      · exact ih (by omega) h b hb
    | true =>
      have hfirst : divide poly 0#w true = poly := by simp [divide]
      rw [List.foldl_cons, hfirst] at h
      have hlow := getLsbD_eq_false_of_foldl hpoly h 0 (by omega)
      rw [hpoly] at hlow
      cases hlow

/-- **An error whose bits lie within as many consecutive ones as the register has leaves a
remainder.** -/
theorem eq_false_of_burst (hpoly : poly.getLsbD 0 = true) {bits : List Bool} {k : ℕ}
    (hburst : ∀ i, bits[i]? = some true → k ≤ i ∧ i < k + w)
    (h : bits.foldl (divide poly) 0#w = 0#w) : ∀ b ∈ bits, b = false := by
  have hout : ∀ i b, bits[i]? = some b → ¬ (k ≤ i ∧ i < k + w) → b = false := by
    intro i b hi hnot
    cases b with
    | false => rfl
    | true => exact absurd (hburst i hi) hnot
  have hbefore : ∀ b ∈ bits.take k, b = false := by
    intro b hb
    obtain ⟨i, hi⟩ := List.mem_iff_getElem?.mp hb
    rw [List.getElem?_take] at hi
    split at hi
    · exact hout i b hi (by omega)
    · cases hi
  have hafter : ∀ b ∈ bits.drop (k + w), b = false := by
    intro b hb
    obtain ⟨i, hi⟩ := List.mem_iff_getElem?.mp hb
    rw [List.getElem?_drop] at hi
    exact hout _ b hi (by omega)
  have hsplit : bits = bits.take k ++ ((bits.drop k).take w ++ bits.drop (k + w)) := by
    rw [← List.drop_drop, List.take_append_drop, List.take_append_drop]
  rw [hsplit, List.foldl_append, foldl_divide_false poly hbefore, List.foldl_append] at h
  have hmiddle := eq_false_of_short hpoly (List.length_take_le _ _)
    (eq_zero_of_foldl_false hpoly hafter h)
  intro b hb
  rw [hsplit] at hb
  rcases List.mem_append.mp hb with hb | hb
  · exact hbefore b hb
  · exact (List.mem_append.mp hb).elim (hmiddle b) (hafter b)

end Burst

end OtaLink.Lib.Crc
