import Mathlib.Data.List.Infix
import Mathlib.Tactic.Common

/-!
# Scanners of a stream

A scanner looks at the octets it holds and says nothing yet, or drops some of them from
the front and may hand on what they were. What it says of a buffer it also says once more
octets have arrived, so a stream may be cut anywhere: scanning it piece by piece gives
what scanning it whole gives.

## Main definitions

* `Scanner` — a rule that judges the front of a buffer, with its stability.
* `Scanner.scan` — apply the rule until it has nothing to say.
* `Scanner.scan_append` — scanning in two pieces is scanning once.
* `Scanner.feedAll_eq` — however a stream is cut, its pieces give what the whole gives.
* `Embeds`, `Scanner.scan_embeds` — what is handed on lies in the stream, piece after piece.
-/

namespace OtaLink.Lib

/-- A rule for the front of a buffer: `none` waits for more input, `some (n, p)` drops `n`
octets and hands on `p`. -/
structure Scanner (α π : Type*) where
  judge : List α → Option (ℕ × Option π)
  bound : ∀ {b n p}, judge b = some (n, p) → 0 < n ∧ n ≤ b.length
  stable : ∀ {b v} (t : List α), judge b = some v → judge (b ++ t) = some v

namespace Scanner
variable {α π : Type*}

/-- What is left of the buffer and what was handed on, once the rule has nothing to say. -/
def scan (S : Scanner α π) (b : List α) : List α × List π :=
  match _h : S.judge b with
  | none => (b, [])
  | some (n, p) => ((S.scan (b.drop n)).1, p.toList ++ (S.scan (b.drop n)).2)
termination_by b.length
decreasing_by all_goals (have hdrop := S.bound _h; simp only [List.length_drop]; omega)

variable {S : Scanner α π} {b : List α}

theorem scan_of_wait (h : S.judge b = none) : S.scan b = (b, []) := by
  rw [scan]
  split
  · rfl
  · rename_i heq
    rw [h] at heq
    cases heq

theorem scan_of_drop {n : ℕ} {p : Option π} (h : S.judge b = some (n, p)) :
    S.scan b = ((S.scan (b.drop n)).1, p.toList ++ (S.scan (b.drop n)).2) := by
  rw [scan]
  split
  · rename_i heq
    rw [h] at heq
    cases heq
  · rename_i heq
    rw [h] at heq
    cases heq
    rfl

theorem scan_nil : S.scan [] = ([], []) := by
  refine scan_of_wait ?_
  cases h : S.judge [] with
  | none => rfl
  | some v =>
    have hbound := S.bound (show S.judge [] = some (v.1, v.2) from h)
    rw [List.length_nil] at hbound
    omega

/-- Induction on the drops of a scan. -/
theorem scan_induction {motive : List α → Prop} (b : List α)
    (wait : ∀ b, S.judge b = none → motive b)
    (drop : ∀ b n p, S.judge b = some (n, p) → motive (b.drop n) → motive b) : motive b := by
  induction b using scan.induct (S := S) with
  | case1 b h => exact wait b h
  | case2 b n p h ih => exact drop b n p h ih

/-- The rule has nothing to say of what a scan leaves. -/
theorem judge_scan (b : List α) : S.judge (S.scan b).1 = none := by
  induction b using scan_induction (S := S) with
  | wait b h => rwa [scan_of_wait h]
  | drop b n p h ih => rwa [scan_of_drop h]

/-- A part of what the rule drops whole is kept. -/
theorem scan_of_prefix {t : List α} {p : Option π}
    (h : S.judge (b ++ t) = some ((b ++ t).length, p)) (ht : t ≠ []) : S.scan b = (b, []) := by
  refine scan_of_wait ?_
  cases hb : S.judge b with
  | none => rfl
  | some v =>
    have hv := S.stable t hb
    rw [h, Option.some.injEq] at hv
    have hbound := (S.bound (hv ▸ hb)).2
    rw [List.length_append] at hbound
    have hpos := List.length_pos_iff.mpr ht
    omega

theorem scan_suffix (b : List α) : (S.scan b).1 <:+ b := by
  induction b using scan_induction (S := S) with
  | wait b h => rw [scan_of_wait h]
  | drop b n p h ih =>
    rw [scan_of_drop h]
    exact ih.trans (List.drop_suffix n b)

theorem length_scan_le (b : List α) : (S.scan b).1.length ≤ b.length :=
  (scan_suffix b).length_le

/-- **Scanning in two pieces is scanning once.** -/
theorem scan_append (b t : List α) :
    S.scan (b ++ t) =
      ((S.scan ((S.scan b).1 ++ t)).1, (S.scan b).2 ++ (S.scan ((S.scan b).1 ++ t)).2) := by
  induction b using scan_induction (S := S) with
  | wait b h => rw [scan_of_wait h, List.nil_append]
  | drop b n p h ih =>
    have hn : n ≤ b.length := (S.bound h).2
    rw [scan_of_drop (S.stable t h), List.drop_append_of_le_length hn, ih, scan_of_drop h,
      List.append_assoc]

/-- Feed pieces of a stream one after another, keeping what is left of each scan. -/
def feedAll (S : Scanner α π) (b : List α) : List (List α) → List α × List π
  | [] => (b, [])
  | c :: cs =>
    ((feedAll S (S.scan (b ++ c)).1 cs).1,
      (S.scan (b ++ c)).2 ++ (feedAll S (S.scan (b ++ c)).1 cs).2)

/-- **However a stream is cut, its pieces give what the whole gives.** -/
theorem feedAll_eq (h : S.judge b = none) (cs : List (List α)) :
    S.feedAll b cs = S.scan (b ++ cs.flatten) := by
  induction cs generalizing b with
  | nil => rw [List.flatten_nil, List.append_nil, scan_of_wait h]; rfl
  | cons c cs ih =>
    rw [feedAll, ih (judge_scan _), List.flatten_cons, ← List.append_assoc, scan_append (b ++ c)]

end Scanner

/-! ## Pieces of a stream -/

/-- The encodings of these packets lie in the stream one after another, with anything before,
between and after them. -/
inductive Embeds {α π : Type*} (enc : π → List α) : List α → List π → Prop
  | nil (tail : List α) : Embeds enc tail []
  | cons (gap : List α) (p : π) {rest : List α} {ps : List π} (h : Embeds enc rest ps) :
      Embeds enc (gap ++ (enc p ++ rest)) (p :: ps)

section Embeds
variable {α π : Type*} {enc : π → List α} {b : List α} {ps : List π}

theorem Embeds.prepend (h : Embeds enc b ps) (gap : List α) : Embeds enc (gap ++ b) ps := by
  cases h with
  | nil => exact .nil _
  | cons gap' p h =>
    rw [← List.append_assoc]
    exact .cons (gap ++ gap') p h

/-- **What a scan hands on lies in the stream**, if what the rule hands on is what it drops. -/
theorem Scanner.scan_embeds {S : Scanner α π}
    (h : ∀ {b n p}, S.judge b = some (n, some p) → b.take n = enc p) (b : List α) :
    Embeds enc b (S.scan b).2 := by
  induction b using Scanner.scan_induction (S := S) with
  | wait b hb =>
    rw [Scanner.scan_of_wait hb]
    exact .nil b
  | drop b n p hb ih =>
    rw [Scanner.scan_of_drop hb]
    have hsplit : b.take n ++ b.drop n = b := List.take_append_drop n b
    cases p with
    | none =>
      have hgap := ih.prepend (b.take n)
      rwa [hsplit] at hgap
    | some p =>
      have hcons : Embeds enc ([] ++ (enc p ++ b.drop n)) (p :: (S.scan (b.drop n)).2) :=
        .cons [] p ih
      rwa [List.nil_append, ← h hb, hsplit] at hcons

end Embeds
end OtaLink.Lib
