import Mathlib.Algebra.GroupWithZero.Nat
import Mathlib.Data.List.Basic
import Mathlib.Tactic.Common

/-!
# Fixed-capacity rings that overwrite their oldest entry

A ring of `n` slots and a write position. Insertion fills the slot at the write
position and advances it, so the `n`-th insertion after an entry overwrites it.
Searching runs over the slots by index, not by age, and returns the first match.

`Recent r h` says that the last insertions into a ring were `h`, newest first, whatever
came before them. An entry is live until `n` others have been inserted after it.

## Main definitions

* `Ring α n` — the slots and the write position.
* `Ring.insert`, `Ring.find?` — the operations.
* `Ring.Recent` — the recent insertions into a ring.
* `Ring.Recent.mem_entries` — an entry stays live until `n` later ones are inserted.
* `Ring.History` — all insertions into a ring.
* `Ring.ago` — the entry of an age.
-/

namespace OtaLink.Lib

/-- `n` slots and the index the next insertion writes to. -/
structure Ring (α : Type) (n : ℕ) where
  slots : Vector (Option α) n
  next : Fin n

namespace Ring
variable {α : Type} {n : ℕ}

/-- No slot is occupied and the first insertion writes slot zero. -/
def empty (n : ℕ) [NeZero n] : Ring α n := ⟨Vector.replicate n none, 0⟩

/-- Overwrite the slot at the write position and advance, wrapping at the end. -/
def insert (r : Ring α n) (a : α) : Ring α n :=
  ⟨r.slots.set r.next (some a), ⟨(r.next + 1) % n, Nat.mod_lt _ r.next.pos⟩⟩

/-- The occupied slots in index order. -/
def entries (r : Ring α n) : List α := r.slots.toList.filterMap id

/-- The first occupied slot, by index, whose entry satisfies `p`. -/
def find? (r : Ring α n) (p : α → Bool) : Option α := r.entries.find? p

/-- The slot written `k + 1` insertions ago. -/
def slotAgo (next n k : ℕ) : ℕ := if k < next then next - 1 - k else next + n - 1 - k

theorem slotAgo_lt {next k : ℕ} (hn : next < n) (hk : k < n) : slotAgo next n k < n := by
  unfold slotAgo
  split <;> omega

theorem slotAgo_succ {next k : ℕ} (hn : next < n) (hk : k + 1 < n) :
    slotAgo ((next + 1) % n) n (k + 1) = slotAgo next n k ∧ slotAgo next n k ≠ next := by
  have hmod : (next + 1) % n = if next + 1 = n then 0 else next + 1 := by
    split
    · simp [*]
    · exact Nat.mod_eq_of_lt (by omega)
  rw [hmod]
  unfold slotAgo
  split_ifs <;> omega

theorem slotAgo_zero {next : ℕ} (hn : next < n) : slotAgo ((next + 1) % n) n 0 = next := by
  have hmod : (next + 1) % n = if next + 1 = n then 0 else next + 1 := by
    split
    · simp [*]
    · exact Nat.mod_eq_of_lt (by omega)
  rw [hmod]
  unfold slotAgo
  split_ifs <;> omega

/-- The entry in one slot. -/
def slot (r : Ring α n) (i : ℕ) (hi : i < n) : Option α := r.slots[i]

theorem mem_entries {r : Ring α n} {a : α} : a ∈ r.entries ↔
    ∃ i, ∃ hi : i < n, r.slot i hi = some a := by
  simp only [slot, entries, List.mem_filterMap, id_eq, exists_eq_right, Vector.mem_toList_iff,
    Vector.mem_iff_getElem]

/-- The last insertions into the ring were `h`, newest first, whatever came before. -/
def Recent (r : Ring α n) (h : List α) : Prop :=
  ∀ k (hk : k < n) (hh : k < h.length),
    r.slot (slotAgo r.next n k) (slotAgo_lt r.next.isLt hk) = some h[k]

theorem recent_nil (r : Ring α n) : Recent r [] := fun _ _ hh => absurd hh (Nat.not_lt_zero _)

theorem Recent.insert {r : Ring α n} {h : List α} (H : Recent r h) (a : α) :
    Recent (r.insert a) (a :: h) := by
  intro k hk hh
  cases k with
  | zero =>
    have hz := slotAgo_zero r.next.isLt
    simp [slot, Ring.insert, hz]
  | succ k =>
    obtain ⟨hs, hne⟩ := slotAgo_succ r.next.isLt hk
    simp only [slot, Ring.insert, hs, List.getElem_cons_succ]
    rw [Vector.getElem_set_ne _ _ (Ne.symm hne)]
    exact H k (by omega) (by simpa using hh)

/-- An entry stays live until `n` later ones have been inserted. -/
theorem Recent.mem_entries {r : Ring α n} {later earlier : List α} {a : α}
    (H : Recent r (later ++ a :: earlier)) (hn : later.length < n) : a ∈ r.entries := by
  rw [Ring.mem_entries]
  refine ⟨_, slotAgo_lt r.next.isLt hn, ?_⟩
  rw [H later.length hn (by simp)]
  simp

/-- A search that fails has seen every live entry. -/
theorem find?_eq_none_iff {r : Ring α n} {p : α → Bool} :
    r.find? p = none ↔ ∀ a ∈ r.entries, p a = false := by
  simp [find?, List.find?_eq_none]

/-- An insertion adds one live entry and may overwrite one. -/
theorem mem_entries_insert {r : Ring α n} {a b : α} (h : b ∈ (r.insert a).entries) :
    b = a ∨ b ∈ r.entries := by
  rw [mem_entries] at h
  obtain ⟨i, hi, hb⟩ := h
  simp only [slot, Ring.insert, Vector.getElem_set] at hb
  split at hb
  · exact .inl (Option.some.inj hb).symm
  · exact .inr (mem_entries.mpr ⟨i, hi, hb⟩)

/-- The newest entry is always live. -/
theorem mem_entries_insert_self (r : Ring α n) (a : α) : a ∈ (r.insert a).entries :=
  mem_entries.mpr ⟨r.next, r.next.isLt, by simp [slot, Ring.insert]⟩

@[simp] theorem entries_empty [NeZero n] : (empty n : Ring α n).entries = [] := by
  simp [entries, empty]

/-- All that was ever inserted into the ring is `h`, newest first. -/
def History (r : Ring α n) (h : List α) : Prop :=
  ∀ k (hk : k < n), r.slot (slotAgo r.next n k) (slotAgo_lt r.next.isLt hk) = h[k]?

theorem history_empty [NeZero n] : (empty n : Ring α n).History [] := by
  intro k hk
  simp [slot, empty]

theorem History.insert {r : Ring α n} {h : List α} (H : r.History h) (a : α) :
    (r.insert a).History (a :: h) := by
  intro k hk
  cases k with
  | zero =>
    have hz := slotAgo_zero r.next.isLt
    simp [slot, Ring.insert, hz]
  | succ k =>
    obtain ⟨hs, hne⟩ := slotAgo_succ r.next.isLt hk
    simp only [slot, Ring.insert, hs, List.getElem?_cons_succ]
    rw [Vector.getElem_set_ne _ _ (Ne.symm hne)]
    exact H k (by omega)

/-- Every slot was written some number of insertions ago. -/
theorem exists_slotAgo {next i : ℕ} (hn : next < n) (hi : i < n) :
    ∃ k < n, slotAgo next n k = i := by
  by_cases h : i < next
  · exact ⟨next - 1 - i, by omega, by unfold slotAgo; split <;> omega⟩
  · exact ⟨next + n - 1 - i, by omega, by unfold slotAgo; split <;> omega⟩

/-- **The live entries are the last `n` that were inserted.** -/
theorem History.mem_entries {r : Ring α n} {h : List α} (H : r.History h) {a : α} :
    a ∈ r.entries ↔ ∃ k < n, h[k]? = some a := by
  rw [Ring.mem_entries]
  constructor
  · rintro ⟨i, hi, ha⟩
    obtain ⟨k, hk, rfl⟩ := exists_slotAgo r.next.isLt hi
    exact ⟨k, hk, (H k hk).symm.trans ha⟩
  · rintro ⟨k, hk, ha⟩
    exact ⟨_, slotAgo_lt r.next.isLt hk, (H k hk).trans ha⟩

theorem History.mem_take {r : Ring α n} {h : List α} (H : r.History h) {a : α} :
    a ∈ r.entries ↔ a ∈ h.take n := by
  rw [H.mem_entries]
  simp only [List.mem_iff_getElem?, List.getElem?_take]
  constructor
  · rintro ⟨k, hk, ha⟩
    exact ⟨k, by rwa [if_pos hk]⟩
  · rintro ⟨k, ha⟩
    split at ha
    · rename_i hk
      exact ⟨k, hk, ha⟩
    · cases ha

/-- What is live among all insertions is live among those of one kind. -/
theorem mem_take_filter {p : α → Bool} {a : α} (hp : p a = true) :
    ∀ {h : List α} {n : ℕ}, a ∈ h.take n → a ∈ (h.filter p).take n := by
  intro h
  induction h with
  | nil => simp
  | cons b h ih =>
    intro n ha
    cases n with
    | zero => simp at ha
    | succ n =>
      rw [List.take_succ_cons, List.mem_cons] at ha
      rcases ha with rfl | ha
      · simp [List.filter_cons_of_pos hp]
      · by_cases hb : p b = true
        · rw [List.filter_cons_of_pos hb, List.take_succ_cons]
          exact List.mem_cons_of_mem _ (ih ha)
        · rw [List.filter_cons_of_neg hb]
          exact (List.take_subset_take_left _ (Nat.le_succ n)) (ih ha)

/-- The entry inserted `k` insertions before the last one. -/
def ago (r : Ring α n) (k : ℕ) : Option α :=
  if hk : k < n then r.slot (slotAgo r.next n k) (slotAgo_lt r.next.isLt hk) else none

/-- The live entries are those of some age. -/
theorem mem_entries_iff_ago {r : Ring α n} {a : α} : a ∈ r.entries ↔ ∃ k < n, r.ago k = some a := by
  rw [mem_entries]
  constructor
  · rintro ⟨i, hi, ha⟩
    obtain ⟨k, hk, rfl⟩ := exists_slotAgo r.next.isLt hi
    exact ⟨k, hk, by rw [ago, dif_pos hk, ha]⟩
  · rintro ⟨k, hk, ha⟩
    rw [ago, dif_pos hk] at ha
    exact ⟨_, _, ha⟩

/-- The newest entry is the one inserted last. -/
theorem ago_insert_zero (r : Ring α n) (a : α) : (r.insert a).ago 0 = some a := by
  have hz := slotAgo_zero r.next.isLt
  rw [ago, dif_pos r.next.pos]
  simp [slot, Ring.insert, hz]

/-- An insertion makes every other entry one older. -/
theorem ago_insert_succ {r : Ring α n} {a : α} {k : ℕ} (hk : k + 1 < n) :
    (r.insert a).ago (k + 1) = r.ago k := by
  obtain ⟨hs, hne⟩ := slotAgo_succ r.next.isLt hk
  rw [ago, ago, dif_pos hk, dif_pos (by omega)]
  simp only [slot, Ring.insert, hs]
  rw [Vector.getElem_set_ne _ _ (Ne.symm hne)]

theorem History.ago {r : Ring α n} {h : List α} (H : r.History h) {k : ℕ} (hk : k < n) :
    r.ago k = h[k]? := by
  rw [Ring.ago, dif_pos hk]
  exact H k hk

theorem lt_of_ago {r : Ring α n} {k : ℕ} {a : α} (h : r.ago k = some a) : k < n := by
  unfold ago at h
  split at h
  · assumption
  · cases h

@[simp] theorem ago_empty [NeZero n] (k : ℕ) : (empty n : Ring α n).ago k = none := by
  simp [ago, slot, empty]

end Ring
end OtaLink.Lib
