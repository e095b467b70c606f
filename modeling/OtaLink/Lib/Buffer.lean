import Mathlib.Data.List.Basic
import Mathlib.Data.List.Infix
import Mathlib.Tactic.Common

/-!
# Buffers with checked access

A buffer of `n` cells, each of which may not have been written yet. An access beyond the
last cell, and a read of a cell that was never written, have no result, so a computation
that has a result makes neither. Code that fills a buffer from the front and then reads a
part of what it filled is described by `Begins`: the written front of the buffer.

## Main definitions

* `Buffer α n` — the cells.
* `Buffer.copy?`, `Buffer.store?`, `Buffer.read?`, `Buffer.load?` — checked accesses.
* `Buffer.Front`, `Buffer.Begins` — what the buffer begins with, with a rule for each
  access.
-/

namespace OtaLink.Lib

/-- `n` cells; an unwritten one holds nothing. -/
structure Buffer (α : Type) (n : ℕ) where
  cells : List (Option α)
  length_cells : cells.length = n

namespace Buffer
variable {α : Type} {n : ℕ}

/-- Nothing is written yet. -/
def blank (α : Type) (n : ℕ) : Buffer α n := ⟨List.replicate n none, List.length_replicate⟩

/-- Every cell holds `a`. -/
def filled (n : ℕ) (a : α) : Buffer α n :=
  ⟨List.replicate n (some a), List.length_replicate⟩

/-- Write `xs` from index `i` on. -/
def copy? (b : Buffer α n) (i : ℕ) (xs : List α) : Option (Buffer α n) :=
  if h : i + xs.length ≤ n then
    some ⟨b.cells.take i ++ (xs.map some ++ b.cells.drop (i + xs.length)), by
      have := b.length_cells
      simp only [List.length_append, List.length_take, List.length_map, List.length_drop]
      omega⟩
  else none

/-- Write one cell. -/
def store? (b : Buffer α n) (i : ℕ) (a : α) : Option (Buffer α n) := b.copy? i [a]

/-- Read `len` cells from index `i` on. -/
def read? (b : Buffer α n) (i len : ℕ) : Option (List α) :=
  if i + len ≤ n then ((b.cells.drop i).take len).mapM id else none

/-- Read one cell. -/
def load? (b : Buffer α n) (i : ℕ) : Option α :=
  if i < n then (b.cells[i]?).join else none

/-- What the front of the buffer is, cell by cell. -/
def Front (b : Buffer α n) (cs : List (Option α)) : Prop := cs <+: b.cells

/-- The cells of the front hold `xs`. -/
def Begins (b : Buffer α n) (xs : List α) : Prop := b.Front (xs.map some)

variable {b : Buffer α n} {cs ds : List (Option α)} {xs ys : List α}

theorem front_nil (b : Buffer α n) : b.Front [] := List.nil_prefix
theorem begins_nil (b : Buffer α n) : b.Begins [] := List.nil_prefix

theorem Front.length_le (h : b.Front cs) : cs.length ≤ n := by
  have hle := List.IsPrefix.length_le h
  rwa [b.length_cells] at hle

theorem Begins.length_le (h : b.Begins xs) : xs.length ≤ n := by
  have hle := Front.length_le h
  rwa [List.length_map] at hle

theorem Begins.of_append (h : b.Begins (xs ++ ys)) : b.Begins xs := by
  rw [Begins, List.map_append] at h
  exact (List.prefix_append _ _).trans h

/-- Some cell follows a front that is not the whole buffer. -/
theorem Front.next (h : b.Front cs) (hlt : cs.length < n) : ∃ c, b.Front (cs ++ [c]) := by
  obtain ⟨rest, hrest⟩ := h
  rcases rest with _ | ⟨c, rest⟩
  · rw [List.append_nil] at hrest
    rw [← b.length_cells, ← hrest] at hlt
    omega
  · exact ⟨c, rest, by rw [← hrest, List.append_assoc]; rfl⟩

/-- **Appending to the front.** -/
theorem Front.copy (h : b.Front cs) (ys : List α) (hfit : cs.length + ys.length ≤ n) :
    ∃ b', b.copy? cs.length ys = some b' ∧ b'.Front (cs ++ ys.map some) := by
  refine ⟨_, dif_pos hfit, ?_⟩
  have htake : b.cells.take cs.length = cs := (List.prefix_iff_eq_take.mp h).symm
  simp only [Front, htake, ← List.append_assoc]
  exact List.prefix_append _ _

/-- **Filling in a cell that was passed over.** -/
theorem Front.patch {c : Option α} (h : b.Front (cs ++ c :: ds)) (a : α) :
    ∃ b', b.store? cs.length a = some b' ∧ b'.Front (cs ++ some a :: ds) := by
  have hle := h.length_le
  rw [List.length_append, List.length_cons] at hle
  have hfit : cs.length + [a].length ≤ n := by
    rw [List.length_singleton]
    omega
  refine ⟨_, dif_pos hfit, ?_⟩
  obtain ⟨rest, hrest⟩ := h
  refine ⟨rest, ?_⟩
  have htake : b.cells.take cs.length = cs := by
    rw [← hrest, List.append_assoc, List.take_left]
  have hdrop : b.cells.drop (cs.length + [a].length) = ds ++ rest := by
    rw [← hrest, List.append_assoc, List.drop_append]
    simp
  simp only [htake, hdrop, List.map_singleton, List.append_assoc, List.cons_append,
    List.nil_append]

theorem Begins.copy (h : b.Begins xs) (ys : List α) (hfit : xs.length + ys.length ≤ n) :
    ∃ b', b.copy? xs.length ys = some b' ∧ b'.Begins (xs ++ ys) := by
  have hcopy := Front.copy h ys (by rwa [List.length_map])
  rwa [List.length_map, ← List.map_append] at hcopy

/-- **Writing over a part of the front.** -/
theorem Begins.overwrite {ws : List α} (h : b.Begins (xs ++ (ys ++ ws))) (zs : List α)
    (hlen : zs.length = ys.length) :
    ∃ b', b.copy? xs.length zs = some b' ∧ b'.Begins (xs ++ (zs ++ ws)) := by
  have hle := h.length_le
  simp only [List.length_append] at hle
  refine ⟨_, dif_pos (by omega), ?_⟩
  obtain ⟨rest, hrest⟩ := h
  refine ⟨rest, ?_⟩
  have hx : xs.length = (xs.map some).length := (List.length_map _).symm
  have hxy : xs.length + zs.length = (xs.map some ++ ys.map some).length := by
    simp [hlen]
  have htake : b.cells.take xs.length = xs.map some := by
    rw [← hrest, List.map_append, List.append_assoc, hx, List.take_left]
  have hdrop : b.cells.drop (xs.length + zs.length) = ws.map some ++ rest := by
    rw [← hrest, List.map_append, List.map_append, ← List.append_assoc (xs.map some), hxy,
      List.append_assoc, List.drop_left]
  simp only [htake, hdrop, List.map_append, List.append_assoc]

/-- Writing one cell of the front. -/
theorem Begins.set (h : b.Begins xs) {i : ℕ} (hi : i < xs.length) (a : α) :
    ∃ b', b.store? i a = some b' ∧ b'.Begins (xs.set i a) := by
  have hsplit : xs.take i ++ ([xs[i]] ++ xs.drop (i + 1)) = xs := by
    rw [List.singleton_append, List.getElem_cons_drop, List.take_append_drop]
  obtain ⟨b', hb', hbegins⟩ := (hsplit.symm ▸ h).overwrite [a] rfl
  refine ⟨b', ?_, ?_⟩
  · rwa [List.length_take, Nat.min_eq_left hi.le] at hb'
  · rw [List.set_eq_take_append_cons_drop, if_pos hi]
    exact hbegins

theorem begins_filled (n : ℕ) (a : α) : (filled n a).Begins (List.replicate n a) := by
  rw [Begins, List.map_replicate]
  exact List.prefix_refl _

theorem Begins.store (h : b.Begins xs) (a : α) (hfit : xs.length < n) :
    ∃ b', b.store? xs.length a = some b' ∧ b'.Begins (xs ++ [a]) := h.copy [a] hfit

theorem mapM_id_map_some (xs : List α) : (xs.map some).mapM id = some xs := by
  induction xs with
  | nil => rfl
  | cons a xs ih => simp [List.mapM_cons, ih]

/-- **Reading a part of the front.** -/
theorem Begins.read (h : b.Begins xs) {i len : ℕ} (hfit : i + len ≤ xs.length) :
    b.read? i len = some ((xs.drop i).take len) := by
  have hle := h.length_le
  obtain ⟨rest, hrest⟩ := h
  have hcells : (b.cells.drop i).take len = ((xs.drop i).take len).map some := by
    rw [← hrest, List.drop_append_of_le_length (by rw [List.length_map]; omega),
      List.take_append_of_le_length (by rw [List.length_drop, List.length_map]; omega),
      List.map_take, List.map_drop]
  rw [read?, if_pos (by omega), hcells, mapM_id_map_some]

theorem Begins.read_all (h : b.Begins xs) : b.read? 0 xs.length = some xs := by
  rw [h.read (by omega), List.drop_zero, List.take_length]

theorem Begins.load (h : b.Begins xs) {i : ℕ} (hi : i < xs.length) : b.load? i = xs[i]? := by
  have hle := h.length_le
  obtain ⟨rest, hrest⟩ := h
  rw [load?, if_pos (by omega), ← hrest, List.getElem?_append_left (by rwa [List.length_map]),
    List.getElem?_map]
  cases xs[i]? <;> rfl

end Buffer
end OtaLink.Lib
