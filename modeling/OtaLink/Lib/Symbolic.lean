import Mathlib.Data.List.Basic
import Mathlib.Tactic.Common

/-!
# Symbolic octets

Octet strings in which the output of a keyed MAC and of a hash is a term rather than a
number. Distinct inputs give distinct terms, so both functions are injective, also in
each single octet of their output, and a MAC under an unknown key cannot be forged.

`Derives known t` says that an attacker who has seen `known` can produce `t`: literal
octets are public, and MACs and hashes can be computed from derivable inputs only.

## Main definitions

* `Sym α` — octets over literals `α`, and the packed strings they are made of.
* `mac`, `sha` — 32 symbolic octets.
* `Derives` — what can be produced from what has been seen.
* `derives_mac_iff` — a MAC octet is seen, or its key and its message are derivable.
-/

namespace OtaLink.Lib

/-- Symbolic octets; `nil` and `cons` pack a string of octets into one term. -/
inductive Sym (α : Type)
  | lit (a : α)
  /-- An octet of a long-term secret. -/
  | secret (i : ℕ)
  /-- An octet of the MAC of a packed key and a packed message. -/
  | macAt (key message : Sym α) (i : ℕ)
  /-- An octet of the hash of a packed message. -/
  | shaAt (message : Sym α) (i : ℕ)
  | nil
  | cons (a s : Sym α)
  deriving DecidableEq

namespace Sym
variable {α : Type}

/-- A string as one term. -/
def pack : List (Sym α) → Sym α
  | [] => nil
  | a :: as => cons a (pack as)

theorem pack_injective : Function.Injective (pack : List (Sym α) → Sym α) := by
  intro xs
  induction xs with
  | nil => intro ys h; cases ys with
    | nil => rfl
    | cons y ys => cases h
  | cons x xs ih => intro ys h; cases ys with
    | nil => cases h
    | cons y ys =>
      simp only [pack, cons.injEq] at h
      rw [h.1, ih h.2]

@[simp] theorem pack_inj {xs ys : List (Sym α)} : pack xs = pack ys ↔ xs = ys :=
  pack_injective.eq_iff

/-- The MAC of a message under a key. -/
def mac (key message : List (Sym α)) : List (Sym α) :=
  (List.range 32).map (macAt (pack key) (pack message))

/-- The hash of a message. -/
def sha (message : List (Sym α)) : List (Sym α) := (List.range 32).map (shaAt (pack message))

@[simp] theorem length_mac (key message : List (Sym α)) : (mac key message).length = 32 := by
  simp [mac]
@[simp] theorem length_sha (message : List (Sym α)) : (sha message).length = 32 := by simp [sha]

/-- A nonempty prefix of a MAC determines its key and its message. -/
theorem take_mac_inj {n : ℕ} (hn : 0 < n) {k m k' m' : List (Sym α)} :
    (mac k m).take n = (mac k' m').take n ↔ k = k' ∧ m = m' := by
  constructor
  · intro h
    have h0 := congrArg (·[0]?) h
    simp only [mac, List.getElem?_take, hn, if_true, List.getElem?_map] at h0
    simpa using h0
  · rintro ⟨rfl, rfl⟩
    rfl

theorem mac_inj {k m k' m' : List (Sym α)} : mac k m = mac k' m' ↔ k = k' ∧ m = m' := by
  have h := @take_mac_inj α 32 (by omega) k m k' m'
  simpa [List.take_of_length_le] using h

theorem sha_inj {m m' : List (Sym α)} : sha m = sha m' ↔ m = m' := by
  constructor
  · intro h
    have h0 := congrArg (·[0]?) h
    simpa [sha] using h0
  · rintro rfl
    rfl

/-- A term that stands for one octet. -/
def IsOctet : Sym α → Prop
  | nil | cons .. => False
  | _ => True

/-- What can be produced from the octets in `known`. -/
inductive Derives (known : Sym α → Prop) : Sym α → Prop
  | seen {t} (h : known t) (ho : t.IsOctet) : Derives known t
  | lit (a) : Derives known (.lit a)
  | nil : Derives known .nil
  | cons {a s} (ha : Derives known a) (hs : Derives known s) : Derives known (.cons a s)
  | mac {k m} (hk : Derives known k) (hm : Derives known m) (i) : Derives known (.macAt k m i)
  | sha {m} (hm : Derives known m) (i) : Derives known (.shaAt m i)

variable {known : Sym α → Prop}

theorem derives_pack {s : List (Sym α)} : Derives known (pack s) ↔ ∀ a ∈ s, Derives known a := by
  induction s with
  | nil => simpa [pack] using Derives.nil
  | cons a s ih =>
    simp only [pack, List.mem_cons, forall_eq_or_imp, ← ih]
    constructor
    · intro h
      cases h with
      | seen h ho => exact ho.elim
      | cons ha hs => exact ⟨ha, hs⟩
    · rintro ⟨ha, hs⟩
      exact .cons ha hs

/-- **Unforgeability.** A MAC octet is seen, or computed from its key and its message. -/
theorem derives_macAt_iff {k m : List (Sym α)} {i : ℕ} :
    Derives known (.macAt (pack k) (pack m) i) ↔
      known (.macAt (pack k) (pack m) i) ∨
        ((∀ a ∈ k, Derives known a) ∧ ∀ a ∈ m, Derives known a) := by
  rw [← derives_pack, ← derives_pack]
  constructor
  · intro h
    cases h with
    | seen h => exact .inl h
    | mac hk hm => exact .inr ⟨hk, hm⟩
  · rintro (h | ⟨hk, hm⟩)
    · exact .seen h trivial
    · exact .mac hk hm i

theorem exists_of_mem_mac {k m : List (Sym α)} {a : Sym α} (h : a ∈ mac k m) :
    ∃ i, a = macAt (pack k) (pack m) i := by
  obtain ⟨i, -, rfl⟩ := List.mem_map.mp h
  exact ⟨i, rfl⟩

theorem macAt_zero_mem_take {n : ℕ} (hn : 0 < n) (k m : List (Sym α)) :
    macAt (pack k) (pack m) 0 ∈ (mac k m).take n := by
  obtain ⟨n, rfl⟩ := Nat.exists_eq_succ_of_ne_zero (Nat.ne_of_gt hn)
  simp [mac, List.range_succ_eq_map]

/-- A prefix of a MAC under a key that cannot be derived has been seen. -/
theorem seen_of_derives_mac {n : ℕ} (hn : 0 < n) {k m : List (Sym α)}
    (hk : ¬∀ a ∈ k, Derives known a) (h : ∀ a ∈ (mac k m).take n, Derives known a) :
    known (macAt (pack k) (pack m) 0) := by
  rcases derives_macAt_iff.mp (h _ (macAt_zero_mem_take hn k m)) with h | h
  · exact h
  · exact absurd h.1 hk

/-- A secret octet is derivable only if it has been seen. -/
theorem derives_secret_iff {i : ℕ} : Derives known (.secret i) ↔ known (.secret i) := by
  constructor
  · intro h
    cases h with
    | seen h => exact h
  · exact fun h => .seen h trivial

/-- Derivation is closed: what is derivable from derivable octets is derivable. -/
theorem Derives.trans {known' : Sym α → Prop} {t : Sym α} (h : Derives known t)
    (hk : ∀ t, known t → Derives known' t) : Derives known' t := by
  induction h with
  | seen h => exact hk _ h
  | lit a => exact .lit a
  | nil => exact .nil
  | cons _ _ ha hs => exact .cons ha hs
  | mac _ _ i hk hm => exact .mac hk hm i
  | sha _ i hm => exact .sha hm i

theorem Derives.mono {known' : Sym α → Prop} {t : Sym α} (h : Derives known t)
    (hk : ∀ t, known t → known' t) : Derives known' t := by
  induction h with
  | seen h ho => exact .seen (hk _ h) ho
  | lit a => exact .lit a
  | nil => exact .nil
  | cons _ _ ha hs => exact .cons ha hs
  | mac _ _ i hk hm => exact .mac hk hm i
  | sha _ i hm => exact .sha hm i

end Sym
end OtaLink.Lib
