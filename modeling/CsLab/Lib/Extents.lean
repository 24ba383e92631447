/-
Extents of a memory and their packing.

A family of extents gives for every index `i` the place `off i` and the length
`len i` of a record in a memory `m : ℕ → α`; an extent of length `0` is dead.
The file has the two facts that a compacting store needs:

* extents that do not overlap and lie between `lo` and `hi` have a total length
  of at most `hi - lo` (`sum_len_le`);
* moving the extents one after another, in the order of their indices, to the
  places `base, base + len 0, base + len 0 + len 1, …` keeps the contents of all
  of them if and only if `Safe` holds (`intact_iff_safe`).

The second point is about the order of the moves: a move writes over memory that
may still hold an extent that was not moved yet.  `ideal` is the memory after
moving all extents at once, and `Safe` asks that every cell of an extent which
lies below the new place of that extent holds already what `ideal` has there.
-/
import Mathlib.Algebra.BigOperators.Group.Finset.Basic
import Mathlib.Algebra.Order.BigOperators.Group.Finset
import Mathlib.Order.Interval.Finset.Nat

namespace CsLab

namespace Extents

open Finset

variable {α : Type*} {off len : ℕ → ℕ} {n lo hi : ℕ}

/-! ### Total length -/

/-- Two extents do not overlap. -/
def Apart (off len : ℕ → ℕ) (i j : ℕ) : Prop :=
  off i + len i ≤ off j ∨ off j + len j ≤ off i

/-- Live extents between `lo` and `hi` that do not overlap fit in `hi - lo`. -/
theorem sum_len_le (hlohi : lo ≤ hi)
    (hin : ∀ i < n, len i ≠ 0 → lo ≤ off i ∧ off i + len i ≤ hi)
    (hapart : ∀ i < n, ∀ j < n, i ≠ j → len i ≠ 0 → len j ≠ 0 → Apart off len i j) :
    lo + ∑ i ∈ range n, len i ≤ hi := by
  have hdisj : ((range n : Finset ℕ) : Set ℕ).PairwiseDisjoint
      fun i => Ico (off i) (off i + len i) := by
    intro i hi j hj hij
    simp only [coe_range, Set.mem_Iio] at hi hj
    rw [Function.onFun, disjoint_left]
    intro x hxi hxj
    rw [mem_Ico] at hxi hxj
    rcases hapart i hi j hj hij (by omega) (by omega) with h | h <;> omega
  have hsub : ((range n).biUnion fun i => Ico (off i) (off i + len i)) ⊆ Ico lo hi := by
    intro x hx
    obtain ⟨i, hi, hxi⟩ := mem_biUnion.mp hx
    rw [mem_Ico] at hxi ⊢
    have hbound := hin i (mem_range.mp hi) (by omega)
    omega
  have hcard := card_le_card hsub
  rw [card_biUnion hdisj, Nat.card_Ico] at hcard
  have hlen : ∑ i ∈ range n, (Ico (off i) (off i + len i)).card = ∑ i ∈ range n, len i :=
    sum_congr rfl fun i _ => by rw [Nat.card_Ico, Nat.add_sub_cancel_left]
  omega

/-! ### Packed places -/

/-- The place of the extent `i` after packing from `base` on. -/
def place (base : ℕ) (len : ℕ → ℕ) (i : ℕ) : ℕ := base + ∑ k ∈ range i, len k

lemma place_succ (base : ℕ) (len : ℕ → ℕ) (i : ℕ) :
    place base len (i + 1) = place base len i + len i := by
  rw [place, place, sum_range_succ, Nat.add_assoc]

lemma place_mono (base : ℕ) (len : ℕ → ℕ) {i j : ℕ} (h : i ≤ j) :
    place base len i ≤ place base len j := by
  induction j, h using Nat.le_induction with
  | base => exact Nat.le_refl _
  | succ j _ ih => rw [place_succ]; omega

lemma place_add_len_le (base : ℕ) (len : ℕ → ℕ) {i j : ℕ} (h : i < j) :
    place base len i + len i ≤ place base len j := by
  rw [← place_succ]
  exact place_mono base len h

/-! ### Moving the extents one after another -/

/-- The memory after `memmove(m + dst, m + src, len)`. -/
def move (m : ℕ → α) (dst src len : ℕ) : ℕ → α :=
  fun x => if dst ≤ x ∧ x < dst + len then m (src + (x - dst)) else m x

variable (base : ℕ) (off len) (m : ℕ → α)

/-- The memory after the first `i` extents were moved to their places, one after
another. -/
def pack : ℕ → ℕ → α
  | 0 => m
  | i + 1 => move (pack i) (place base len i) (off i) (len i)

/-- The memory with the first `i` extents at their places, all contents taken from
the memory before any move. -/
def ideal : ℕ → ℕ → α
  | 0, x => m x
  | i + 1, x =>
      if place base len i ≤ x ∧ x < place base len i + len i then m (off i + (x - place base len i))
      else ideal i x

/-- After `n` moves every extent has kept its contents. -/
def Intact (n : ℕ) : Prop :=
  ∀ j < n, ∀ t < len j, pack off len base m n (place base len j + t) = m (off j + t)

/-- Every cell of an extent that lies below the new place of the extent holds
what packing puts there. -/
def Safe (n : ℕ) : Prop :=
  ∀ j < n, ∀ t < len j, off j + t < place base len j →
    ideal off len base m n (off j + t) = m (off j + t)

instance [DecidableEq α] (n : ℕ) : Decidable (Safe off len base m n) :=
  inferInstanceAs (Decidable (∀ j < n, ∀ t < len j, _ → _))

variable {base off len m}

/-- The moves of the first `i` extents write below `place i` only. -/
lemma pack_of_place_le {i x : ℕ} (h : place base len i ≤ x) : pack off len base m i x = m x := by
  induction i with
  | zero => rfl
  | succ i ih =>
    rw [place_succ] at h
    rw [pack, move, if_neg (by omega), ih (by omega)]

/-- Extents that are in place already stay there. -/
lemma pack_of_packed (h : ∀ j < n, len j ≠ 0 → off j = place base len j) (x : ℕ) :
    pack off len base m n x = m x := by
  induction n with
  | zero => rfl
  | succ n ih =>
    rw [pack, move]
    split
    · next hx =>
      rw [h n (Nat.lt_succ_self n) (by omega), Nat.add_sub_cancel' hx.1]
      exact ih fun j hj => h j (by omega)
    · exact ih fun j hj => h j (by omega)

/-- What lies below `place i` is not touched after the first `i` moves. -/
lemma pack_of_lt_place {i j x : ℕ} (hij : i ≤ j) (h : x < place base len i) :
    pack off len base m j x = pack off len base m i x := by
  induction j, hij using Nat.le_induction with
  | base => rfl
  | succ j hj ih =>
    have hmono := place_mono base len hj
    rw [pack, move, if_neg (by omega), ih]

/-- The contents of an extent after packing are what its place in memory held at the
moment it was moved. -/
lemma pack_place_add {j t : ℕ} (hj : j < n) (ht : t < len j) :
    pack off len base m n (place base len j + t) = pack off len base m j (off j + t) := by
  have hlt : place base len j + t < place base len (j + 1) := by
    rw [place_succ]
    omega
  rw [pack_of_lt_place hj hlt, pack, move, if_pos (by omega), Nat.add_sub_cancel_left]

lemma ideal_of_lt_place {i j x : ℕ} (hij : i ≤ j) (h : x < place base len i) :
    ideal off len base m j x = ideal off len base m i x := by
  induction j, hij using Nat.le_induction with
  | base => rfl
  | succ j hj ih =>
    have hmono := place_mono base len hj
    rw [ideal, if_neg (by omega), ih]

/-- Once the first `i` extents are intact, the memory is the ideal one. -/
lemma pack_eq_ideal {i : ℕ}
    (h : ∀ j < i, ∀ t < len j,
      pack off len base m i (place base len j + t) = m (off j + t)) (x : ℕ) :
    pack off len base m i x = ideal off len base m i x := by
  induction i with
  | zero => rfl
  | succ i ih =>
    by_cases hx : place base len i ≤ x ∧ x < place base len i + len i
    · have hxi := h i (Nat.lt_succ_self i) (x - place base len i) (by omega)
      rw [Nat.add_sub_cancel' hx.1] at hxi
      rw [hxi, ideal, if_pos hx]
    · rw [pack, move, if_neg hx, ideal, if_neg hx]
      refine ih fun j hj t ht => ?_
      have hlt : place base len j + t < place base len i := by
        have := place_add_len_le base len hj
        omega
      rw [← pack_of_lt_place (Nat.le_succ i) hlt]
      exact h j (by omega) t ht

/-- **Packing in the order of the indices** keeps all contents exactly when the
layout is safe. -/
theorem intact_iff_safe : Intact off len base m n ↔ Safe off len base m n := by
  constructor
  · intro h j hj t ht hlt
    rw [← pack_eq_ideal h, pack_of_lt_place (Nat.le_of_lt hj) hlt, ← pack_place_add hj ht]
    exact h j hj t ht
  · intro h j
    -- by strong induction on the index: the extents below `j` are in place when
    -- `j` is moved, so the memory it is read from is the ideal one
    induction j using Nat.strong_induction_on with
    | _ j ih =>
      intro hj t ht
      rw [pack_place_add hj ht]
      rcases Nat.lt_or_ge (off j + t) (place base len j) with hlt | hge
      · have hprev : ∀ k < j, ∀ s < len k,
            pack off len base m j (place base len k + s) = m (off k + s) := by
          intro k hk s hs
          have hlt' : place base len k + s < place base len j := by
            have := place_add_len_le base len hk
            omega
          rw [← pack_of_lt_place (Nat.le_of_lt hj) hlt']
          exact ih k hk (by omega) s hs
        rw [pack_eq_ideal hprev, ← ideal_of_lt_place (Nat.le_of_lt hj) hlt]
        exact h j hj t ht hlt
      · exact pack_of_place_le hge

end Extents

end CsLab
