/-
The peak of a quantity along a run.

A run is a `foldl` of a step function, and its moments are the states between two steps.
The rule of the file (`Peak.eq_peak`) is for a high-water mark: a quantity of the state
that every step raises to the observed one, if that is higher.
-/
import Mathlib.Data.Finset.Lattice.Fold
import Mathlib.Order.Interval.Finset.Nat
import Mathlib.Order.Lattice.Nat

namespace CsLab

namespace Peak

open Finset

variable {S O : Type*} (step : S → O → S) (f : S → ℕ) (s : S)

/-- The highest value of `f` at a moment of the run. -/
def peak (os : List O) : ℕ :=
  (range (os.length + 1)).sup fun k => f ((os.take k).foldl step s)

@[simp] lemma peak_nil : peak step f s [] = f s := by
  simp [peak]

lemma peak_append_singleton (os : List O) (o : O) :
    peak step f s (os ++ [o]) =
      max (peak step f s os) (f ((os ++ [o]).foldl step s)) := by
  rw [peak, List.length_append, List.length_singleton, range_add_one, sup_insert, sup_comm, peak]
  congr 1
  · refine sup_congr rfl fun k hk => ?_
    rw [List.take_append_of_le_length (by simpa [Nat.lt_succ_iff] using hk)]
  · rw [List.take_of_length_le (by simp)]

variable {step f s}

/-- **A high-water mark** is the peak of what it observes, whatever the run. -/
theorem eq_peak {mark : S → ℕ} (hstart : mark s = f s)
    (hstep : ∀ (os : List O) (o : O), mark (step (os.foldl step s) o) =
      max (mark (os.foldl step s)) (f (step (os.foldl step s) o))) (os : List O) :
    mark (os.foldl step s) = peak step f s os := by
  induction os using List.reverseRecOn with
  | nil => rw [peak_nil]; exact hstart
  | append_singleton os o ih =>
    rw [peak_append_singleton, ← ih, List.foldl_append]
    exact hstep os o

end Peak

end CsLab
