/-
Running imperative code.

The code of a function is a program of core's state monad `StateM σ`, and running
it is applying it to a state.  The lemmas here push that application through the
constructs of a `do` block, and `Keeps` is the rule for what a program preserves.
-/
import Mathlib.Tactic.Common

namespace CsLab

namespace Prog

variable {σ α β : Type}

@[simp] lemma run_bind (x : StateM σ α) (f : α → StateM σ β) (s : σ) :
    (x >>= f) s = f (x s).1 (x s).2 := (rfl)

@[simp] lemma run_pure (a : α) (s : σ) : (pure a : StateM σ α) s = (a, s) := (rfl)

@[simp] lemma run_map (f : α → β) (x : StateM σ α) (s : σ) :
    (f <$> x) s = (f (x s).1, (x s).2) := (rfl)

@[simp] lemma run_ite (c : Prop) [Decidable c] (x y : StateM σ α) (s : σ) :
    (if c then x else y : StateM σ α) s = if c then x s else y s := by
  split <;> rfl

/-- Every run of the program leads from a state with `I` to a state with `I`. -/
def Keeps (I : σ → Prop) (x : StateM σ α) : Prop := ∀ s, I s → I (x s).2

variable {I : σ → Prop}

lemma Keeps.pure (a : α) : Keeps I (Pure.pure a : StateM σ α) := fun _ h => h

lemma Keeps.bind {x : StateM σ α} {f : α → StateM σ β} (hx : Keeps I x)
    (hf : ∀ a, Keeps I (f a)) : Keeps I (x >>= f) :=
  fun s h => hf _ _ (hx s h)

lemma Keeps.ite {c : Prop} [Decidable c] {x y : StateM σ α} (hx : Keeps I x) (hy : Keeps I y) :
    Keeps I (if c then x else y) := by
  split
  · exact hx
  · exact hy

end Prog

end CsLab
