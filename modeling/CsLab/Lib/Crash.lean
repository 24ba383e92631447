/-
Calls that may be cut off.

A client makes calls on an object.  A call either returns or is killed, together with the
process that made it, and then nobody knows how far it came.  The calls of the object are atomic
if, even so, a killed call has either done nothing or all that it could have done when it
returned (`Atomically`).  A program has atomic calls if its runs are runs of the object.
-/
import CsLab.Lib.Run

namespace CsLab

namespace Crash

/-- What becomes of a call. -/
inductive Event (C R : Type*) where
  | returned (c : C) (ret : R)
  | killed (c : C)
deriving DecidableEq

variable {C R S T : Type*}

/-- The steps of an object; `does t c ret t'` says that the call `c` may return `ret` and take the
object from `t` to `t'`. -/
def Atomically (does : T → C → R → T → Prop) (t : T) : Event C R → T → Prop
  | .returned c ret, t' => does t c ret t'
  | .killed c, t' => t' = t ∨ ∃ ret, does t c ret t'

variable {step : S → Event C R → S → Prop} {does : T → C → R → T → Prop} {Rep : S → T → Prop}
  {s s' : S} {t t' : T} {es : List (Event C R)}

/-- **Simulation**: the runs of a program are runs of the object, if each of its steps is. -/
theorem exists_atomic_run
    (hstep : ∀ s e s' t, Rep s t → step s e s' → ∃ t', Atomically does t e t' ∧ Rep s' t')
    (hrep : Rep s t) (hrun : Run step s es s') :
    ∃ t', Run (Atomically does) t es t' ∧ Rep s' t' := by
  induction hrun generalizing t with
  | nil s => exact ⟨t, .nil t, hrep⟩
  | @cons s s₁ s' e es h _ ih =>
    obtain ⟨t₁, hdoes, hrep₁⟩ := hstep s e s₁ t hrep h
    obtain ⟨t', hrun', hrep'⟩ := ih hrep₁
    exact ⟨t', .cons hdoes hrun', hrep'⟩

/-- What every call of a run keeps, also when it is killed, stays true. -/
lemma keeps {I : T → Prop} (hrun : Run (Atomically does) t es t')
    (hkeeps : ∀ c ret, .returned c ret ∈ es ∨ .killed c ∈ es → ∀ t t', I t → does t c ret t' → I t')
    (ht : I t) : I t' := by
  induction hrun with
  | nil t => exact ht
  | @cons t t₁ t' e es h _ ih =>
    have hrest : ∀ c ret, .returned c ret ∈ es ∨ .killed c ∈ es →
        ∀ t t', I t → does t c ret t' → I t' := fun c ret hmem =>
      hkeeps c ret (hmem.imp (List.mem_cons_of_mem e) (List.mem_cons_of_mem e))
    refine ih hrest ?_
    cases e with
    | returned c ret => exact hkeeps c ret (.inl List.mem_cons_self) t t₁ ht h
    | killed c =>
      rcases h with rfl | ⟨ret, h⟩
      · exact ht
      · exact hkeeps c ret (.inr List.mem_cons_self) t t₁ ht h

end Crash

end CsLab
