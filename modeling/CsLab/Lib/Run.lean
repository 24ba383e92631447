/-
Runs of a labelled transition system.

`step s e s'` says that the system goes from `s` to `s'` with the event `e`, and `Run` is
a sequence of such steps.  What every step keeps, every run keeps (`Run.invariant`); if the
step may also look at the events so far, the rule is `Run.history`.  `Run.always_iff` is
the rule for a property that a step keeps exactly when it meets a condition.
-/
import Mathlib.Data.List.Infix
import Mathlib.Data.List.Induction

namespace CsLab

variable {S E : Type*}

/-- A run with its events, oldest first. -/
inductive Run (step : S → E → S → Prop) : S → List E → S → Prop
  | nil (s : S) : Run step s [] s
  | cons {s s' s'' : S} {e : E} {es : List E} (h : step s e s') (hrun : Run step s' es s'') :
      Run step s (e :: es) s''

/-- The steps of a system that is given as a partial function. -/
def stepOf (exec : S → E → Option S) : S → E → S → Prop := fun s e s' => exec s e = some s'

lemma stepOf_unique (exec : S → E → Option S) (s : S) (e : E) (s₁ s₂ : S)
    (h : stepOf exec s e s₁) (h' : stepOf exec s e s₂) : s₁ = s₂ :=
  Option.some.inj (h.symm.trans h')

namespace Run

variable {step : S → E → S → Prop} {s s' s'' : S} {es es' : List E}

lemma single {e : E} (h : step s e s') : Run step s [e] s' := .cons h (.nil s')

lemma nil_inv (h : Run step s [] s') : s' = s := by
  cases h
  rfl

lemma cons_inv {e : E} (h : Run step s (e :: es) s'') :
    ∃ s', step s e s' ∧ Run step s' es s'' := by
  cases h with
  | cons h hrun => exact ⟨_, h, hrun⟩

lemma append (h : Run step s es s') (h' : Run step s' es' s'') : Run step s (es ++ es') s'' := by
  induction h with
  | nil => exact h'
  | cons hstep _ ih => exact .cons hstep (ih h')

lemma append_inv (h : Run step s (es ++ es') s'') :
    ∃ s', Run step s es s' ∧ Run step s' es' s'' := by
  induction es generalizing s with
  | nil => exact ⟨s, .nil s, h⟩
  | cons e es ih =>
    obtain ⟨s₁, hstep, hrun⟩ := cons_inv h
    obtain ⟨s', hrun', hrest⟩ := ih hrun
    exact ⟨s', .cons hstep hrun', hrest⟩

/-- A run is one of every system that can do as much. -/
lemma mono {step' : S → E → S → Prop} (hstep : ∀ s e s', step s e s' → step' s e s')
    (h : Run step s es s') : Run step' s es s' := by
  induction h with
  | nil => exact .nil _
  | cons hst _ ih => exact .cons (hstep _ _ _ hst) ih

/-- What every step keeps, every run keeps. -/
lemma invariant {I : S → Prop} (hstep : ∀ s e s', I s → step s e s' → I s') (hs : I s)
    (h : Run step s es s') : I s' := by
  induction h with
  | nil => exact hs
  | cons hst _ ih => exact ih (hstep _ _ _ hs hst)

/-- The rule for what holds of the events so far and the state they lead to. -/
lemma history {I : List E → S → Prop} (hnil : I [] s)
    (hstep : ∀ es s₁ e s₂, Run step s es s₁ → I es s₁ → step s₁ e s₂ → I (es ++ [e]) s₂)
    (h : Run step s es s') : I es s' := by
  induction es using List.reverseRecOn generalizing s' with
  | nil =>
    rw [nil_inv h]
    exact hnil
  | append_singleton es e ih =>
    obtain ⟨s₁, hrun, hlast⟩ := append_inv h
    obtain ⟨s₂, hst, hend⟩ := cons_inv hlast
    rw [nil_inv hend]
    exact hstep es s₁ e s₂ hrun (ih hrun) hst

/-- The runs of a partial function are what folding it gives. -/
lemma of_foldlM {exec : S → E → Option S} (h : es.foldlM exec s = some s') :
    Run (stepOf exec) s es s' := by
  induction es generalizing s with
  | nil =>
    rw [List.foldlM_nil] at h
    cases h
    exact .nil _
  | cons e es ih =>
    rw [List.foldlM_cons] at h
    obtain ⟨s₁, hstep, hrest⟩ := Option.bind_eq_some_iff.mp h
    exact .cons hstep (ih hrest)

/-- The same for what is looked at of the last state. -/
lemma exists_of_foldlM {exec : S → E → Option S} {β : Type*} {f : S → β} {b : β}
    (h : (es.foldlM exec s).map f = some b) : ∃ s', Run (stepOf exec) s es s' ∧ f s' = b := by
  obtain ⟨s', hfold, hf⟩ := Option.map_eq_some_iff.mp h
  exact ⟨s', of_foldlM hfold, hf⟩

/-- A run is determined by its events if each step is. -/
lemma unique (hdet : ∀ s e s₁ s₂, step s e s₁ → step s e s₂ → s₁ = s₂) (h : Run step s es s')
    (h' : Run step s es s'') : s' = s'' := by
  induction h with
  | nil => exact (nil_inv h').symm
  | cons hst _ ih =>
    obtain ⟨s₁, hst', hrun⟩ := cons_inv h'
    rw [hdet _ _ _ _ hst' hst] at hrun
    exact ih hrun

/-- A condition that every step of a run from `s` with these events meets. -/
def Steps (step : S → E → S → Prop) (s : S) (C : S → E → Prop) (es : List E) : Prop :=
  ∀ es₁ e s₁, es₁ ++ [e] <+: es → Run step s es₁ s₁ → C s₁ e

lemma steps_nil {C : S → E → Prop} : Steps step s C [] := by
  intro es₁ e s₁ hpre
  have hlen := hpre.length_le
  simp at hlen

lemma Steps.of_prefix {C : S → E → Prop} (h : Steps step s C es) (hpre : es' <+: es) :
    Steps step s C es' :=
  fun es₁ e s₁ hpre₁ => h es₁ e s₁ (hpre₁.trans hpre)

lemma steps_append_singleton {C : S → E → Prop} {e : E}
    (hdet : ∀ s e s₁ s₂, step s e s₁ → step s e s₂ → s₁ = s₂) (h : Run step s es s') :
    Steps step s C (es ++ [e]) ↔ Steps step s C es ∧ C s' e := by
  constructor
  · intro hC
    refine ⟨?_, hC es e s' (List.prefix_refl _) h⟩
    intro es₁ e₁ s₁ hpre hrun
    exact hC es₁ e₁ s₁ (hpre.trans (List.prefix_append es [e])) hrun
  · rintro ⟨hC, hlast⟩ es₁ e₁ s₁ hpre hrun
    rcases List.prefix_concat_iff.mp hpre with heq | hpre
    · obtain ⟨rfl, he⟩ := List.append_inj' heq rfl
      cases he
      rw [unique hdet hrun h]
      exact hlast
    · exact hC es₁ e₁ s₁ hpre hrun

/-- If a step keeps `P` exactly when it meets the condition `C`, then `P` holds all along a
run exactly when all steps of the run meet `C`. -/
theorem always_iff {P : List E → S → Prop} {C : S → E → Prop}
    (hdet : ∀ s e s₁ s₂, step s e s₁ → step s e s₂ → s₁ = s₂) (hnil : P [] s)
    (hstep : ∀ es s₁ e s₂, Run step s es s₁ → P es s₁ → step s₁ e s₂ →
      (P (es ++ [e]) s₂ ↔ C s₁ e))
    (h : Run step s es s') :
    (∀ es₁ s₁, es₁ <+: es → Run step s es₁ s₁ → P es₁ s₁) ↔
      ∀ es₁ e s₁, es₁ ++ [e] <+: es → Run step s es₁ s₁ → C s₁ e := by
  constructor
  · rintro hP es₁ e s₁ ⟨es₂, rfl⟩ hrun
    obtain ⟨s₂, hrun', -⟩ := append_inv h
    obtain ⟨s₁', hrun₁, hlast⟩ := append_inv hrun'
    obtain ⟨s₂', hst, hend⟩ := cons_inv hlast
    rw [unique hdet hrun₁ hrun] at hst
    rw [nil_inv hend] at hrun'
    refine (hstep es₁ s₁ e s₂' hrun (hP es₁ s₁ ?_ hrun) hst).mp (hP _ s₂' ?_ hrun')
    · rw [List.append_assoc]
      exact List.prefix_append _ _
    · exact List.prefix_append _ _
  · intro hC es₁ s₁ hpre hrun
    refine history (I := fun es₁ s₁ => es₁ <+: es → P es₁ s₁) (fun _ => hnil) ?_ hrun hpre
    intro es₂ s₂ e s₃ hrun₂ ih hst hpre₂
    have hpre' : es₂ <+: es := (List.prefix_append es₂ [e]).trans hpre₂
    exact (hstep es₂ s₂ e s₃ hrun₂ (ih hpre') hst).mpr (hC es₂ e s₂ hpre₂ hrun₂)

end Run

end CsLab
