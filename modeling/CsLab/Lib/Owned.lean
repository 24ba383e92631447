/-
Resources that have one owner each.

A table says what is behind the names that are in use, and every agent has at most one of
its entries in hand.  The table is `Owned` if the agents have exactly its entries, each
entry in one hand.  There is one rule for each thing that may happen: an agent takes a new
entry, changes its entry, gives it up, or hands it to another agent.  All entries in other
hands stay as they are, also when names are used again.
-/
import Mathlib.Logic.Function.Basic
import Mathlib.Tactic.Common

namespace CsLab

variable {T K V : Type*}

/-- Every entry of the table is in exactly one hand. -/
structure Owned (tab : K → Option V) (hand : T → Option (K × V)) : Prop where
  agree : ∀ t k v, hand t = some (k, v) → tab k = some v
  inj : ∀ t t' k v v', hand t = some (k, v) → hand t' = some (k, v') → t = t'
  owner : ∀ k v, tab k = some v → ∃ t, hand t = some (k, v)

namespace Owned

variable {tab : K → Option V} {hand : T → Option (K × V)} {t t' : T} {k : K} {v v' : V}

lemma start : Owned (fun _ : K => (none : Option V)) fun _ : T => none := by
  constructor <;> simp

/-- An entry in another hand has another name. -/
lemma ne_of_ne (h : Owned tab hand) (ht : hand t = some (k, v)) {k' : K}
    (ht' : hand t' = some (k', v')) (hne : t' ≠ t) : k' ≠ k := by
  rintro rfl
  exact hne (h.inj t' t k' v' v ht' ht)

variable [DecidableEq T] [DecidableEq K]

/-- The agent takes an entry under a name that was not in use. -/
lemma acquire (h : Owned tab hand) (ht : hand t = none) (hk : tab k = none) (v : V) :
    Owned (Function.update tab k (some v)) (Function.update hand t (some (k, v))) := by
  have hother : ∀ t' k' v', hand t' = some (k', v') → k' ≠ k := by
    rintro t' k' v' ht' rfl
    have hagree := h.agree t' k' v' ht'
    rw [hk] at hagree
    exact Option.some_ne_none v' hagree.symm
  have hcases : ∀ t' k' v', Function.update hand t (some (k, v)) t' = some (k', v') →
      (t' = t ∧ k' = k ∧ v' = v) ∨ (t' ≠ t ∧ hand t' = some (k', v')) := by
    intro t' k' v' ht'
    by_cases heq : t' = t
    · subst heq
      rw [Function.update_self] at ht'
      cases ht'
      exact .inl ⟨rfl, rfl, rfl⟩
    · rw [Function.update_of_ne heq] at ht'
      exact .inr ⟨heq, ht'⟩
  constructor
  · intro t' k' v' ht'
    rcases hcases t' k' v' ht' with ⟨-, rfl, rfl⟩ | ⟨-, ht'⟩
    · exact Function.update_self ..
    · rw [Function.update_of_ne (hother t' k' v' ht')]
      exact h.agree t' k' v' ht'
  · intro t₁ t₂ k' v₁ v₂ h₁ h₂
    rcases hcases t₁ k' v₁ h₁ with ⟨heq₁, hk₁, -⟩ | ⟨-, hold₁⟩ <;>
      rcases hcases t₂ k' v₂ h₂ with ⟨heq₂, hk₂, -⟩ | ⟨-, hold₂⟩
    · rw [heq₁, heq₂]
    · exact absurd hk₁ (hother t₂ k' v₂ hold₂)
    · exact absurd hk₂ (hother t₁ k' v₁ hold₁)
    · exact h.inj t₁ t₂ k' v₁ v₂ hold₁ hold₂
  · intro k' v' hk'
    by_cases heq : k' = k
    · subst heq
      rw [Function.update_self] at hk'
      cases hk'
      exact ⟨t, Function.update_self ..⟩
    · rw [Function.update_of_ne heq] at hk'
      obtain ⟨t', ht'⟩ := h.owner k' v' hk'
      have hne : t' ≠ t := by
        rintro rfl
        rw [ht] at ht'
        exact Option.some_ne_none _ ht'.symm
      exact ⟨t', by rwa [Function.update_of_ne hne]⟩

/-- The agent gives up its entry. -/
lemma release (h : Owned tab hand) (ht : hand t = some (k, v)) :
    Owned (Function.update tab k none) (Function.update hand t none) := by
  have hcases : ∀ t' k' v', Function.update hand t none t' = some (k', v') →
      t' ≠ t ∧ hand t' = some (k', v') := by
    intro t' k' v' ht'
    rw [Function.update_apply] at ht'
    split at ht'
    · cases ht'
    · next hne => exact ⟨hne, ht'⟩
  constructor
  · intro t' k' v' ht'
    obtain ⟨hne, ht'⟩ := hcases t' k' v' ht'
    rw [Function.update_of_ne (h.ne_of_ne ht ht' hne)]
    exact h.agree t' k' v' ht'
  · intro t₁ t₂ k' v₁ v₂ h₁ h₂
    exact h.inj t₁ t₂ k' v₁ v₂ (hcases t₁ k' v₁ h₁).2 (hcases t₂ k' v₂ h₂).2
  · intro k' v' hk'
    rw [Function.update_apply] at hk'
    split at hk'
    · cases hk'
    · next hne =>
      obtain ⟨t', ht'⟩ := h.owner k' v' hk'
      have hne' : t' ≠ t := by
        rintro rfl
        rw [ht] at ht'
        cases ht'
        exact hne rfl
      exact ⟨t', by rwa [Function.update_of_ne hne']⟩

/-- The agent changes its entry. -/
lemma change (h : Owned tab hand) (ht : hand t = some (k, v)) (v' : V) :
    Owned (Function.update tab k (some v')) (Function.update hand t (some (k, v'))) := by
  have hput := (h.release ht).acquire (t := t) (k := k) (Function.update_self ..)
    (Function.update_self ..) v'
  rwa [Function.update_idem, Function.update_idem] at hput

/-- The agent hands its entry to an agent with empty hands. -/
lemma move (h : Owned tab hand) (ht : hand t = some (k, v)) (ht' : hand t' = none) :
    Owned tab (Function.update (Function.update hand t none) t' (some (k, v))) := by
  have hne : t' ≠ t := by
    rintro rfl
    rw [ht] at ht'
    exact Option.some_ne_none _ ht'
  have hput := (h.release ht).acquire (t := t') (k := k)
    (by rwa [Function.update_of_ne hne]) (Function.update_self ..) v
  rwa [Function.update_idem, Function.update_eq_self_iff.mpr (h.agree t k v ht).symm] at hput

end Owned

end CsLab
