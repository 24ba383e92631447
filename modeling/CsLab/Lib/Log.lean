/-
Properties of every entry of a log.

A log is a list of entries, oldest first.  An entry is judged by what was in the log
before it: `Throughout P l` says that each entry of `l` is in the relation `P` to the
entries before it.  What a log says about one thing is a `filterMap` of it.
-/
import Mathlib.Data.List.Basic
import Mathlib.Data.List.Infix

namespace CsLab

namespace Log

variable {α : Type*} {P : List α → α → Prop} {l : List α} {a : α}

/-- Every entry is in the relation `P` to the entries before it. -/
def Throughout (P : List α → α → Prop) (l : List α) : Prop :=
  ∀ l₁ a l₂, l = l₁ ++ a :: l₂ → P l₁ a

@[simp] lemma throughout_nil : Throughout P [] := by
  intro l₁ a l₂ heq
  simp at heq

lemma throughout_append_singleton : Throughout P (l ++ [a]) ↔ Throughout P l ∧ P l a := by
  constructor
  · intro h
    refine ⟨?_, h l a [] rfl⟩
    rintro l₁ b l₂ rfl
    exact h l₁ b (l₂ ++ [a]) (by simp)
  · rintro ⟨h, ha⟩ l₁ b l₂ heq
    rcases List.eq_nil_or_concat l₂ with rfl | ⟨l₃, c, rfl⟩
    · obtain ⟨rfl, hb⟩ := List.append_inj' heq rfl
      cases hb
      exact ha
    · have heq' : l ++ [a] = (l₁ ++ b :: l₃) ++ [c] := by simpa using heq
      obtain ⟨rfl, -⟩ := List.append_inj' heq' rfl
      exact h l₁ b l₃ rfl

lemma filterMap_append_singleton {β : Type*} (f : α → Option β) (l : List α) (a : α) :
    (l ++ [a]).filterMap f = l.filterMap f ++ (f a).toList := by
  rw [List.filterMap_append]
  cases h : f a with
  | none => rw [List.filterMap_cons_none h, List.filterMap_nil, Option.toList_none]
  | some b => rw [List.filterMap_cons_some h, List.filterMap_nil, Option.toList_some]

/-- One more entry of a log that goes along a list. -/
lemma zip_append_singleton {β : Type*} {as : List β} {b : β} (h : as[l.length]? = some b) (a : α) :
    as.zip (l ++ [a]) = as.zip l ++ [(b, a)] := by
  induction l generalizing as with
  | nil =>
    obtain ⟨as, rfl⟩ := List.head?_eq_some_iff.mp (List.head?_eq_getElem?.trans h)
    rw [List.nil_append, List.zip_nil_right, List.zip_cons_cons, List.zip_nil_right,
      List.nil_append]
  | cons a' l ih =>
    cases as with
    | nil => cases h
    | cons b' as =>
      rw [List.cons_append, List.zip_cons_cons, List.zip_cons_cons, ih h, List.cons_append]

end Log

end CsLab
