/-
Ledgers of acquired and released resources.

A ledger is the list of operations that acquire and release resources of some kind,
oldest first.  It is `Balanced` if nothing is released that is not held and nothing is
acquired that is held already.  In a balanced ledger every acquired resource is released
at most once before it is acquired again, and exactly once when it is no longer held
(`Balanced.releasedOnce`).

A table `Tracks` what is held if it has every held resource in exactly one slot.  `Custody`
is such a table of resources that are numbered as they come, with the rules for a resource
that comes or goes.
-/
import Mathlib.Data.Finset.Basic
import Mathlib.Data.List.Count

namespace CsLab

/-- One operation on a resource. -/
inductive Op (α : Type*) where
  | acquire (a : α)
  | release (a : α)
deriving DecidableEq

namespace Ledger

variable {α : Type*} [DecidableEq α]

/-- What is held after one operation. -/
def after (h : Finset α) : Op α → Finset α
  | .acquire a => insert a h
  | .release a => h.erase a

/-- What is held after the operations, if `h` was held before them. -/
def held (h : Finset α) (ops : List (Op α)) : Finset α := ops.foldl after h

/-- The operation is one that may be done while `h` is held. -/
def Fits (h : Finset α) : Op α → Prop
  | .acquire a => a ∉ h
  | .release a => a ∈ h

/-- Every operation is one that may be done when it is done. -/
def Balanced (h : Finset α) (ops : List (Op α)) : Prop :=
  ∀ ops₁ o ops₂, ops = ops₁ ++ o :: ops₂ → Fits (held h ops₁) o

/-- In every stretch of the ledger that starts by acquiring a resource and does not
acquire it again, the resource is released exactly once, or not at all if it is still
held at the end of the stretch. -/
def ReleasedOnce (h : Finset α) (ops : List (Op α)) : Prop :=
  ∀ ops₁ a ops₂ ops₃, ops = ops₁ ++ .acquire a :: (ops₂ ++ ops₃) → .acquire a ∉ ops₂ →
    (a ∈ held h (ops₁ ++ .acquire a :: ops₂) → ops₂.count (.release a) = 0) ∧
      (a ∉ held h (ops₁ ++ .acquire a :: ops₂) → ops₂.count (.release a) = 1)

variable {h h' : Finset α} {a b : α} {o : Op α} {ops ops' : List (Op α)}

@[simp] lemma held_nil : held h [] = h := rfl

@[simp] lemma held_cons : held h (o :: ops) = held (after h o) ops := rfl

@[simp] lemma held_append : held h (ops ++ ops') = held (held h ops) ops' :=
  List.foldl_append

@[simp] lemma mem_after_acquire : a ∈ after h (.acquire b) ↔ a = b ∨ a ∈ h :=
  Finset.mem_insert

@[simp] lemma mem_after_release : a ∈ after h (.release b) ↔ a ≠ b ∧ a ∈ h :=
  Finset.mem_erase

/-- Two ledgers with the same operations differ in what was held before them only. -/
lemma mem_held_congr (ha : a ∈ h ↔ a ∈ h') : a ∈ held h ops ↔ a ∈ held h' ops := by
  induction ops generalizing h h' with
  | nil => exact ha
  | cons o ops ih =>
    refine ih ?_
    cases o with
    | acquire b => simp [ha]
    | release b => simp [ha]

lemma not_mem_held (hout : a ∉ h) (ha : .acquire a ∉ ops) : a ∉ held h ops := by
  induction ops generalizing h with
  | nil => exact hout
  | cons o ops ih =>
    rw [List.mem_cons, not_or] at ha
    refine ih ?_ ha.2
    cases o with
    | acquire b =>
      have hab : a ≠ b := fun hab => ha.1 (hab ▸ rfl)
      simp [hab, hout]
    | release b => simp [hout]

lemma mem_held_release_all {as : List α} :
    a ∈ held h (as.map .release) ↔ a ∈ h ∧ a ∉ as := by
  induction as generalizing h with
  | nil => simp
  | cons b as ih =>
    simp only [List.map_cons, held_cons, ih, mem_after_release, List.mem_cons, not_or]
    tauto

/-- Releasing a resource again changes nothing. -/
lemma held_replicate_release (k : ℕ) :
    held h (List.replicate (k + 1) (.release a)) = h.erase a := by
  induction k generalizing h with
  | zero => rfl
  | succ k ih =>
    rw [List.replicate_succ, held_cons, ih]
    exact Finset.erase_idem

@[simp] lemma balanced_nil : Balanced h [] := by
  intro ops₁ o ops₂ heq
  simp at heq

lemma balanced_append :
    Balanced h (ops ++ ops') ↔ Balanced h ops ∧ Balanced (held h ops) ops' := by
  constructor
  · intro hb
    constructor
    · rintro ops₁ o ops₂ rfl
      exact hb ops₁ o (ops₂ ++ ops') (by simp)
    · rintro ops₁ o ops₂ rfl
      rw [← held_append]
      exact hb (ops ++ ops₁) o ops₂ (by simp)
  · rintro ⟨hb, hb'⟩ ops₁ o ops₂ heq
    rcases List.append_eq_append_iff.mp heq with ⟨mid, rfl, heq'⟩ | ⟨mid, rfl, heq'⟩
    · rw [held_append]
      exact hb' mid o ops₂ heq'
    · cases mid with
      | nil =>
        rw [List.append_nil] at hb'
        exact hb' [] o ops₂ (by simpa using heq'.symm)
      | cons o' mid =>
        rw [List.cons_append, List.cons.injEq] at heq'
        obtain ⟨rfl, -⟩ := heq'
        exact hb ops₁ o mid rfl

@[simp] lemma balanced_singleton : Balanced h [o] ↔ Fits h o := by
  constructor
  · intro hb
    exact hb [] o [] rfl
  · intro ho ops₁ o' ops₂ heq
    cases ops₁ with
    | nil =>
      rw [List.nil_append, List.cons.injEq] at heq
      rw [← heq.1]
      exact ho
    | cons => simp at heq

lemma balanced_cons : Balanced h (o :: ops) ↔ Fits h o ∧ Balanced (after h o) ops := by
  rw [← List.singleton_append, balanced_append, balanced_singleton]
  rfl

/-- A held resource can be released once. -/
lemma balanced_replicate_release (ha : a ∈ h) (k : ℕ) :
    Balanced h (List.replicate k (.release a)) ↔ k ≤ 1 := by
  match k with
  | 0 => simp
  | 1 => simpa [Fits] using ha
  | k + 2 => simp [List.replicate_succ, balanced_cons, Fits]

/-- Releasing several resources is legal if they are held and different. -/
lemma balanced_release_all {as : List α} (has : as.Nodup) (hheld : ∀ a ∈ as, a ∈ h) :
    Balanced h (as.map .release) := by
  induction as generalizing h with
  | nil => exact balanced_nil
  | cons b as ih =>
    rw [List.nodup_cons] at has
    rw [List.map_cons, balanced_cons]
    refine ⟨hheld b (List.mem_cons_self ..), ih has.2 fun a ha => ?_⟩
    rw [mem_after_release]
    exact ⟨fun hab => has.1 (hab ▸ ha), hheld a (List.mem_cons_of_mem _ ha)⟩

/-- **Nothing is lost**: what was held before or acquired is released or still held. -/
lemma Balanced.count_add (hb : Balanced h ops) (a : α) :
    ops.count (.release a) + (if a ∈ held h ops then 1 else 0) =
      ops.count (.acquire a) + if a ∈ h then 1 else 0 := by
  induction ops generalizing h with
  | nil => rfl
  | cons o ops ih =>
    rw [balanced_cons] at hb
    have hrest := ih hb.2
    rw [held_cons]
    cases o with
    | acquire b =>
      rw [List.count_cons_of_ne (by simp)]
      by_cases hab : a = b
      · subst hab
        have hin : a ∈ after h (.acquire a) := by simp
        rw [if_pos hin] at hrest
        rw [List.count_cons_self, if_neg hb.1, hrest]
      · have hin : a ∈ after h (.acquire b) ↔ a ∈ h := by simp [hab]
        rw [List.count_cons_of_ne (by simp [Ne.symm hab]), hrest, if_congr hin rfl rfl]
    | release b =>
      rw [List.count_cons_of_ne (by simp : Op.release b ≠ .acquire a)]
      by_cases hab : a = b
      · subst hab
        have hin : a ∈ h := hb.1
        have hout : a ∉ after h (.release a) := by simp
        rw [if_neg hout] at hrest
        rw [List.count_cons_self, if_pos hin]
        omega
      · have hin : a ∈ after h (.release b) ↔ a ∈ h := by simp [hab]
        rw [List.count_cons_of_ne (by simp [Ne.symm hab]), hrest, if_congr hin rfl rfl]

/-- A resource that is held and not acquired again is released once if it ceases to be
held, and not at all otherwise. -/
lemma Balanced.count_release_of_mem (hb : Balanced h ops) (ha : .acquire a ∉ ops)
    (hin : a ∈ h) :
    (a ∈ held h ops → ops.count (.release a) = 0) ∧
      (a ∉ held h ops → ops.count (.release a) = 1) := by
  have hcount := hb.count_add a
  rw [List.count_eq_zero_of_not_mem ha, if_pos hin] at hcount
  constructor
  · intro hheld
    rw [if_pos hheld] at hcount
    omega
  · intro hheld
    rw [if_neg hheld] at hcount
    omega

theorem Balanced.releasedOnce (hb : Balanced h ops) : ReleasedOnce h ops := by
  rintro ops₁ a ops₂ ops₃ rfl ha
  have hpart := (balanced_append.mp hb).2
  rw [balanced_cons, balanced_append] at hpart
  rw [held_append, held_cons]
  exact hpart.2.1.count_release_of_mem ha (by simp)

/-! ### Tables of the held resources -/

variable {ι : Type*} [DecidableEq ι] {tab : ι → Option α} {i : ι}

/-- The table has every held resource in exactly one slot, and nothing else. -/
structure Tracks (tab : ι → Option α) (h : Finset α) : Prop where
  inj : ∀ i j a, tab i = some a → tab j = some a → i = j
  mem_iff : ∀ a, a ∈ h ↔ ∃ i, tab i = some a

lemma Tracks.put (ht : Tracks tab h) (hfree : tab i = none) (hnew : a ∉ h) :
    Tracks (Function.update tab i (some a)) (insert a h) := by
  have hout : ∀ j, tab j ≠ some a := fun j hj => hnew ((ht.mem_iff a).mpr ⟨j, hj⟩)
  constructor
  · intro j k b hj hk
    simp only [Function.update_apply] at hj hk
    split at hj <;> split at hk
    · next hji hki => rw [hji, hki]
    · rw [hj] at hout
      exact absurd hk (hout k)
    · rw [hk] at hout
      exact absurd hj (hout j)
    · exact ht.inj j k b hj hk
  · intro b
    rw [Finset.mem_insert, ht.mem_iff]
    constructor
    · rintro (rfl | ⟨j, hj⟩)
      · exact ⟨i, Function.update_self ..⟩
      · have hji : j ≠ i := by
          rintro rfl
          rw [hfree] at hj
          exact Option.some_ne_none b hj.symm
        exact ⟨j, by rwa [Function.update_of_ne hji]⟩
    · rintro ⟨j, hj⟩
      rw [Function.update_apply] at hj
      split at hj
      · exact .inl (Option.some.inj hj).symm
      · exact .inr ⟨j, hj⟩

lemma Tracks.clear (ht : Tracks tab h) (hi : tab i = some a) :
    Tracks (Function.update tab i none) (h.erase a) := by
  have hne : ∀ j b, Function.update tab i none j = some b → j ≠ i ∧ tab j = some b := by
    intro j b hj
    rw [Function.update_apply] at hj
    split at hj
    · exact absurd hj (Option.some_ne_none b).symm
    · next hji => exact ⟨hji, hj⟩
  constructor
  · intro j k b hj hk
    exact ht.inj j k b (hne j b hj).2 (hne k b hk).2
  · intro b
    rw [Finset.mem_erase, ht.mem_iff]
    constructor
    · rintro ⟨hba, j, hj⟩
      have hji : j ≠ i := by
        rintro rfl
        rw [hi] at hj
        exact hba (Option.some.inj hj).symm
      exact ⟨j, by rwa [Function.update_of_ne hji]⟩
    · rintro ⟨j, hj⟩
      obtain ⟨hji, hjb⟩ := hne j b hj
      refine ⟨?_, j, hjb⟩
      rintro rfl
      exact hji (ht.inj j i b hjb hi)

/-! ### Numbered resources -/

/-- The resources are numbered in the order in which they are acquired; `next` is the
number of the next one. -/
structure Numbered (next : ℕ) (ops : List (Op ℕ)) : Prop where
  balanced : Balanced ∅ ops
  count_acquire : ∀ a, ops.count (.acquire a) = if a < next then 1 else 0

namespace Numbered

variable {next a : ℕ} {ops : List (Op ℕ)}

lemma nil : Numbered 0 [] := ⟨balanced_nil, by simp⟩

/-- A resource is released once if it was acquired and is no longer held, and otherwise not
at all. -/
lemma count_release (hn : Numbered next ops) (a : ℕ) :
    ops.count (.release a) = if a < next ∧ a ∉ held ∅ ops then 1 else 0 := by
  have hcount := hn.balanced.count_add a
  rw [hn.count_acquire] at hcount
  by_cases hlt : a < next <;> by_cases hheld : a ∈ held ∅ ops <;> simp_all

lemma lt_of_held (hn : Numbered next ops) (ha : a ∈ held ∅ ops) : a < next := by
  have hcount := hn.balanced.count_add a
  rw [hn.count_acquire, if_pos ha] at hcount
  by_contra hge
  simp [hge] at hcount

lemma acquire (hn : Numbered next ops) : Numbered (next + 1) (ops ++ [.acquire next]) := by
  constructor
  · rw [balanced_append, balanced_singleton]
    exact ⟨hn.balanced, fun hheld => absurd (hn.lt_of_held hheld) (Nat.lt_irrefl next)⟩
  · intro a
    rw [List.count_append, hn.count_acquire]
    rcases Nat.lt_trichotomy a next with hlt | rfl | hgt
    · simp [hlt, Nat.lt_succ_of_lt hlt, Nat.ne_of_gt hlt]
    · simp
    · simp [Nat.not_lt_of_gt hgt, Nat.ne_of_lt hgt, show ¬ a < next + 1 by omega]

lemma release (hn : Numbered next ops) (ha : a ∈ held ∅ ops) :
    Numbered next (ops ++ [.release a]) := by
  constructor
  · rw [balanced_append, balanced_singleton]
    exact ⟨hn.balanced, ha⟩
  · intro b
    rw [List.count_append, hn.count_acquire]
    simp

end Numbered

/-- The table keeps the numbered resources that are held. -/
structure Custody (tab : ι → Option ℕ) (next : ℕ) (ops : List (Op ℕ)) : Prop where
  numbered : Numbered next ops
  tracks : Tracks tab (held ∅ ops)

namespace Custody

variable {tab : ι → Option ℕ} {next a : ℕ} {ops : List (Op ℕ)} {i j : ι}

omit [DecidableEq ι] in
lemma start : Custody (fun _ : ι => none) 0 [] := ⟨.nil, by simp, by simp⟩

omit [DecidableEq ι] in
lemma mem_held (hc : Custody tab next ops) (hi : tab i = some a) : a ∈ held ∅ ops :=
  (hc.tracks.mem_iff a).mpr ⟨i, hi⟩

/-- A new resource is put into a free slot. -/
lemma acquire (hc : Custody tab next ops) (hi : tab i = none) :
    Custody (Function.update tab i (some next)) (next + 1) (ops ++ [.acquire next]) := by
  have hnew : next ∉ held ∅ ops := fun h => Nat.lt_irrefl next (hc.numbered.lt_of_held h)
  refine ⟨hc.numbered.acquire, ?_⟩
  rw [held_append]
  exact hc.tracks.put hi hnew

/-- The resource in a slot is released. -/
lemma release (hc : Custody tab next ops) (hi : tab i = some a) :
    Custody (Function.update tab i none) next (ops ++ [.release a]) := by
  refine ⟨hc.numbered.release (hc.mem_held hi), ?_⟩
  rw [held_append]
  exact hc.tracks.clear hi

omit [DecidableEq ι] in
/-- A new resource is released at once. -/
lemma refuse (hc : Custody tab next ops) :
    Custody tab (next + 1) (ops ++ [.acquire next, .release next]) := by
  have hnew : next ∉ held ∅ ops := fun h => Nat.lt_irrefl next (hc.numbered.lt_of_held h)
  have hnumbered := hc.numbered.acquire.release (a := next) (by simp)
  rw [List.append_assoc] at hnumbered
  have hheld : held ∅ (ops ++ [.acquire next, .release next]) = held ∅ ops := by
    rw [held_append]
    exact Finset.erase_insert hnew
  refine ⟨hnumbered, ?_⟩
  rw [hheld]
  exact hc.tracks

end Custody

end Ledger

end CsLab
