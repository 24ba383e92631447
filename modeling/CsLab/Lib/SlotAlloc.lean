/-
First-fit allocation of slots in pages.

A page offers `cap` units.  Its directory lists the sizes of its slots, `0` for a free
one, and each slot of the directory costs `cost` units on top of its size.  An item goes to
the first page in which it fits, into the first free slot there or else into a new one, and
to a new page if it fits nowhere; its handle is the page and the slot.

The main result is `replay`: when everything that was allocated is freed, in any order, the
same items get the same handles again.
-/
import Mathlib.Algebra.BigOperators.Group.List.Basic
import Mathlib.Algebra.Order.Ring.Int
import Mathlib.Data.List.GetD
import Mathlib.Data.List.Infix

namespace CsLab

namespace SlotAlloc

/-! ### One page -/

/-- The directory of a page: the sizes of the slots, `0` for a free one. -/
abbrev Dir : Type := List ℕ

/-- The slot for the next item: the first free one, or a new one. -/
def slot (d : Dir) : ℕ := d.idxOf 0

/-- The directory size with the next item. -/
def slotsAfter (d : Dir) : ℕ := d.length + if 0 ∈ d then 0 else 1

/-- An item of size `n` fits in the page. -/
def Fits (cap cost : ℕ) (d : Dir) (n : ℕ) : Prop := d.sum + n + cost * slotsAfter d ≤ cap

instance (cap cost : ℕ) (d : Dir) (n : ℕ) : Decidable (Fits cap cost d n) :=
  inferInstanceAs (Decidable (_ ≤ _))

/-- Put an item of size `n` in its slot. -/
def put (d : Dir) (n : ℕ) : Dir := if 0 ∈ d then d.set (slot d) n else d ++ [n]

section OnePage

variable {cap cost : ℕ} {d : Dir} {n : ℕ}

lemma slot_of_full (h : 0 ∉ d) : slot d = d.length := List.idxOf_eq_length h

lemma slot_append_replicate (h : 0 ∉ d) (k : ℕ) : slot (d ++ List.replicate k 0) = d.length := by
  rw [slot, List.idxOf_append_of_notMem h]
  cases k with
  | zero => simp
  | succ k => simp [List.replicate_succ]

lemma put_of_full (h : 0 ∉ d) : put d n = d ++ [n] := if_neg h

lemma put_append_replicate (h : 0 ∉ d) (k : ℕ) :
    put (d ++ List.replicate (k + 1) 0) n = (d ++ [n]) ++ List.replicate k 0 := by
  rw [put, if_pos (by simp [List.replicate_succ]), slot_append_replicate h, List.set_append,
    if_neg (Nat.lt_irrefl _), Nat.sub_self, List.replicate_succ, List.set_cons_zero,
    List.append_assoc, List.singleton_append]

lemma fits_of_full (h : 0 ∉ d) :
    Fits cap cost d n ↔ (d ++ [n]).sum + cost * (d ++ [n]).length ≤ cap := by
  rw [Fits, slotsAfter, if_neg h, List.sum_append, List.sum_singleton, List.length_append,
    List.length_singleton]

/-- A free slot more makes no more room. -/
lemma fits_of_append_replicate (h : 0 ∉ d) {k : ℕ}
    (hfits : Fits cap cost (d ++ List.replicate k 0) n) : Fits cap cost d n := by
  rw [Fits, List.sum_append, List.sum_replicate_nat, Nat.mul_zero, Nat.add_zero] at hfits
  refine le_trans (Nat.add_le_add_left (Nat.mul_le_mul_left cost ?_) _) hfits
  rw [slotsAfter, slotsAfter, if_neg h, List.length_append, List.length_replicate]
  cases k with
  | zero => simp [h]
  | succ k =>
    simp only [List.mem_append, List.mem_replicate]
    omega

end OnePage

/-! ### All pages -/

variable (cap cost : ℕ)

/-- The first page in which an item fits, the number of pages if there is none. -/
def pageFor (ds : List Dir) (n : ℕ) : ℕ := ds.findIdx fun d => Fits cap cost d n

/-- Replace the page `i`, or add it at the end. -/
def update {α : Type*} (ds : List α) (i : ℕ) (d : α) : List α :=
  if i < ds.length then ds.set i d else ds ++ [d]

/-- Allocate an item of size `n`. -/
def alloc (ds : List Dir) (n : ℕ) : List Dir × (ℕ × ℕ) :=
  let i := pageFor cap cost ds n
  (update ds i (put (ds.getD i []) n), (i, slot (ds.getD i [])))

/-- Allocate items one after the other. -/
def allocAll (ds : List Dir) : List ℕ → List Dir × List (ℕ × ℕ)
  | [] => (ds, [])
  | n :: ns =>
    let first := alloc cap cost ds n
    let rest := allocAll first.1 ns
    (rest.1, first.2 :: rest.2)

/-- Free the slot of a handle. -/
def free (ds : List Dir) (h : ℕ × ℕ) : List Dir := ds.modify h.1 fun d => d.set h.2 0

variable {cap cost}

section Update

variable {α : Type*} {ds : List α} {i : ℕ} {d : α}

lemma length_update (h : i ≤ ds.length) : (update ds i d).length = max ds.length (i + 1) := by
  rw [update]
  split
  · rw [List.length_set]
    omega
  · rw [List.length_append, List.length_singleton]
    omega

lemma getD_update (h : i ≤ ds.length) (j : ℕ) (x : α) :
    (update ds i d).getD j x = if j = i then d else ds.getD j x := by
  simp only [update, List.getD_eq_getElem?_getD]
  split
  · next hi =>
      rw [List.getElem?_set]
      by_cases hij : i = j
      · subst hij
        rw [if_pos rfl, if_pos hi, if_pos rfl]
        rfl
      · rw [if_neg hij, if_neg (Ne.symm hij)]
  · next hi =>
      obtain rfl : i = ds.length := by omega
      by_cases hij : j = ds.length
      · subst hij
        simp
      · rw [if_neg hij]
        rcases Nat.lt_or_ge j ds.length with hj | hj
        · rw [List.getElem?_append_left hj]
        · rw [List.getElem?_eq_none (by simp; omega), List.getElem?_eq_none hj]

lemma map_update {β : Type*} (f : α → β) (ds : List α) (i : ℕ) (d : α) :
    (update ds i d).map f = update (ds.map f) i (f d) := by
  simp only [update, List.length_map]
  split <;> simp

end Update

section Pages

variable {ds es fs : List Dir} {n : ℕ}

lemma pageFor_le_length : pageFor cap cost ds n ≤ ds.length := List.findIdx_le_length

/-- The page of an item that fits in an empty page. -/
lemma pageFor_eq_iff (hn : Fits cap cost [] n) {i : ℕ} :
    pageFor cap cost ds n = i ↔
      Fits cap cost (ds.getD i []) n ∧ ∀ j < i, ¬ Fits cap cost (ds.getD j []) n := by
  have hfits : Fits cap cost (ds.getD (pageFor cap cost ds n) []) n := by
    rcases Nat.lt_or_ge (pageFor cap cost ds n) ds.length with hlt | hge
    · rw [List.getD_eq_getElem _ _ hlt]
      exact of_decide_eq_true (List.findIdx_getElem (w := hlt))
    · rwa [List.getD_eq_default _ _ hge]
  have hfirst : ∀ j < pageFor cap cost ds n, ¬ Fits cap cost (ds.getD j []) n := by
    intro j hj
    rw [List.getD_eq_getElem _ _ (hj.trans_le pageFor_le_length)]
    exact of_decide_eq_false (by simpa using List.not_of_lt_findIdx hj)
  constructor
  · rintro rfl
    exact ⟨hfits, hfirst⟩
  · rintro ⟨hi, hlt⟩
    rcases Nat.lt_trichotomy (pageFor cap cost ds n) i with h | h | h
    · exact absurd hfits (hlt _ h)
    · exact h
    · exact absurd hi (hfirst _ h)

lemma length_alloc_ge : ds.length ≤ (alloc cap cost ds n).1.length := by
  rw [alloc, length_update pageFor_le_length]
  exact le_max_left _ _

lemma getD_alloc (j : ℕ) :
    (alloc cap cost ds n).1.getD j [] =
      if j = pageFor cap cost ds n then put (ds.getD j []) n else ds.getD j [] := by
  rw [alloc, getD_update pageFor_le_length]
  split
  · next h => rw [h]
  · rfl

/-- No slot is free. -/
def Full (ds : List Dir) : Prop := ∀ i, 0 ∉ ds.getD i []

lemma Full.alloc (h : Full ds) (hn : n ≠ 0) : Full (alloc cap cost ds n).1 := by
  intro i
  rw [getD_alloc]
  split
  · rw [put_of_full (h i), List.mem_append, List.mem_singleton]
    rintro (hmem | hzero)
    · exact h i hmem
    · exact hn hzero.symm
  · exact h i

/-- Each page holds what was allocated before, and maybe more. -/
structure Extends (ds fs : List Dir) : Prop where
  length_le : ds.length ≤ fs.length
  isPrefix : ∀ i, ds.getD i [] <+: fs.getD i []

lemma Extends.refl (ds : List Dir) : Extends ds ds := ⟨le_rfl, fun _ => List.prefix_rfl⟩

lemma Extends.trans (h : Extends ds es) (h' : Extends es fs) : Extends ds fs :=
  ⟨h.length_le.trans h'.length_le, fun i => (h.isPrefix i).trans (h'.isPrefix i)⟩

lemma extends_alloc (h : Full ds) : Extends ds (alloc cap cost ds n).1 := by
  refine ⟨length_alloc_ge, fun i => ?_⟩
  rw [getD_alloc]
  split
  · rw [put_of_full (h i)]
    exact List.prefix_append _ _
  · exact List.prefix_rfl

lemma extends_allocAll {ns : List ℕ} (h : Full ds) (hns : ∀ n ∈ ns, n ≠ 0) :
    Extends ds (allocAll cap cost ds ns).1 := by
  induction ns generalizing ds with
  | nil => exact .refl ds
  | cons n ns ih =>
    rw [List.forall_mem_cons] at hns
    exact (extends_alloc h).trans (ih (h.alloc hns.1) hns.2)

/-- No page is overfull. -/
def Bounded (cap cost : ℕ) (ds : List Dir) : Prop :=
  ∀ i, (ds.getD i []).sum + cost * (ds.getD i []).length ≤ cap

lemma Bounded.alloc (h : Bounded cap cost ds) (hfull : Full ds) (hn : Fits cap cost [] n) :
    Bounded cap cost (alloc cap cost ds n).1 := by
  intro i
  rw [getD_alloc]
  split
  · next hi =>
      rw [put_of_full (hfull i), ← fits_of_full (hfull i)]
      exact ((pageFor_eq_iff hn).mp hi.symm).1
  · exact h i

lemma Bounded.allocAll {ns : List ℕ} (h : Bounded cap cost ds) (hfull : Full ds)
    (hns : ∀ n ∈ ns, n ≠ 0 ∧ Fits cap cost [] n) : Bounded cap cost (allocAll cap cost ds ns).1 := by
  induction ns generalizing ds with
  | nil => exact h
  | cons n ns ih =>
    rw [List.forall_mem_cons] at hns
    exact ih (h.alloc hfull hns.1.2) (hfull.alloc hns.1.1) hns.2

/-! ### Freeing everything -/

/-- Every slot that a run of allocations added has one of its handles. -/
lemma mem_allocAll {ns : List ℕ} (h : Full ds) (hns : ∀ n ∈ ns, n ≠ 0) {i j : ℕ}
    (hj : j < ((allocAll cap cost ds ns).1.getD i []).length) :
    j < (ds.getD i []).length ∨ (i, j) ∈ (allocAll cap cost ds ns).2 := by
  induction ns generalizing ds with
  | nil => exact Or.inl hj
  | cons n ns ih =>
    rw [List.forall_mem_cons] at hns
    rcases ih (h.alloc hns.1) hns.2 hj with hlt | hmem
    · rw [getD_alloc] at hlt
      split at hlt
      · next hi =>
          rw [put_of_full (h i), List.length_append, List.length_singleton] at hlt
          rcases Nat.lt_or_ge j (ds.getD i []).length with hj | hj
          · exact Or.inl hj
          · -- the new slot
            refine Or.inr (List.mem_cons.mpr (Or.inl ?_))
            have hslot := slot_of_full (h i)
            rw [alloc, ← hi, hslot, Prod.mk.injEq]
            exact ⟨rfl, by omega⟩
      · exact Or.inl hlt
    · exact Or.inr (List.mem_cons_of_mem _ hmem)

lemma length_free (h : ℕ × ℕ) : (free ds h).length = ds.length := List.length_modify _ _ _

lemma getD_free (h : ℕ × ℕ) (i : ℕ) :
    (free ds h).getD i [] = if i = h.1 then (ds.getD i []).set h.2 0 else ds.getD i [] := by
  simp only [free, List.getD_eq_getElem?_getD, List.getElem?_modify]
  by_cases hi : h.1 = i
  · rw [if_pos hi.symm]
    simp only [hi, if_true]
    cases ds[i]? <;> rfl
  · rw [if_neg (Ne.symm hi)]
    simp only [hi, if_false]
    cases ds[i]? <;> rfl

/-- The directories after slots were freed. -/
lemma foldl_free (hs : List (ℕ × ℕ)) (ds : List Dir) :
    (hs.foldl free ds).length = ds.length ∧ ∀ i,
      ((hs.foldl free ds).getD i []).length = (ds.getD i []).length ∧ ∀ j,
        ((hs.foldl free ds).getD i []).getD j 0 =
          if (i, j) ∈ hs then 0 else (ds.getD i []).getD j 0 := by
  induction hs generalizing ds with
  | nil => simp
  | cons h hs ih =>
    obtain ⟨hlen, hrest⟩ := ih (free ds h)
    refine ⟨hlen.trans (length_free h), fun i => ?_⟩
    obtain ⟨hleni, hget⟩ := hrest i
    rw [List.foldl_cons, hleni, getD_free]
    refine ⟨by split <;> simp, fun j => ?_⟩
    rw [hget j, getD_free]
    by_cases hmem : (i, j) ∈ hs
    · rw [if_pos hmem, if_pos (List.mem_cons_of_mem _ hmem)]
    · rw [if_neg hmem]
      by_cases hij : (i, j) = h
      · subst hij
        rw [if_pos rfl, if_pos List.mem_cons_self, List.getD_eq_getElem?_getD, List.getElem?_set]
        simp only [if_true]
        split <;> rfl
      · have hnot : (i, j) ∉ h :: hs := by
          rw [List.mem_cons]
          exact fun hor => hor.elim hij hmem
        rw [if_neg hnot]
        split
        · next hi =>
            have hj : h.2 ≠ j := fun hj => hij (Prod.ext hi hj.symm)
            rw [List.getD_eq_getElem?_getD, List.getElem?_set_ne hj, ← List.getD_eq_getElem?_getD]
        · rfl

/-! ### The replay law -/

/-- `es` are the directories of `fs` with only the items of `ds`: the other slots are free. -/
structure Emptied (ds es fs : List Dir) : Prop where
  length_eq : es.length = fs.length
  getD_eq : ∀ i, es.getD i [] =
    ds.getD i [] ++ List.replicate ((fs.getD i []).length - (ds.getD i []).length) 0

lemma ext_getD (hlen : ds.length = es.length) (h : ∀ i, ds.getD i [] = es.getD i []) :
    ds = es := by
  apply List.ext_getElem hlen
  intro i hi hi'
  have hget := h i
  rwa [List.getD_eq_getElem _ _ hi, List.getD_eq_getElem _ _ hi'] at hget

lemma Emptied.eq (h : Emptied fs es fs) : es = fs := by
  refine ext_getD h.length_eq fun i => ?_
  rw [h.getD_eq, Nat.sub_self, List.replicate_zero, List.append_nil]

/-- The second time an item gets the handle that it got the first time. -/
lemma Emptied.alloc (h : Emptied ds es fs) (hfull : Full ds) (hfits : Fits cap cost [] n)
    (hext : Extends (alloc cap cost ds n).1 fs)
    (hbound : Bounded cap cost fs) :
    (alloc cap cost es n).2 = (alloc cap cost ds n).2 ∧
      Emptied (alloc cap cost ds n).1 (alloc cap cost es n).1 fs := by
  obtain ⟨i, hi⟩ : ∃ i, pageFor cap cost ds n = i := ⟨_, rfl⟩
  obtain ⟨-, hfirst⟩ := (pageFor_eq_iff hfits).mp hi
  -- the item is the next one of its page in `fs`
  have hnext : ds.getD i [] ++ [n] <+: fs.getD i [] := by
    have := hext.isPrefix i
    rwa [getD_alloc, if_pos hi.symm, put_of_full (hfull i)] at this
  obtain ⟨k, hk⟩ : ∃ k, (fs.getD i []).length - (ds.getD i []).length = k + 1 := by
    have := hnext.length_le
    rw [List.length_append, List.length_singleton] at this
    exact ⟨(fs.getD i []).length - (ds.getD i []).length - 1, by omega⟩
  have hesi := h.getD_eq i
  rw [hk] at hesi
  have hpage : pageFor cap cost es n = i := by
    refine (pageFor_eq_iff hfits).mpr ⟨?_, fun j hj hj' => hfirst j hj ?_⟩
    · -- all of `fs` fits in the page, and the item is a part of that
      have hsum : (ds.getD i [] ++ [n]).sum ≤ (fs.getD i []).sum := by
        obtain ⟨rest, hrest⟩ := hnext
        have happ : (ds.getD i [] ++ [n] ++ rest).sum = (ds.getD i [] ++ [n]).sum + rest.sum :=
          List.sum_append
        rw [← hrest, happ]
        exact Nat.le_add_right _ _
      have hroom := hbound i
      have hlen := hnext.length_le
      rw [List.sum_append, List.sum_singleton] at hsum
      rw [List.length_append, List.length_singleton] at hlen
      have hslots : slotsAfter (es.getD i []) = (fs.getD i []).length := by
        rw [hesi, slotsAfter, if_pos (by simp [List.replicate_succ]), List.length_append,
          List.length_replicate]
        omega
      rw [Fits, hslots, hesi, List.sum_append, List.sum_replicate_nat]
      omega
    · rw [h.getD_eq j] at hj'
      exact fits_of_append_replicate (hfull j) hj'
  constructor
  · rw [SlotAlloc.alloc, SlotAlloc.alloc, hpage, hi, hesi, slot_append_replicate (hfull i),
      slot_of_full (hfull i)]
  · have hlen : es.length = (SlotAlloc.alloc cap cost es n).1.length := by
      have hlt : i < fs.length := by
        by_contra hge
        rw [List.getD_eq_default fs [] (not_lt.mp hge)] at hnext
        simpa using hnext.length_le
      rw [SlotAlloc.alloc, length_update pageFor_le_length, hpage, h.length_eq]
      omega
    refine ⟨hlen.symm.trans h.length_eq, fun j => ?_⟩
    rw [getD_alloc, getD_alloc, hpage, hi]
    by_cases hj : j = i
    · subst hj
      rw [if_pos rfl, if_pos rfl, hesi, put_append_replicate (hfull j), put_of_full (hfull j),
        List.length_append, List.length_singleton]
      congr 2
      omega
    · rw [if_neg hj, if_neg hj, h.getD_eq j]

lemma Emptied.allocAll {ns : List ℕ} (h : Emptied ds es fs) (hfull : Full ds)
    (hns : ∀ n ∈ ns, n ≠ 0 ∧ Fits cap cost [] n) (hfs : (allocAll cap cost ds ns).1 = fs)
    (hbound : Bounded cap cost fs) : allocAll cap cost es ns = allocAll cap cost ds ns := by
  induction ns generalizing ds es with
  | nil =>
    obtain rfl : ds = fs := hfs
    rw [h.eq]
  | cons n ns ih =>
    rw [List.forall_mem_cons] at hns
    have hfull' : Full (SlotAlloc.alloc cap cost ds n).1 := hfull.alloc hns.1.1
    have hext : Extends (SlotAlloc.alloc cap cost ds n).1 fs := by
      rw [← hfs]
      exact extends_allocAll hfull' fun m hm => (hns.2 m hm).1
    obtain ⟨hhandle, hstep⟩ := h.alloc hfull hns.1.2 hext hbound
    rw [SlotAlloc.allocAll, SlotAlloc.allocAll, hhandle, ih hstep hfull' hns.2 hfs]

/-- **The replay law**: allocate items in empty pages, free all of them in any order, and
allocate them again: they get the same handles, and the directories are the same. -/
theorem replay {ns : List ℕ} (hns : ∀ n ∈ ns, n ≠ 0 ∧ Fits cap cost [] n)
    {order : List (ℕ × ℕ)} (horder : order.Perm (allocAll cap cost [] ns).2) :
    allocAll cap cost (order.foldl free (allocAll cap cost [] ns).1) ns =
      allocAll cap cost [] ns := by
  have hfull : Full [] := fun i => by simp
  have hbound : Bounded cap cost (allocAll cap cost [] ns).1 :=
    Bounded.allocAll (fun i => by simp) hfull hns
  refine Emptied.allocAll ?_ hfull hns rfl hbound
  obtain ⟨hlen, hget⟩ := foldl_free order (allocAll cap cost [] ns).1
  refine ⟨hlen, fun i => ?_⟩
  obtain ⟨hleni, hzero⟩ := hget i
  rw [List.getD_nil, List.nil_append, List.length_nil, Nat.sub_zero, List.eq_replicate_iff]
  refine ⟨hleni, fun m hm => ?_⟩
  obtain ⟨j, hj, rfl⟩ := List.getElem_of_mem hm
  have hmem : (i, j) ∈ order := by
    rw [horder.mem_iff]
    rcases mem_allocAll hfull (fun n hn => (hns n hn).1) (hleni ▸ hj) with h | h
    · simp at h
    · exact h
  have hj' := hzero j
  rwa [if_pos hmem, List.getD_eq_getElem _ _ hj] at hj'

end Pages

end SlotAlloc

end CsLab
