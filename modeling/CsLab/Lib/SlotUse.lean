/-
How many pages first fit uses.

As long as nothing is freed, any two pages together hold more than one page can: an item only
goes to a new page if it fits in none of the others (`Tight`).  So first fit uses at most
twice as many pages as any other way to put the items into pages (`Filled.length_le`).
-/
import Mathlib.Tactic.Linarith
import CsLab.Lib.SlotAlloc

namespace CsLab

namespace SlotAlloc

/-- What a page holds, with the directory. -/
def use (cost : ℕ) (d : Dir) : ℕ := d.sum + cost * d.length

/-- What the pages hold. -/
def uses (cost : ℕ) (ds : List Dir) : ℕ := (ds.map (use cost)).sum

/-- What items take in a page. -/
def demand (cost : ℕ) (ns : List ℕ) : ℕ := (ns.map (· + cost)).sum

/-- Any two pages together hold more than one page can. -/
def Tight (cap cost : ℕ) (ds : List Dir) : Prop :=
  ds.Pairwise fun d d' => cap < use cost d + use cost d'

section Use

variable {cap cost : ℕ} {ds : List Dir} {n : ℕ}

lemma use_append (cost n : ℕ) (d : Dir) : use cost (d ++ [n]) = use cost d + (n + cost) := by
  simp only [use, List.sum_append, List.sum_singleton, List.length_append, List.length_singleton,
    Nat.mul_add, Nat.mul_one]
  omega

/-- The head of the list is counted once more, for the induction. -/
lemma length_mul_le (h : Tight cap cost ds) :
    (ds.length - 1) * (cap + 1) + use cost (ds.headD []) ≤ 2 * uses cost ds := by
  induction ds with
  | nil => simp [use]
  | cons d ds ih =>
    rw [Tight, List.pairwise_cons] at h
    have hrest := ih h.2
    cases ds with
    | nil =>
      simp only [uses, List.map_cons, List.map_nil, List.sum_cons, List.sum_nil, List.length_cons,
        List.length_nil, List.headD_cons]
      omega
    | cons e ds =>
      have hpair := h.1 e (List.mem_cons_self ..)
      simp only [uses, List.map_cons, List.sum_cons, List.length_cons, List.headD_cons,
        Nat.add_sub_cancel] at hrest ⊢
      rw [Nat.add_mul, Nat.one_mul]
      omega

/-- An item goes to the page where it fits first. -/
lemma alloc_cases (cap cost n : ℕ) (hfull : ∀ d ∈ ds, 0 ∉ d) :
    (∃ ds₁ d ds₂, ds = ds₁ ++ d :: ds₂ ∧
      (alloc cap cost ds n).1 = ds₁ ++ (d ++ [n]) :: ds₂) ∨
    (∀ d ∈ ds, cap < use cost d + (n + cost)) ∧ (alloc cap cost ds n).1 = ds ++ [[n]] := by
  have hle : pageFor cap cost ds n ≤ ds.length := pageFor_le_length
  rcases Nat.lt_or_ge (pageFor cap cost ds n) ds.length with hlt | hge
  · left
    have hget : ds.getD (pageFor cap cost ds n) [] = ds[pageFor cap cost ds n] :=
      List.getD_eq_getElem _ _ hlt
    have hmem := hfull _ (List.getElem_mem hlt)
    refine ⟨ds.take (pageFor cap cost ds n), ds[pageFor cap cost ds n],
      ds.drop (pageFor cap cost ds n + 1), ?_, ?_⟩
    · rw [List.getElem_cons_drop, List.take_append_drop]
    · rw [alloc, hget, put_of_full hmem, update, if_pos hlt, List.set_eq_take_append_cons_drop,
        if_pos hlt]
  · right
    have hpage : pageFor cap cost ds n = ds.length := le_antisymm hle hge
    constructor
    · intro d hd
      have hno : ¬ Fits cap cost d n := by
        have hall := List.findIdx_eq_length.mp hpage d hd
        simpa using hall
      rw [fits_of_full (hfull d hd)] at hno
      have hadd := use_append cost n d
      rw [use] at hadd
      omega
    · rw [alloc, hpage, update, if_neg (Nat.lt_irrefl _), List.getD_eq_default _ _ le_rfl]
      rfl

/-- The pages hold the items `ns`, which were allocated one after the other. -/
structure Filled (cap cost : ℕ) (ds : List Dir) (ns : List ℕ) : Prop where
  full : ∀ d ∈ ds, 0 ∉ d
  tight : Tight cap cost ds
  uses_eq : uses cost ds = demand cost ns
  nil_of_nil : ns = [] → ds = []

lemma Filled.nil : Filled cap cost [] [] := ⟨by simp, .nil, rfl, fun _ => rfl⟩

lemma Filled.alloc {ns : List ℕ} (h : Filled cap cost ds ns) (hn : n ≠ 0) :
    Filled cap cost (alloc cap cost ds n).1 (ns ++ [n]) := by
  have hdemand : demand cost (ns ++ [n]) = uses cost ds + (n + cost) := by
    rw [h.uses_eq, demand, List.map_append, List.sum_append, List.map_singleton,
      List.sum_singleton]
    rfl
  have hne : ns ++ [n] = [] → (SlotAlloc.alloc cap cost ds n).1 = [] := by simp
  rcases alloc_cases cap cost n h.full with
    ⟨ds₁, d, ds₂, hds, halloc⟩ | ⟨hno, halloc⟩
  · have huse := use_append cost n d
    obtain ⟨hfull, htight, -, -⟩ := h
    rw [halloc] at hne ⊢
    rw [hds] at hfull htight hdemand
    refine ⟨?_, ?_, ?_, hne⟩
    · simp only [List.forall_mem_append, List.forall_mem_cons] at hfull ⊢
      refine ⟨hfull.1, ?_, hfull.2.2⟩
      rw [List.mem_append, List.mem_singleton]
      exact fun hor => hor.elim hfull.2.1 fun hzero => hn hzero.symm
    · -- the page holds more than before
      simp only [Tight, List.pairwise_append, List.pairwise_cons, List.mem_cons,
        forall_eq_or_imp, huse] at htight ⊢
      refine ⟨htight.1, ⟨fun e he => ?_, htight.2.1.2⟩, fun e he => ⟨?_, (htight.2.2 e he).2⟩⟩
      · have hpair := htight.2.1.1 e he
        omega
      · have hpair := (htight.2.2 e he).1
        omega
    · rw [hdemand]
      simp only [uses, List.map_append, List.map_cons, List.sum_append, List.sum_cons, huse]
      omega
  · have huse : use cost [n] = n + cost := by simp [use]
    rw [halloc] at hne ⊢
    refine ⟨?_, ?_, ?_, hne⟩
    · simp only [List.forall_mem_append, List.forall_mem_cons]
      exact ⟨h.full, by simpa using hn.symm, by simp⟩
    · rw [Tight, List.pairwise_append]
      refine ⟨h.tight, List.pairwise_singleton _ _, fun d hd e he => ?_⟩
      rw [List.mem_singleton.mp he, huse]
      exact hno d hd
    · rw [hdemand]
      simp [uses, huse]

lemma demand_filter_le (cost : ℕ) (d : Dir) : demand cost (d.filter (· ≠ 0)) ≤ use cost d := by
  induction d with
  | nil => simp [demand, use]
  | cons m d ih =>
    have hcons : use cost (m :: d) = m + cost + use cost d := by
      simp only [use, List.sum_cons, List.length_cons, Nat.mul_add, Nat.mul_one]
      omega
    rw [hcons, List.filter_cons]
    split
    · simp only [demand, List.map_cons, List.sum_cons] at ih ⊢
      omega
    · omega

lemma demand_le_uses (cost : ℕ) (es : List Dir) :
    demand cost (es.flatten.filter (· ≠ 0)) ≤ uses cost es := by
  induction es with
  | nil => simp [demand, uses]
  | cons d es ih =>
    have hd := demand_filter_le cost d
    simp only [demand, uses, List.flatten_cons, List.filter_append, List.map_append,
      List.sum_append, List.map_cons, List.sum_cons] at ih hd ⊢
    omega

lemma uses_le {es : List Dir} (hes : ∀ e ∈ es, use cost e ≤ cap) :
    uses cost es ≤ es.length * cap := by
  induction es with
  | nil => simp [uses]
  | cons e es ih =>
    rw [List.forall_mem_cons] at hes
    have hrest := ih hes.2
    simp only [uses, List.map_cons, List.sum_cons, List.length_cons, Nat.add_mul,
      Nat.one_mul] at hrest ⊢
    omega

/-- **First fit uses at most twice the pages** that any arrangement of the items needs. -/
theorem Filled.length_le {ns : List ℕ} {es : List Dir} (h : Filled cap cost ds ns)
    (hes : ∀ e ∈ es, use cost e ≤ cap) (hns : (es.flatten.filter (· ≠ 0)).Perm ns) :
    ds.length ≤ 2 * es.length := by
  have hdemand : demand cost ns = demand cost (es.flatten.filter (· ≠ 0)) :=
    (hns.map (· + cost)).sum_eq.symm
  have hpages := length_mul_le h.tight
  have hitems := demand_le_uses cost es
  have hbound := uses_le hes
  rw [h.uses_eq, hdemand] at hpages
  by_contra hlt
  have hmore : 2 * es.length * (cap + 1) ≤ (ds.length - 1) * (cap + 1) :=
    Nat.mul_le_mul_right _ (by omega)
  have hzero : es.length = 0 := by nlinarith
  rw [List.length_eq_zero_iff] at hzero
  rw [hzero] at hns
  have hnil := h.nil_of_nil (List.nil_perm.mp hns)
  rw [hnil] at hlt
  exact hlt (Nat.zero_le _)

end Use

end SlotAlloc

end CsLab
