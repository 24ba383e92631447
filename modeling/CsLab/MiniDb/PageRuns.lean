/-
Runs of the page functions.

`Reachable` are the pages that `page_insert`, `page_delete` and `page_compact` make of
an initialised page.  All of them are well formed.
-/
import CsLab.MiniDb.PageInsert

namespace CsLab

namespace MiniDb

open PageM Extents Finset

/-! ### Pages reached from `page_init` -/

/-- A record of `n` equal bytes. -/
def record (n : ℕ) (b : UInt8) (h : n < 2 ^ 16) : Area := ⟨List.replicate n b, by simpa using h⟩

lemma length_record {n : ℕ} (b : UInt8) (h : n < 2 ^ 16) : (record n b h).length = n :=
  List.length_replicate

/-- A call that changes a page. -/
inductive PageOp where
  | insert (record : Option Area)
  | delete (slotId : ℕ)
  | compact

/-- The page after one call. -/
def PageOp.apply : PageOp → Page → Page
  | .insert record, p => ((pageInsert record).run p).2
  | .delete slotId, p => ((pageDelete slotId).run p).2
  | .compact, p => (pageCompact.run p).2

/-- The page after a sequence of calls. -/
def pageAfter (p : Page) (ops : List PageOp) : Page := ops.foldl (fun p op => op.apply p) p

/-- The pages that the page functions make of a page that was initialised. -/
def Reachable (p : Page) : Prop := ∃ ops, p = pageAfter emptyPage ops

/-- Every call keeps the representation invariant. -/
lemma PageOp.wellFormed_apply {p : Page} (hp : WellFormed p) (op : PageOp) :
    WellFormed (op.apply p) := by
  cases op with
  | insert record =>
    by_cases hrec : ∀ r, record = some r → r.length = 0
    · rw [PageOp.apply, PageM.run, pageInsert_refuse record hrec]
      exact hp
    · push Not at hrec
      obtain ⟨r, rfl, hr⟩ := hrec
      obtain ⟨q, hq, ⟨hfits, -, hplaced⟩ | ⟨-, -, hpage⟩⟩ := pageInsert_spec hp hr ⟨p, []⟩ rfl
      · exact hplaced.wellFormed ((hq.gap_iff_fits hp).mpr hfits) (hq.wellFormed hp)
      · rw [PageOp.apply, PageM.run, hpage]
        exact hq.wellFormed hp
  | delete i =>
    rw [PageOp.apply, PageM.run]
    rcases pageDelete_spec hp i ⟨p, []⟩ rfl with ⟨hi, -, -, hpage⟩ | ⟨-, -, hpage⟩
    · rw [hpage]
      exact wellFormed_delete hp hi
    · rw [hpage]
      exact hp
  | compact => exact (pageCompact_spec hp ⟨p, []⟩ rfl).wellFormed hp

lemma wellFormed_pageAfter {p : Page} (hp : WellFormed p) (ops : List PageOp) :
    WellFormed (pageAfter p ops) := by
  induction ops generalizing p with
  | nil => exact hp
  | cons op ops ih => exact ih (op.wellFormed_apply hp)

theorem Reachable.wellFormed {p : Page} (h : Reachable p) : WellFormed p := by
  obtain ⟨ops, rfl⟩ := h
  exact wellFormed_pageAfter wellFormed_emptyPage ops

/-- **The layout of every reachable page**: from `page_init` on, whatever page it was
applied to, and through any sequence of calls. -/
theorem page_layout (p₀ : Page) (ops : List PageOp) :
    let p := pageAfter (pageInit.run p₀).2 ops
    freeEnd p + slotCount p * sizeofSlot = pageSize ∧
    sizeofPageHeader ≤ freeStart p ∧ freeStart p ≤ freeEnd p ∧ freeEnd p ≤ pageSize ∧
    (∀ i < slotCount p, slotLen p i ≠ 0 →
      sizeofPageHeader ≤ slotOff p i ∧ slotOff p i + slotLen p i ≤ freeStart p) ∧
    (∀ i < slotCount p, ∀ j < slotCount p, i ≠ j → slotLen p i ≠ 0 → slotLen p j ≠ 0 →
      Disjoint (Ico (slotOff p i) (slotOff p i + slotLen p i))
        (Ico (slotOff p j) (slotOff p j + slotLen p j))) ∧
    sizeofPageHeader + ∑ i ∈ range (slotCount p), slotLen p i ≤ freeStart p := by
  have hwf := wellFormed_pageAfter wellFormed_emptyPage ops
  rw [pageInit_run]
  have hend := hwf.end_eq
  refine ⟨by simp only [sizeofSlot, pageSize]; omega, hwf.start_ge, hwf.start_le,
    by simp only [pageSize]; omega, hwf.inside, ?_, hwf.liveBytes_le⟩
  intro i hi j hj hij hleni hlenj
  rw [disjoint_left]
  intro x hxi hxj
  rw [mem_Ico] at hxi hxj
  rcases hwf.apart i hi j hj hij hleni hlenj with h | h <;> omega

end MiniDb

end CsLab
