/-
Where `heap_insert` puts a record.

It is the first page with room for the record, counting the live records of the page and its
directory, however the records are scattered; if there is none, it is a new page.  No other
page changes.
-/
import CsLab.MiniDb.HeapRuns

namespace CsLab

namespace MiniDb

open File Blocks Prog Finset
open SlotAlloc (update length_update getD_update)

/-- The live records of the page, a record of `n` bytes and the directory fit in a page. -/
def HasRoom (p : Page) (n : ℕ) : Prop :=
  sizeofPageHeader + ∑ i ∈ range (slotCount p), slotLen p i + n +
    sizeofSlot * (slotCount p + if ∃ i < slotCount p, slotLen p i = 0 then 0 else 1) ≤ pageSize

lemma hasRoom_iff_fits (p : Page) (n : ℕ) : HasRoom p n ↔ Fits p n := by
  have hslots : (slotCount p + if ∃ i < slotCount p, slotLen p i = 0 then 0 else 1) =
      slotsAfter p := by
    rw [slotsAfter]
    cases hd : firstDeleted p with
    | none =>
      have hno : ¬ ∃ i < slotCount p, slotLen p i = 0 := by
        rintro ⟨i, hi, hlen⟩
        exact firstDeleted_eq_none.mp hd i hi hlen
      rw [if_neg hno, if_pos rfl]
    | some i =>
      obtain ⟨hi, hlen, -⟩ := firstDeleted_eq_some.mp hd
      rw [if_pos ⟨i, hi, hlen⟩, if_neg (by simp)]
  rw [HasRoom, hslots, Fits, liveBytes]

section FirstFit

variable {fd : ℕ} {es : List HeapEvent} {s : HeapState} {ps : List Page} {r : Area}

lemma getElem?_insertPages {q : ℕ} (hq : q ≠ pageFor ps r) :
    (insertPages ps r)[q]? = if q < ps.length then ps[q]? else none := by
  have hpage := pageFor_le ps r
  rw [insertPages, update]
  split
  · rw [List.getElem?_set_ne (Ne.symm hq)]
    split
    · rfl
    · next h => exact List.getElem?_eq_none (not_lt.mp h)
  · split
    · next h => exact List.getElem?_append_left h
    · exact List.getElem?_eq_none (by simp; omega)

/-- **First fit**: in every heap file that a run from an empty file reaches, `heap_insert`
stores an admissible record in the first page with room for it, and adds a page only if there
is none; all other pages stay as they are. -/
theorem first_fit (hrun : Run HeapStep (freshHeap fd) es s) (hroom : Roomy s.file)
    (hr : 1 ≤ r.length) (hmax : r.length ≤ pageSize - sizeofPageHeader - sizeofSlot) (rid : RID) :
    let ps := blocks pageSize s.file.bytes
    let out := heapInsert (some s.heap) (some r) (some rid) s.file
    ∃ rid', out.1 = (0, some rid') ∧
      ((∃ p, ps[rid'.pageId]? = some p ∧ HasRoom p r.length ∧
          (∀ q p', q < rid'.pageId → ps[q]? = some p' → ¬ HasRoom p' r.length) ∧
          out.2.bytes.length = s.file.bytes.length) ∨
        ((∀ p ∈ ps, ¬ HasRoom p r.length) ∧ rid'.pageId = ps.length ∧
          out.2.bytes.length = s.file.bytes.length + pageSize)) ∧
      ∀ q ≠ rid'.pageId, (blocks pageSize out.2.bytes)[q]? = ps[q]? := by
  obtain ⟨hhealthy, ps, hstores⟩ := stores_of_run hrun
  have hmax' : r.length ≤ 4086 := hmax
  obtain ⟨hret, tail', htail', hholds⟩ :=
    heapInsert_healthy hstores hhealthy hroom (by omega) hmax' rid
  obtain rfl : tail' = [] := List.length_eq_zero_iff.mp htail'
  have hroom_iff : ∀ p, HasRoom p r.length ↔ Accepts p r := fun p => by
    rw [hasRoom_iff_fits]
    exact ⟨fun h => ⟨by omega, h⟩, fun h => h.2⟩
  obtain ⟨htakes, hle, hfirst⟩ := pageFor_eq_iff.mp (Eq.refl (pageFor ps r))
  have hlen : (heapInsert (some s.heap) (some r) (some rid) s.file).2.bytes.length =
      max ps.length (pageFor ps r + 1) * pageSize := by
    rw [hholds.bytes, List.append_nil, length_flat, insertPages, length_update hle]
  have hlen₀ : s.file.bytes.length = ps.length * pageSize := by
    rw [hstores.holds.bytes, List.append_nil, length_flat]
  dsimp only
  rw [hstores.holds.blocks_eq, hholds.blocks_eq, hlen, hlen₀]
  simp only [hroom_iff]
  refine ⟨insertRid ps r, hret, ?_, fun q hq => ?_⟩
  -- the record goes to a page that was there, or to a new one
  · rcases Nat.lt_or_ge (pageFor ps r) ps.length with hlt | hge
    · refine Or.inl ⟨ps[pageFor ps r], List.getElem?_eq_getElem hlt, ?_, ?_, ?_⟩
      · rw [← List.getD_eq_getElem ps emptyPage hlt]
        exact htakes hlt
      · intro q p' hq hp'
        have hget : ps.getD q emptyPage = p' := by rw [List.getD_eq_getElem?_getD, hp']; rfl
        exact hget ▸ hfirst q hq
      · rw [Nat.max_eq_left hlt]
    · have hall : pageFor ps r = ps.length := le_antisymm hle hge
      refine Or.inr ⟨fun p hp => ?_, hall, ?_⟩
      · obtain ⟨i, hi, rfl⟩ := List.getElem_of_mem hp
        rw [← List.getD_eq_getElem ps emptyPage hi]
        exact hfirst i (by omega)
      · rw [hall, Nat.max_eq_right (Nat.le_succ _), Nat.succ_mul]
  · rw [getElem?_insertPages hq]
    split
    · rfl
    · next h => exact (List.getElem?_eq_none (not_lt.mp h)).symm

theorem first_fit_reuse : ∃ s rid', Run HeapStep (freshHeap 3) (pageRun reuseCalls []).1 s ∧
    (heapInsert (some s.heap) (some (record 500 7 (by decide))) (some ⟨0, 0⟩) s.file).1 =
      (0, some rid') := by
  obtain ⟨s, hrun, hroom, -⟩ := exists_reuse_run
  obtain ⟨rid', hret, -⟩ := first_fit (r := record 500 7 (by decide)) hrun hroom
    (by rw [length_record]; omega) (by rw [length_record]; decide) ⟨0, 0⟩
  exact ⟨s, rid', hrun, hret⟩

end FirstFit

end MiniDb

end CsLab
