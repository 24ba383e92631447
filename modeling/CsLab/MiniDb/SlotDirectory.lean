/-
The slots of a page, and the space that they leave.

`page_insert` looks for a deleted slot before it takes a new one, and compacts the page
before it gives up.  So it accepts a record exactly when the bytes of the page suffice
(`page_insert_exact`), and the directory is never larger than the number of slots that were
live at once (`slot_count_eq_peak`).
-/
import CsLab.Lib.Peak
import CsLab.MiniDb.PageAccess
import CsLab.MiniDb.PageRecords

namespace CsLab

namespace MiniDb

open PageM Finset Peak

/-- The live slots. -/
def liveSlots (p : Page) : Finset ℕ := {i ∈ range (slotCount p) | slotLen p i ≠ 0}

/-- The deleted slots. -/
def deletedSlots (p : Page) : Finset ℕ := {i ∈ range (slotCount p) | slotLen p i = 0}

section Slots

variable {p : Page} {i : ℕ}

lemma sum_liveSlots (p : Page) : ∑ i ∈ liveSlots p, slotLen p i = liveBytes p :=
  sum_filter_ne_zero _

lemma card_liveSlots_le (p : Page) : (liveSlots p).card ≤ slotCount p :=
  (card_filter_le _ _).trans_eq (card_range _)

/-- Every live record has a byte. -/
lemma card_liveSlots_le_liveBytes (p : Page) : (liveSlots p).card ≤ liveBytes p := by
  rw [← sum_liveSlots, card_eq_sum_ones]
  refine sum_le_sum fun i hi => ?_
  exact Nat.one_le_iff_ne_zero.mpr (mem_filter.mp hi).2

lemma deletedSlots_eq_empty : deletedSlots p = ∅ ↔ firstDeleted p = none := by
  simp [deletedSlots, firstDeleted_eq_none, filter_eq_empty_iff]

lemma isLeast_deletedSlots : IsLeast (deletedSlots p : Set ℕ) i ↔ firstDeleted p = some i := by
  rw [firstDeleted_eq_some]
  simp only [IsLeast, lowerBounds, deletedSlots, coe_filter, mem_range, Set.mem_ofPred_eq]
  constructor
  · rintro ⟨⟨hi, hlen⟩, hmin⟩
    refine ⟨hi, hlen, fun j hj hzero => ?_⟩
    have hle := hmin ⟨by omega, hzero⟩
    omega
  · rintro ⟨hi, hlen, hmin⟩
    refine ⟨⟨hi, hlen⟩, fun j hj => ?_⟩
    by_contra hlt
    exact hmin j (by omega) hj.2

/-- If no slot is deleted, all are live. -/
lemma card_liveSlots_of_full (h : firstDeleted p = none) : (liveSlots p).card = slotCount p := by
  rw [liveSlots, filter_true_of_mem fun i hi => firstDeleted_eq_none.mp h i (mem_range.mp hi),
    card_range]

end Slots

/-! ### The space check -/

/-- The sizes as the code has them. -/
lemma fits_iff (p : Page) (n : ℕ) :
    Fits p n ↔ sizeofPageHeader + ∑ i ∈ liveSlots p, slotLen p i + n +
      sizeofSlot * (slotCount p + if deletedSlots p = ∅ then 1 else 0) ≤ pageSize := by
  rw [Fits, slotsAfter, sum_liveSlots]
  simp only [deletedSlots_eq_empty, sizeofPageHeader, sizeofSlot, pageSize]

/-- **`page_insert` uses the space of a page exactly**: it succeeds if and only if the header,
the live records, the new one and the directory fit in the page, wherever the records lie.  It
takes the smallest deleted slot, or a new one if there is none, and `page_get` returns the
record from there. -/
theorem page_insert_exact {p : Page} (hp : Reachable p) (r : Area) :
    let done := (pageInsert (some r)).run p
    (0 ≤ done.1 ↔ 1 ≤ r.length ∧
      sizeofPageHeader + ∑ i ∈ liveSlots p, slotLen p i + r.length +
        sizeofSlot * (slotCount p + if deletedSlots p = ∅ then 1 else 0) ≤ pageSize) ∧
    (0 ≤ done.1 →
      (∀ i, IsLeast (deletedSlots p : Set ℕ) i → done.1 = i) ∧
      (deletedSlots p = ∅ → done.1 = slotCount p) ∧
      (∀ buffer : Area, r.length ≤ buffer.length →
        ((pageGet done.1.toNat (some buffer)).run done.2).1 =
          ((r.length : ℤ), some (buffer.fill r.bytes))) ∧
      slotCount done.2 = slotCount p + if deletedSlots p = ∅ then 1 else 0) := by
  have hwf := hp.wellFormed
  rw [← fits_iff]
  dsimp only [PageM.run]
  by_cases hr : r.length = 0
  · rw [pageInsert_refuse (some r) (by rintro _ ⟨⟩; exact hr)]
    simp [hr]
  obtain ⟨q, hq, ⟨hfits, hret, hplaced⟩ | ⟨hfits, hret, -⟩⟩ := pageInsert_spec hwf hr ⟨p, []⟩ rfl
  · have hgap := (hq.gap_iff_fits hwf).mpr hfits
    have hrec := hplaced.recordAt_eq (hq.wellFormed hwf) hr hgap (insertSlot p)
    rw [hq.insertSlot_eq, if_pos rfl] at hrec
    rw [hret]
    refine ⟨by simp [hfits, Nat.one_le_iff_ne_zero, hr], fun _ => ⟨fun i hi => ?_, fun hnone => ?_,
      fun buffer hlen => ?_, ?_⟩⟩
    · rw [insertSlot, isLeast_deletedSlots.mp hi, Option.getD_some]
    · rw [insertSlot, deletedSlots_eq_empty.mp hnone, Option.getD_none]
    · exact pageGet_of_record (hplaced.wellFormed hgap (hq.wellFormed hwf)) hrec buffer hlen
    · rw [hplaced.count, hq.slotsAfter_eq, slotsAfter]
      simp only [deletedSlots_eq_empty]
  · rw [hret]
    simp [hfits]

theorem page_insert_exact_reuse :
    let p := pageAfter emptyPage [.insert (some (record 100 65 (by decide))), .delete 0]
    let r := record 4000 66 (by decide)
    let done := (pageInsert (some r)).run p
    (0 ≤ done.1 ↔ 1 ≤ r.length ∧
      sizeofPageHeader + ∑ i ∈ liveSlots p, slotLen p i + r.length +
        sizeofSlot * (slotCount p + if deletedSlots p = ∅ then 1 else 0) ≤ pageSize) ∧
    (0 ≤ done.1 →
      (∀ i, IsLeast (deletedSlots p : Set ℕ) i → done.1 = i) ∧
      (deletedSlots p = ∅ → done.1 = slotCount p) ∧
      (∀ buffer : Area, r.length ≤ buffer.length →
        ((pageGet done.1.toNat (some buffer)).run done.2).1 =
          ((r.length : ℤ), some (buffer.fill r.bytes))) ∧
      slotCount done.2 = slotCount p + if deletedSlots p = ∅ then 1 else 0) :=
  page_insert_exact ⟨_, rfl⟩ (record 4000 66 (by decide))

/-! ### The directory in a run -/

/-- After a new slot was taken, all slots are live. -/
lemma Placed.firstDeleted_eq_none {q p : Page} {r : Area} (h : Placed q r p)
    (hr : r.length ≠ 0) (hnone : firstDeleted q = none) : firstDeleted p = none := by
  rw [MiniDb.firstDeleted_eq_none] at hnone ⊢
  intro i hi
  rw [h.len i hi]
  split
  · exact hr
  · next hne => exact hnone i (lt_slotCount_of_ne (h.count ▸ hi) hne)

/-- A call adds a slot to the directory only if all slots are live then. -/
lemma slotCount_apply {p : Page} (hp : WellFormed p) (op : PageOp) :
    slotCount (op.apply p) = max (slotCount p) (liveSlots (op.apply p)).card := by
  have hkeep : slotCount (op.apply p) = slotCount p →
      slotCount (op.apply p) = max (slotCount p) (liveSlots (op.apply p)).card := fun heq => by
    have hle := card_liveSlots_le (op.apply p)
    omega
  cases op with
  | insert record =>
    by_cases hrec : ∀ r, record = some r → r.length = 0
    · refine hkeep ?_
      rw [PageOp.apply, PageM.run, pageInsert_refuse record hrec]
    · push Not at hrec
      obtain ⟨r, rfl, hr⟩ := hrec
      obtain ⟨q, hq, ⟨-, -, hplaced⟩ | ⟨-, -, hpage⟩⟩ := pageInsert_spec hp hr ⟨p, []⟩ rfl
      · have hcount : slotCount ((PageOp.insert (some r)).apply p) = slotsAfter p :=
          hplaced.count.trans hq.slotsAfter_eq
        cases hd : firstDeleted p with
        | some i =>
          refine hkeep ?_
          rw [hcount, slotsAfter, hd, if_neg (by simp), Nat.add_zero]
        | none =>
          have hfull := card_liveSlots_of_full
            (hplaced.firstDeleted_eq_none hr (hq.firstDeleted_eq.trans hd))
          have hle : slotCount p ≤ slotsAfter p := Nat.le_add_right _ _
          rw [← hcount] at hle
          exact (max_eq_right (hle.trans_eq hfull.symm)).trans hfull |>.symm
      · refine hkeep ?_
        rw [PageOp.apply, PageM.run, hpage, hq.count]
  | delete i =>
    refine hkeep ?_
    rw [PageOp.apply, PageM.run]
    rcases pageDelete_spec hp i ⟨p, []⟩ rfl with ⟨hi, -, -, hpage⟩ | ⟨-, -, hpage⟩
    · have hcount := hp.slotCount_le
      rw [hpage, slotCount_put16 _ _ (by simp only [lengthField, slotAt]; omega)]
    · rw [hpage]
  | compact => exact hkeep (pageCompact_spec hp ⟨p, []⟩ rfl).count

/-- The live slots of a well-formed page, with a byte for each, fit behind the header. -/
lemma card_liveSlots_bound {p : Page} (hp : WellFormed p) :
    (liveSlots p).card ≤ (pageSize - sizeofPageHeader) / (sizeofSlot + 1) := by
  have hlive := hp.liveBytes_le
  have hcard := card_liveSlots_le_liveBytes p
  have hslots := card_liveSlots_le p
  have hend := hp.end_eq
  have hstart := hp.start_le
  rw [Nat.le_div_iff_mul_le (by decide)]
  simp only [pageSize, sizeofPageHeader, sizeofSlot]
  omega

/-- **The directory is as small as the history allows**: in every run from `page_init`,
`slot_count` is the largest number of slots that were live at once.  So it is at most as
large as the page allows for records of one byte, and every slot that a page function looks
at lies above the header. -/
theorem slot_count_eq_peak (ops : List PageOp) :
    let p := pageAfter emptyPage ops
    slotCount p = (range (ops.length + 1)).sup
        (fun k => (liveSlots (pageAfter emptyPage (ops.take k))).card) ∧
      slotCount p ≤ (pageSize - sizeofPageHeader) / (sizeofSlot + 1) ∧
      (∀ i < slotCount p, ∀ s, sizeofPageHeader ≤ (slotOffset i s).1) ∧
      ∀ call : PageCall, ∀ e ∈ call.accesses p, ∀ off,
        (e.2 = .load off ∨ ∃ v, e.2 = .store off v) → IsField e.1 off := by
  have hwf := fun ops => wellFormed_pageAfter wellFormed_emptyPage ops
  have hpeak : slotCount (pageAfter emptyPage ops) =
      peak (fun p (op : PageOp) => op.apply p) (fun p => (liveSlots p).card) emptyPage ops := by
    refine eq_peak ?_ (fun ops op => slotCount_apply (hwf ops) op) ops
    have hle := card_liveSlots_le emptyPage
    rw [slotCount_emptyPage] at hle ⊢
    omega
  have hbound : slotCount (pageAfter emptyPage ops) ≤
      (pageSize - sizeofPageHeader) / (sizeofSlot + 1) := by
    rw [hpeak]
    exact Finset.sup_le fun k _ => card_liveSlots_bound (hwf (ops.take k))
  refine ⟨hpeak, hbound, fun i hi s => ?_, fun call e he off hoff => ?_⟩
  · have hcount := (hwf ops).slotCount_le
    rw [slotOffset_fst s (by omega)]
    simp only [slotAt, sizeofPageHeader]
    omega
  · have hsound := call.sound (hwf ops) e he
    rcases hoff with hload | ⟨v, hstore⟩
    · rw [hload] at hsound
      exact hsound.2
    · rw [hstore] at hsound
      exact hsound.2.1

end MiniDb

end CsLab
