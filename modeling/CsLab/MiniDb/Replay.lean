/-
The heap file recovers all space.

Seen from its directories, the heap file is a first-fit allocator: `dir p` lists the lengths
of the slots of a page, an insert is `SlotAlloc.alloc` and a delete is `SlotAlloc.free`.  So
the replay law of the allocator is one of the heap file (`replay_law`).
-/
import CsLab.MiniDb.HeapRuns

namespace CsLab

namespace MiniDb

open File Blocks Prog
open SlotAlloc (alloc allocAll free slot put update map_update length_alloc_ge)

/-! ### The directory of a page -/

/-- The lengths of the slots of a page, `0` for a deleted one. -/
def dir (p : Page) : SlotAlloc.Dir := (List.range (slotCount p)).map (slotLen p)

section Dir

variable {p : Page} {r : Area}

@[simp] lemma length_dir (p : Page) : (dir p).length = slotCount p := by simp [dir]

lemma getElem_dir (p : Page) {i : ℕ} (h : i < (dir p).length) : (dir p)[i] = slotLen p i := by
  simp [dir]

lemma dir_emptyPage : dir emptyPage = [] := by
  rw [dir, slotCount_emptyPage]
  rfl

lemma sum_dir (p : Page) : (dir p).sum = liveBytes p := by
  rw [dir, liveBytes]
  generalize slotCount p = n
  induction n with
  | zero => rfl
  | succ n ih =>
    rw [List.range_succ, List.map_append, List.sum_append, ih, Finset.sum_range_succ,
      List.map_singleton, List.sum_singleton]

lemma zero_mem_dir (p : Page) : 0 ∈ dir p ↔ firstDeleted p ≠ none := by
  rw [ne_eq, firstDeleted_eq_none, dir, List.mem_map]
  push Not
  exact ⟨fun ⟨i, hi, hlen⟩ => ⟨i, List.mem_range.mp hi, hlen⟩,
    fun ⟨i, hi, hlen⟩ => ⟨i, List.mem_range.mpr hi, hlen⟩⟩

lemma slot_dir (p : Page) : slot (dir p) = insertSlot p := by
  cases hd : firstDeleted p with
  | none =>
    have hfull : 0 ∉ dir p := by
      rw [zero_mem_dir]
      exact fun h => h hd
    rw [SlotAlloc.slot_of_full hfull, length_dir, insertSlot, hd]
    rfl
  | some i =>
    obtain ⟨hi, hlen, hlive⟩ := firstDeleted_eq_some.mp hd
    have hi' : i < (dir p).length := by simpa using hi
    have hfirst : slot (dir p) = i := by
      rw [slot, List.idxOf, List.findIdx_eq hi']
      refine ⟨by simp [getElem_dir, hlen], fun j hj => ?_⟩
      rw [getElem_dir]
      simpa using hlive j hj
    rw [hfirst, insertSlot, hd]
    rfl

lemma slotsAfter_dir (p : Page) : SlotAlloc.slotsAfter (dir p) = slotsAfter p := by
  rw [SlotAlloc.slotsAfter, slotsAfter, length_dir]
  congr 1
  by_cases hd : firstDeleted p = none
  · rw [if_pos hd, if_neg fun h => (zero_mem_dir p).mp h hd]
  · rw [if_neg hd, if_pos ((zero_mem_dir p).mpr hd)]

/-- The space check of `page_insert` is the one of the allocator. -/
lemma fits_dir (p : Page) (n : ℕ) : SlotAlloc.Fits 4090 4 (dir p) n ↔ Fits p n := by
  rw [SlotAlloc.Fits, Fits, sum_dir, slotsAfter_dir]
  omega

lemma dir_inserted (hp : WellFormed p) (h : Accepts p r) :
    dir (inserted p r) = put (dir p) r.length := by
  obtain ⟨q, hq, hplaced⟩ := h.placed hp
  have hcount : slotCount (inserted p r) = slotsAfter p := hplaced.count.trans hq.slotsAfter_eq
  have hlen : ∀ i < slotsAfter p,
      slotLen (inserted p r) i = if i = insertSlot p then r.length else slotLen p i := by
    intro i hi
    rw [hplaced.len i (hcount ▸ hi), hq.insertSlot_eq]
    by_cases hins : i = insertSlot p
    · rw [if_pos hins, if_pos hins]
    · rw [if_neg hins, if_neg hins, hq.len (lt_slotCount_of_ne hi hins)]
  apply List.ext_getElem
  · rw [length_dir, hcount, put, slotsAfter]
    by_cases hd : firstDeleted p = none
    · rw [if_pos hd, if_neg fun h => (zero_mem_dir p).mp h hd]
      simp
    · rw [if_neg hd, if_pos ((zero_mem_dir p).mpr hd)]
      simp
  · intro i hi hi'
    rw [length_dir, hcount] at hi
    rw [getElem_dir, hlen i hi]
    by_cases hd : firstDeleted p = none
    · have hins : insertSlot p = slotCount p := by rw [insertSlot, hd]; rfl
      simp only [put, if_neg fun h => (zero_mem_dir p).mp h hd, List.getElem_append, length_dir,
        getElem_dir, hins, List.getElem_singleton]
      rw [slotsAfter, if_pos hd] at hi
      split
      · rw [dif_neg (by omega)]
      · rw [dif_pos (by omega)]
    · simp only [put, if_pos ((zero_mem_dir p).mpr hd), List.getElem_set, slot_dir, getElem_dir]
      exact if_congr eq_comm rfl rfl

lemma dir_deleted (hp : WellFormed p) {i : ℕ} (hi : i < slotCount p) :
    dir (deleted p i) = (dir p).set i 0 := by
  have hcount : slotCount (deleted p i) = slotCount p := by
    have hle := hp.slotCount_le
    exact slotCount_put16 p 0 (by simp only [lengthField, slotAt]; omega)
  apply List.ext_getElem
  · simp [hcount]
  · intro j hj hj'
    rw [length_dir, hcount] at hj
    rw [getElem_dir, List.getElem_set, getElem_dir, deleted, slotLen_delete hp hi hj]
    exact if_congr eq_comm rfl rfl

end Dir

/-! ### The pages -/

section Pages

variable {ps : List Page} {r : Area}

lemma getD_map_dir (ps : List Page) (i : ℕ) :
    (ps.map dir).getD i [] = dir (ps.getD i emptyPage) := by
  rw [← dir_emptyPage, List.getD_map]

lemma pageFor_dir (hr : r.length ≠ 0) :
    SlotAlloc.pageFor 4090 4 (ps.map dir) r.length = pageFor ps r := by
  rw [SlotAlloc.pageFor, pageFor, List.findIdx_map]
  congr 1
  funext p
  simp only [Function.comp_apply, fits_dir, Accepts, ne_eq, hr, not_false_eq_true, true_and]

/-- An insert is an allocation. -/
lemma alloc_dir (hwf : ∀ p ∈ ps, WellFormed p) (hr : r.length ≠ 0) (hmax : r.length ≤ 4086) :
    alloc 4090 4 (ps.map dir) r.length =
      ((insertPages ps r).map dir, ((insertRid ps r).pageId, (insertRid ps r).slotId)) := by
  have hp : WellFormed (targetPage ps r) := wellFormed_getD hwf _
  have hdir := dir_inserted hp (accepts_targetPage ps hr hmax)
  rw [alloc, pageFor_dir hr, getD_map_dir, ← targetPage, ← hdir, slot_dir, insertPages, map_update]
  rfl

/-- Freeing a slot that is free, or not there, changes nothing. -/
lemma free_dir_of_gone {rid : RID} (hno : lookup ps rid = none) :
    free (ps.map dir) (rid.pageId, rid.slotId) = ps.map dir := by
  refine SlotAlloc.ext_getD (SlotAlloc.length_free _) fun i => ?_
  rw [SlotAlloc.getD_free]
  split
  · next hi =>
      rw [hi, getD_map_dir]
      dsimp only
      rw [lookup_eq_getD, recordAt_eq_none] at hno
      apply List.ext_getElem (by simp)
      intro j hj hj'
      rw [List.getElem_set]
      split
      · next hslot =>
          rw [length_dir] at hj'
          rw [getElem_dir, ← hslot]
          omega
      · rfl
  · rfl

lemma dir_deletePages (hwf : ∀ p ∈ ps, WellFormed p) {rid : RID} (hlive : lookup ps rid ≠ none) :
    (deletePages ps rid).map dir = free (ps.map dir) (rid.pageId, rid.slotId) := by
  have hlt : rid.pageId < ps.length := by
    by_contra hge
    exact hlive (lookup_of_ge (not_lt.mp hge))
  refine SlotAlloc.ext_getD ?_ fun i => ?_
  · rw [SlotAlloc.length_free, List.length_map, List.length_map, deletePages, List.length_set]
  · rw [SlotAlloc.getD_free, getD_map_dir, getD_map_dir, getD_deletePages]
    by_cases hi : i = rid.pageId
    · rw [ne_eq, lookup_eq_getD, recordAt_eq_none] at hlive
      rw [if_pos ⟨hi, hi ▸ hlt⟩, if_pos hi, hi]
      exact dir_deleted (wellFormed_getD hwf _) (by omega)
    · rw [if_neg fun h => hi h.1, if_neg hi]

/-- A delete frees the slot, if it is not free already. -/
lemma free_dir (hwf : ∀ p ∈ ps, WellFormed p) (rid : RID) :
    ((pageStep (.delete rid) ps).2).map dir = free (ps.map dir) (rid.pageId, rid.slotId) := by
  obtain ⟨ret, ps', heq, hmove⟩ := exists_pageMove (.delete rid) ps
  rw [heq]
  cases hmove with
  | delete hlive => exact dir_deletePages hwf hlive
  | gone hno => exact (free_dir_of_gone hno).symm

end Pages

/-! ### The heap file -/

/-- Insert records one after the other, with what each call returns. -/
def insertAll (heap : HeapFile) (rid : RID) : List Area → FileM (List (ℤ × Option RID))
  | [] => return []
  | r :: rs => do
    let out ← heapInsert (some heap) (some r) (some rid)
    let outs ← insertAll heap rid rs
    return out :: outs

/-- Delete RIDs one after the other, with what each call returns. -/
def deleteAll (heap : HeapFile) : List RID → FileM (List ℤ)
  | [] => return []
  | rid :: rids => do
    let out ← heapDelete (some heap) rid
    let outs ← deleteAll heap rids
    return out :: outs

/-- A handle of the allocator, as a RID. -/
def toRid (h : ℕ × ℕ) : RID := ⟨h.1, h.2⟩

section Heap

variable {heap : HeapFile} {f : File} {ps : List Page}

/-- Inserting records is allocating slots of their lengths. -/
lemma insertAll_spec (rid : RID) (rs : List Area) (h : Stores ⟨heap, f⟩ ps []) (hhealthy : Healthy f)
    (hrs : ∀ r ∈ rs, r.length ≠ 0 ∧ r.length ≤ 4086)
    (hroom : ∀ k < rs.length, Roomy (insertAll heap rid (rs.take k) f).2) :
    let out := insertAll heap rid rs f
    let handles := allocAll 4090 4 (ps.map dir) (rs.map Area.length)
    out.1 = handles.2.map (fun h => (0, some (toRid h))) ∧ Healthy out.2 ∧
      ∃ ps', Stores ⟨heap, out.2⟩ ps' [] ∧ ps'.map dir = handles.1 := by
  induction rs generalizing f ps with
  | nil => exact ⟨rfl, hhealthy, ps, h, rfl⟩
  | cons r rs ih =>
    rw [List.forall_mem_cons] at hrs
    obtain ⟨⟨hr, hmax⟩, hrs⟩ := hrs
    have hroom₀ : Roomy f := hroom 0 (Nat.succ_pos _)
    obtain ⟨hret, tail', htail', hholds⟩ := heapInsert_healthy h hhealthy hroom₀ hr hmax rid
    obtain rfl : tail' = [] := List.length_eq_zero_iff.mp htail'
    have hwf := wellFormed_insertPages h.wellFormed r
    obtain ⟨hrets, hhealthy', ps', hstores', hdirs⟩ := ih
      (f := (heapInsert (some heap) (some r) (some rid) f).2)
      ⟨h.fd_nonneg, hholds, hwf⟩ (keeps_heapInsert heap r rid f hhealthy) hrs
      fun k hk => hroom (k + 1) (Nat.succ_lt_succ hk)
    simp only [insertAll, run_bind, run_pure, List.map_cons, allocAll,
      alloc_dir h.wellFormed hr hmax]
    exact ⟨congrArg₂ List.cons hret hrets, hhealthy', ps', hstores', hdirs⟩

/-- Deleting RIDs is freeing their slots. -/
lemma deleteAll_spec (rids : List RID) (h : Stores ⟨heap, f⟩ ps []) (hhealthy : Healthy f)
    (hroom : Roomy f) :
    let out := deleteAll heap rids f
    Healthy out.2 ∧ ∃ ps', Stores ⟨heap, out.2⟩ ps' [] ∧ ps'.length = ps.length ∧
      ps'.map dir = (rids.map fun rid => (rid.pageId, rid.slotId)).foldl free (ps.map dir) := by
  induction rids generalizing f ps with
  | nil => exact ⟨hhealthy, ps, h, rfl, rfl⟩
  | cons rid rids ih =>
    obtain ⟨-, hhealthy₁, tail', htail', hstores⟩ :=
      exec_healthy h hhealthy hroom (.delete rid) (Or.inl rfl)
    obtain rfl : tail' = [] := List.length_eq_zero_iff.mp htail'
    have hdir := free_dir h.wellFormed rid
    have hlen : (pageStep (.delete rid) ps).2.length = ps.length := by
      have := congrArg List.length hdir
      rwa [SlotAlloc.length_free, List.length_map, List.length_map] at this
    obtain ⟨hhealthy', ps', hstores', hlen', hdirs⟩ := ih hstores hhealthy₁
      (hstores.roomy (hlen ▸ h.length_lt hroom))
    refine ⟨hhealthy', ps', hstores', hlen'.trans hlen, ?_⟩
    rw [hdirs, hdir]
    rfl

lemma Stores.length_bytes {s : HeapState} (h : Stores s ps []) :
    s.file.bytes.length = ps.length * pageSize := by
  rw [h.holds.bytes, List.append_nil, length_flat]

lemma length_le_allocAll (ds : List SlotAlloc.Dir) (ns : List ℕ) :
    ds.length ≤ (allocAll 4090 4 ds ns).1.length := by
  induction ns generalizing ds with
  | nil => exact le_rfl
  | cons n ns ih => exact length_alloc_ge.trans (ih _)

lemma length_allocAll_take_le (ds : List SlotAlloc.Dir) (ns : List ℕ) (k : ℕ) :
    (allocAll 4090 4 ds (ns.take k)).1.length ≤ (allocAll 4090 4 ds ns).1.length := by
  induction ns generalizing ds k with
  | nil => simp
  | cons n ns ih =>
    cases k with
    | zero => exact length_le_allocAll ds (n :: ns)
    | succ k => exact ih _ k

/-- The number of pages while records are inserted. -/
lemma length_insertAll (rid : RID) (rs : List Area) (h : Stores ⟨heap, f⟩ ps []) (hhealthy : Healthy f)
    (hrs : ∀ r ∈ rs, r.length ≠ 0 ∧ r.length ≤ 4086)
    (hbound : (allocAll 4090 4 (ps.map dir) (rs.map Area.length)).1.length < 2 ^ 31) (k : ℕ) :
    Roomy (insertAll heap rid (rs.take k) f).2 ∧
      (insertAll heap rid (rs.take k) f).2.bytes.length =
        (allocAll 4090 4 (ps.map dir) ((rs.map Area.length).take k)).1.length * pageSize := by
  induction k using Nat.strong_induction_on with
  | _ k ih =>
    obtain ⟨-, -, ps', hstores', hdirs⟩ := insertAll_spec rid (rs.take k) h hhealthy
      (fun r hr => hrs r (List.mem_of_mem_take hr)) (fun j hj => by
        rw [List.length_take] at hj
        rw [List.take_take, Nat.min_eq_left (by omega)]
        exact (ih j (by omega)).1)
    have hlen : ps'.length =
        (allocAll 4090 4 (ps.map dir) ((rs.map Area.length).take k)).1.length := by
      rw [← List.map_take, ← hdirs, List.length_map]
    have hle := length_allocAll_take_le (ps.map dir) (rs.map Area.length) k
    exact ⟨hstores'.roomy (by omega), by rw [hstores'.length_bytes, hlen]⟩

end Heap

/-- **The replay law**: insert records into an empty heap file, delete all of them in any
order, and insert them again: the second time they get the same RIDs, and the file has the
same length all the time. -/
theorem replay_law (fd : ℕ) (rid : RID) {rs : List Area}
    (hrs : ∀ r ∈ rs, 1 ≤ r.length ∧ r.length ≤ pageSize - sizeofPageHeader - sizeofSlot)
    (hroom : ∀ k, Roomy (insertAll ⟨fd⟩ rid (rs.take k) (freshHeap fd).file).2) :
    let first := insertAll ⟨fd⟩ rid rs (freshHeap fd).file
    ∃ rids : List RID, first.1 = rids.map (fun rid' => (0, some rid')) ∧
      ∀ order : List RID, order.Perm rids →
        let deleted := deleteAll ⟨fd⟩ order first.2
        (∀ k, (deleteAll ⟨fd⟩ (order.take k) first.2).2.bytes.length = first.2.bytes.length) ∧
        (∀ k, (insertAll ⟨fd⟩ rid (rs.take k) deleted.2).2.bytes.length =
          first.2.bytes.length) ∧
        (insertAll ⟨fd⟩ rid rs deleted.2).1 = first.1 := by
  have hrs' : ∀ r ∈ rs, r.length ≠ 0 ∧ r.length ≤ 4086 := fun r hr =>
    ⟨by have := (hrs r hr).1; omega, (hrs r hr).2⟩
  have hfit : ∀ n ∈ rs.map Area.length, n ≠ 0 ∧ SlotAlloc.Fits 4090 4 [] n := by
    intro n hn
    obtain ⟨r, hr, rfl⟩ := List.mem_map.mp hn
    refine ⟨(hrs' r hr).1, ?_⟩
    have := (hrs' r hr).2
    simp only [SlotAlloc.Fits, SlotAlloc.slotsAfter, List.sum_nil, List.length_nil,
      List.not_mem_nil, if_false]
    omega
  obtain ⟨hret, hhealthy, ps, hstores, hdirs⟩ := insertAll_spec rid rs
    (show Stores ⟨⟨fd⟩, (freshHeap fd).file⟩ [] [] from stores_freshHeap fd) (fun _ => rfl) hrs'
    fun k _ => hroom k
  have hlt : ps.length < 2 ^ 31 := hstores.length_lt (by simpa using hroom rs.length)
  rw [List.map_nil] at hret hdirs
  dsimp only
  rw [hret]
  generalize insertAll ⟨fd⟩ rid rs (freshHeap fd).file = first at hhealthy hstores
  refine ⟨(allocAll 4090 4 [] (rs.map Area.length)).2.map toRid, by rw [List.map_map]; rfl,
    fun order horder => ?_⟩
  have hdel := fun rids => deleteAll_spec rids hstores hhealthy (hstores.roomy hlt)
  obtain ⟨hhealthy₂, ps₂, hstores₂, hlen₂, hdirs₂⟩ := hdel order
  have hperm : (order.map fun rid => (rid.pageId, rid.slotId)).Perm
      (allocAll 4090 4 [] (rs.map Area.length)).2 := by
    have := horder.map fun rid : RID => (rid.pageId, rid.slotId)
    rwa [List.map_map, show (fun rid : RID => (rid.pageId, rid.slotId)) ∘ toRid = id from rfl,
      List.map_id] at this
  -- the law of the allocator, at the directories of the pages
  have hreplay := SlotAlloc.replay hfit hperm
  rw [← hdirs, ← hdirs₂] at hreplay
  have hbound : (allocAll 4090 4 (ps₂.map dir) (rs.map Area.length)).1.length = ps.length := by
    rw [hreplay, ← hdirs, List.length_map]
  have hsecond := length_insertAll rid rs hstores₂ hhealthy₂ hrs' (hbound ▸ hlt)
  refine ⟨fun k => ?_, fun k => ?_, ?_⟩
  · obtain ⟨-, ps', hstores', hlen', -⟩ := hdel (order.take k)
    rw [hstores'.length_bytes, hstores.length_bytes, hlen']
  · -- the pages neither get fewer nor more than they were
    have hge := length_le_allocAll (ps₂.map dir) ((rs.map Area.length).take k)
    have hle := length_allocAll_take_le (ps₂.map dir) (rs.map Area.length) k
    rw [List.length_map] at hge
    rw [(hsecond k).2, hstores.length_bytes]
    congr 1
    omega
  · obtain ⟨hret₂, -⟩ := insertAll_spec rid rs hstores₂ hhealthy₂ hrs'
      fun k _ => (hsecond k).1
    rw [hret₂, hreplay]

theorem replay_law_two :
    let rs := [record 10 1 (by decide), record 15 2 (by decide)]
    let first := insertAll ⟨3⟩ ⟨0, 0⟩ rs (freshHeap 3).file
    ∃ rids : List RID, first.1 = rids.map (fun rid' => (0, some rid')) ∧
      (insertAll ⟨3⟩ ⟨0, 0⟩ rs (deleteAll ⟨3⟩ rids.reverse first.2).2).1 = first.1 := by
  intro rs
  have hroom := fun k => (length_insertAll ⟨0, 0⟩ rs
    (show Stores ⟨⟨3⟩, (freshHeap 3).file⟩ [] [] from stores_freshHeap 3) (fun _ => rfl)
    (by simp [rs, length_record]) (by simp only [rs, List.map, length_record]; decide) k).1
  obtain ⟨rids, hret, hreplay⟩ := replay_law 3 ⟨0, 0⟩
    (by simp [rs, length_record, pageSize, sizeofPageHeader, sizeofSlot]) hroom
  exact ⟨rids, hret, (hreplay rids.reverse rids.reverse_perm).2.2⟩

end MiniDb

end CsLab
