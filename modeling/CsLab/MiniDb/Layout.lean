/-
What a run of the heap file returns depends on the lengths of the records only.

`layoutStep` is the heap file seen from its directories: it knows the sizes of the slots, and
no byte of a record.  Every run of the heap file returns what it returns (`heap_layout`), but
for the bytes that `heap_get` copies, and so runs with records of the same lengths give out
the same RIDs (`heap_oblivious`).
-/
import CsLab.MiniDb.Replay

namespace CsLab

namespace MiniDb

open File Blocks Prog
open SlotAlloc (Dir alloc free)

/-- The return value without the bytes in a buffer. -/
def HeapRet.shape : HeapRet → HeapRet
  | .get ret _ => .get ret none
  | ret => ret

/-- The size of the slot of a RID, `0` if there is no record. -/
def slotSize (ds : List Dir) (rid : RID) : ℕ := (ds.getD rid.pageId []).getD rid.slotId 0

/-- One call on the directories. -/
def layoutStep : HeapCall → List Dir → HeapRet × List Dir
  | .insert (some r) (some rid), ds =>
    if r.length > 4086 then (.insert (-1) (some rid), ds)
    else if r.length = 0 then (.insert (-1) (some rid), ds ++ [[]])
    else
      let out := alloc 4090 4 ds r.length
      (.insert 0 (some (toRid out.2)), out.1)
  | .insert _ rid, ds => (.insert (-1) rid, ds)
  | .get rid (some buffer), ds =>
    if slotSize ds rid ≠ 0 ∧ slotSize ds rid ≤ buffer.length then (.get (slotSize ds rid) none, ds)
    else (.get (-1) none, ds)
  | .get _ none, ds => (.get (-1) none, ds)
  | .delete rid, ds =>
    if slotSize ds rid = 0 then (.delete (-1), ds)
    else (.delete 0, free ds (rid.pageId, rid.slotId))
  | .pageCount, ds => (.pageCount ds.length, ds)
  | .reopen _, ds => (.reopen 0, ds)

/-- Calls on the directories, one after the other, with what they return. -/
def layoutRun : List HeapCall → List Dir → List HeapRet × List Dir
  | [], ds => ([], ds)
  | c :: cs, ds =>
    let next := layoutStep c ds
    let rest := layoutRun cs next.2
    (next.1 :: rest.1, rest.2)

section Step

variable {ps : List Page}

lemma getD_dir (p : Page) (i : ℕ) : (dir p).getD i 0 = (recordLen p i).getD 0 := by
  rcases Nat.lt_or_ge i (slotCount p) with hi | hi
  · rw [List.getD_eq_getElem _ _ (by simpa using hi), getElem_dir]
    by_cases hlen : slotLen p i = 0
    · rw [recordLen_eq_none.mpr (.inr hlen), hlen]
      rfl
    · rw [recordLen_of_live hi hlen]
      rfl
  · rw [List.getD_eq_default _ _ (by simpa using hi), recordLen_eq_none.mpr (.inl hi)]
    rfl

lemma slotSize_dir (hwf : ∀ p ∈ ps, WellFormed p) (rid : RID) :
    slotSize (ps.map dir) rid = ((lookup ps rid).map List.length).getD 0 := by
  rw [slotSize, getD_map_dir, getD_dir, ← lookupLen_eq hwf, lookupLen]

lemma slotSize_eq_zero (hwf : ∀ p ∈ ps, WellFormed p) (rid : RID) :
    slotSize (ps.map dir) rid = 0 ↔ lookup ps rid = none := by
  have hlen := lookupLen_eq hwf rid
  rw [slotSize_dir hwf, ← hlen]
  cases hrec : lookupLen ps rid with
  | none =>
    rw [hrec] at hlen
    exact iff_of_true rfl (Option.map_eq_none_iff.mp hlen.symm)
  | some n =>
    rw [hrec] at hlen
    refine iff_of_false (recordLen_eq_some.mp hrec).2.2 fun hno => ?_
    rw [hno] at hlen
    cases hlen

/-- A call on the pages is the call on their directories. -/
lemma layoutStep_dir (hwf : ∀ p ∈ ps, WellFormed p) (c : HeapCall) :
    layoutStep c (ps.map dir) = ((pageStep c ps).1.shape, (pageStep c ps).2.map dir) := by
  obtain ⟨ret, ps', heq, hmove⟩ := exists_pageMove c ps
  rw [heq]
  cases hmove with
  | @refuse record rid hno =>
    cases record with
    | none => rfl
    | some r =>
      cases rid with
      | none => rfl
      | some rid => exact if_pos (hno r rfl (by simp))
  | leak hr =>
    simp only [layoutStep]
    rw [if_neg (by omega), if_pos hr, List.map_append, List.map_singleton, dir_emptyPage]
    rfl
  | insert hr hmax =>
    simp only [layoutStep]
    rw [if_neg (by omega), if_neg hr, alloc_dir hwf hr hmax]
    rfl
  | @get rid buffer rec hrec hle =>
    have hsize : slotSize (ps.map dir) rid = rec.length := by
      rw [slotSize_dir hwf, hrec]
      rfl
    have hne : slotSize (ps.map dir) rid ≠ 0 := fun hzero => by
      rw [(slotSize_eq_zero hwf rid).mp hzero] at hrec
      cases hrec
    simp only [layoutStep]
    rw [if_pos ⟨hne, by rwa [hsize]⟩, hsize]
    rfl
  | @miss rid buffer hno =>
    cases buffer with
    | none => rfl
    | some buffer =>
      simp only [layoutStep]
      refine if_neg fun ⟨hne, hle⟩ => ?_
      rw [ne_eq, slotSize_eq_zero hwf] at hne
      obtain ⟨rec, hrec⟩ := Option.ne_none_iff_exists'.mp hne
      rw [slotSize_dir hwf, hrec] at hle
      exact absurd (hno rec buffer hrec rfl) (not_lt.mpr hle)
  | delete hlive =>
    simp only [layoutStep]
    rw [if_neg ((slotSize_eq_zero hwf _).not.mpr hlive), ← dir_deletePages hwf hlive]
    rfl
  | gone hno =>
    simp only [layoutStep]
    rw [if_pos ((slotSize_eq_zero hwf _).mpr hno)]
    rfl
  | pageCount =>
    simp only [layoutStep, List.length_map]
    rfl
  | reopen fd => rfl

/-- Calls on the pages are the calls on their directories. -/
lemma layoutRun_dir (hwf : ∀ p ∈ ps, WellFormed p) (cs : List HeapCall) :
    layoutRun cs (ps.map dir) =
      ((pageRun cs ps).1.map fun e => e.2.shape, (pageRun cs ps).2.map dir) := by
  induction cs generalizing ps with
  | nil => rfl
  | cons c cs ih =>
    rw [layoutRun, layoutStep_dir hwf, ih (wellFormed_pageStep hwf c)]
    rfl

end Step

/-! ### Runs -/

section Runs

variable {fd : ℕ} {es es' : List HeapEvent} {s s' : HeapState} {ps : List Page}

lemma layoutRun_of_run (h : Stores s ps []) (hhealthy : Healthy s.file)
    (hrun : Run HeapStep s es s') :
    ∃ ps', Stores s' ps' [] ∧
      layoutRun (es.map Prod.fst) (ps.map dir) = (es.map fun e => e.2.shape, ps'.map dir) := by
  induction hrun generalizing ps with
  | nil => exact ⟨ps, h, rfl⟩
  | cons hstep _ ih =>
    obtain ⟨hret, hhealthy', hstores⟩ := exec_step h hhealthy hstep
    obtain ⟨ps', hstores', hlayout⟩ := ih hstores hhealthy'
    refine ⟨ps', hstores', ?_⟩
    rw [List.map_cons, List.map_cons, layoutRun, layoutStep_dir h.wellFormed, hlayout, hret]

/-- **The heap file is a slot allocator**: in every run from an empty file, the calls return
what they return on the directories alone, but for the bytes in the buffers, and the
directories of the file are those. -/
theorem heap_layout (hrun : Run HeapStep (freshHeap fd) es s) :
    layoutRun (es.map Prod.fst) [] =
      (es.map fun e => e.2.shape, (blocks pageSize s.file.bytes).map dir) := by
  obtain ⟨ps, hstores, hlayout⟩ := layoutRun_of_run (stores_freshHeap fd) (fun _ => rfl) hrun
  rw [hstores.holds.blocks_eq]
  exact hlayout

theorem heap_layout_reuse : ∃ s, Run HeapStep (freshHeap 3) (pageRun reuseCalls []).1 s ∧
    (layoutRun ((pageRun reuseCalls []).1.map Prod.fst) []).2 =
      (blocks pageSize s.file.bytes).map dir := by
  obtain ⟨s, hrun, -⟩ := exists_reuse_run
  exact ⟨s, hrun, congrArg Prod.snd (heap_layout hrun)⟩

/-! ### Calls that differ in the bytes only -/

/-- The area with all bytes `0`. -/
def Area.blank (a : Area) : Area := ⟨List.replicate a.length 0, by simp [a.length_lt_65536]⟩

/-- The call without the bytes of its record or buffer. -/
def HeapCall.blank : HeapCall → HeapCall
  | .insert record rid => .insert (record.map Area.blank) rid
  | .get rid buffer => .get rid (buffer.map Area.blank)
  | c => c

lemma length_blank (a : Area) : a.blank.length = a.length := List.length_replicate

lemma layoutStep_blank (c : HeapCall) (ds : List Dir) : layoutStep c.blank ds = layoutStep c ds := by
  cases c with
  | insert record rid =>
    cases record with
    | none => rfl
    | some r => cases rid <;> simp [HeapCall.blank, layoutStep, length_blank]
  | get rid buffer => cases buffer <;> simp [HeapCall.blank, layoutStep, length_blank]
  | delete rid => rfl
  | pageCount => rfl
  | reopen fd => rfl

lemma layoutRun_blank (cs : List HeapCall) (ds : List Dir) :
    layoutRun (cs.map HeapCall.blank) ds = layoutRun cs ds := by
  induction cs generalizing ds with
  | nil => rfl
  | cons c cs ih => rw [List.map_cons, layoutRun, layoutRun, layoutStep_blank, ih]

/-- **Where a record is stored does not depend on what it says**: two runs with the same calls,
but for the bytes of the records and buffers, give out the same RIDs and return the same values,
and the pages of the two files have the same directories. -/
theorem heap_oblivious {fd' : ℕ} (hrun : Run HeapStep (freshHeap fd) es s)
    (hrun' : Run HeapStep (freshHeap fd') es' s')
    (hsame : es.map (fun e => e.1.blank) = es'.map fun e => e.1.blank) :
    (es.map fun e => e.2.shape) = (es'.map fun e => e.2.shape) ∧
      (blocks pageSize s.file.bytes).map dir = (blocks pageSize s'.file.bytes).map dir := by
  have hlayout := heap_layout hrun
  have hlayout' := heap_layout hrun'
  rw [← layoutRun_blank, List.map_map] at hlayout hlayout'
  have hcalls : es.map (HeapCall.blank ∘ Prod.fst) = es'.map (HeapCall.blank ∘ Prod.fst) := hsame
  rw [hcalls, hlayout', Prod.mk.injEq] at hlayout
  exact ⟨hlayout.1.symm, hlayout.2.symm⟩

lemma pageRun_calls (cs : List HeapCall) (ps : List Page) :
    (pageRun cs ps).1.map Prod.fst = cs := by
  induction cs generalizing ps with
  | nil => rfl
  | cons c cs ih => rw [pageRun, List.map_cons, ih]

lemma blank_blank (c : HeapCall) : c.blank.blank = c.blank := by
  have harea : ∀ a : Area, a.blank.blank = a.blank := fun a => by
    simp only [Area.blank, Area.length, List.length_replicate]
  cases c with
  | insert record rid => cases record <;> simp [HeapCall.blank, harea]
  | get rid buffer => cases buffer <;> simp [HeapCall.blank, harea]
  | delete rid => rfl
  | pageCount => rfl
  | reopen fd => rfl

/-- The records that are inserted are made blank. -/
theorem heap_oblivious_reuse :
    (pageRun reuseCalls []).1.map (fun e => e.2.shape) =
      (pageRun (reuseCalls.map HeapCall.blank) []).1.map fun e => e.2.shape := by
  obtain ⟨s, hrun, -⟩ := exists_reuse_run
  obtain ⟨s', hrun', -⟩ := exists_run (stores_freshHeap 3) (fun _ => rfl)
    (reuseCalls.map HeapCall.blank) (by decide)
  refine (heap_oblivious hrun hrun' ?_).1
  have hblank : ∀ es : List HeapEvent, (es.map fun e => e.1.blank) =
      (es.map Prod.fst).map HeapCall.blank := fun es => by
    rw [List.map_map]
    rfl
  rw [hblank, hblank, pageRun_calls, pageRun_calls, List.map_map]
  exact List.map_congr_left fun c _ => (blank_blank c).symm

end Runs

end MiniDb

end CsLab
