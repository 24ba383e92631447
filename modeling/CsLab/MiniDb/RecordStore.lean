/-
The heap file as a store of records.

The purpose of a heap file is a map from RIDs to records: `heap_insert` adds a record under
a new RID, `heap_delete` removes it and `heap_get` returns it.  `liveAfter` is this map, made
of nothing but the calls and what they returned.

The lengths of the records are always right, so RIDs are never reused while they are in use
and every call accepts exactly the RIDs that it should (`rid_liveness`).  The bytes stay right in
the steps that are safe (`lookup_pageStep_iff`).
-/
import CsLab.MiniDb.HeapRuns

namespace CsLab

namespace MiniDb

open File Blocks Prog

/-- The records that were inserted and not deleted, by their RIDs. -/
abbrev Live : Type := RID → Option (List UInt8)

/-- The records after one more call. -/
def Live.after (live : Live) : HeapEvent → Live
  | (.insert (some r) _, .insert ret (some rid)) =>
    if ret = 0 then Function.update live rid (some r.bytes) else live
  | (.delete rid, .delete ret) => if ret = 0 then Function.update live rid none else live
  | _ => live

/-- The records after the calls `es`, on a file that was empty. -/
def liveAfter (es : List HeapEvent) : Live := es.foldl Live.after fun _ => none

lemma liveAfter_append (es : List HeapEvent) (e : HeapEvent) :
    liveAfter (es ++ [e]) = (liveAfter es).after e := by
  rw [liveAfter, List.foldl_append]
  rfl

/-- An insert into these pages does no harm: if the page for the record has to be compacted,
every byte of a live record that lies below the packed place of the record is the byte that
packing puts there. -/
def SafeCall (ps : List Page) : HeapCall → Prop
  | .insert (some r) (some _) =>
    r.length ≠ 0 → r.length ≤ 4086 → InsertSafe (targetPage ps r) r.length
  | _ => True

section Step

variable {ps : List Page} {live : Live}

lemma update_eq_if (live : Live) (rid : RID) (x : Option (List UInt8)) (rid' : RID) :
    Function.update live rid x rid' = if rid' = rid then x else live rid' := by
  rw [Function.update_apply]

/-- The lengths of the records stay right in every step. -/
lemma lookupLen_pageStep (hwf : ∀ p ∈ ps, WellFormed p)
    (h : ∀ rid, lookupLen ps rid = (live rid).map List.length) (c : HeapCall) (rid : RID) :
    lookupLen (pageStep c ps).2 rid = (live.after (c, (pageStep c ps).1) rid).map List.length := by
  have hwf' := wellFormed_pageStep hwf c
  obtain ⟨ret, ps', heq, hmove⟩ := exists_pageMove c ps
  rw [heq] at hwf' ⊢
  cases hmove with
  | @refuse record rid' =>
    rw [h rid]
    cases record with
    | none => rfl
    | some r => cases rid' <;> rfl
  | leak =>
    exact (congrArg (recordLen · rid.slotId) (getD_append_emptyPage ps rid.pageId)).trans (h rid)
  | insert hr hmax =>
    rw [lookupLen_insertPages hwf hr hmax, h rid]
    simp only [Live.after, if_true, update_eq_if]
    split <;> rfl
  | delete hlive =>
    rw [lookupLen_eq hwf', lookup_deletePages hwf hlive]
    simp only [Live.after, if_true, update_eq_if]
    split
    · rfl
    · rw [← lookupLen_eq hwf, h rid]
  | get => exact h rid
  | miss => exact h rid
  | gone => exact h rid
  | pageCount => exact h rid
  | reopen fd => exact h rid

/-- The records stay right exactly in a safe step. -/
lemma lookup_pageStep_iff (hwf : ∀ p ∈ ps, WellFormed p) (h : ∀ rid, lookup ps rid = live rid)
    (c : HeapCall) :
    (∀ rid, lookup (pageStep c ps).2 rid = live.after (c, (pageStep c ps).1) rid) ↔
      SafeCall ps c := by
  obtain ⟨ret, ps', heq, hmove⟩ := exists_pageMove c ps
  rw [heq]
  cases hmove with
  | @refuse record rid hno =>
    cases record with
    | none => exact iff_of_true h trivial
    | some r =>
      cases rid with
      | none => exact iff_of_true h trivial
      | some rid =>
        have hlong := hno r rfl (by simp)
        exact iff_of_true h fun _ hle => absurd hle (not_le.mpr hlong)
  | leak hr =>
    refine iff_of_true (fun rid => ?_) fun hne => absurd hr hne
    rw [lookup_append_emptyPage]
    exact h rid
  | insert hr hmax =>
    simp only [Live.after, if_true, update_eq_if, ← h, SafeCall]
    rw [lookup_insertPages_iff hwf hr hmax]
    exact ⟨fun hsafe _ _ => hsafe, fun hsafe => hsafe hr hmax⟩
  | delete hlive =>
    refine iff_of_true (fun rid => ?_) trivial
    rw [lookup_deletePages hwf hlive]
    simp only [Live.after, if_true, update_eq_if, h]
  | get => exact iff_of_true h trivial
  | miss => exact iff_of_true h trivial
  | gone => exact iff_of_true h trivial
  | pageCount => exact iff_of_true h trivial
  | reopen fd => exact iff_of_true h trivial

end Step

/-! ### Lengths -/

section Runs

variable {fd : ℕ} {es : List HeapEvent} {s : HeapState}

/-- In every run the file holds records of the right lengths under the right RIDs. -/
lemma lookupLen_of_run (hrun : Run HeapStep (freshHeap fd) es s) :
    Healthy s.file ∧ ∃ ps, Stores s ps [] ∧ ps.length ≤ 2 ^ 31 ∧
      ∀ rid, lookupLen ps rid = (liveAfter es rid).map List.length := by
  refine Run.history (I := fun es s => Healthy s.file ∧ ∃ ps, Stores s ps [] ∧
    ps.length ≤ 2 ^ 31 ∧ ∀ rid, lookupLen ps rid = (liveAfter es rid).map List.length) ?_ ?_ hrun
  · refine ⟨fun _ => rfl, [], stores_freshHeap fd, by simp, fun rid => ?_⟩
    rw [lookupLen, List.getD_nil, recordLen_eq_none.mpr (Or.inl (by simp [slotCount_emptyPage]))]
    rfl
  · rintro es₁ s₁ ⟨c, ret⟩ s₂ - ⟨hhealthy, ps, hstores, -, hlens⟩ hstep
    obtain ⟨hret, hhealthy', hstores'⟩ := exec_step hstores hhealthy hstep
    have hlt := length_lt_of_step hstores hstep
    obtain ⟨-, hgrow⟩ := length_pageStep c ps
    dsimp only at hret hstores'
    refine ⟨hhealthy', _, hstores', by omega, fun rid => ?_⟩
    rw [liveAfter_append, hret]
    exact lookupLen_pageStep hstores.wellFormed hlens c rid

/-- **RIDs**: after every run, `heap_insert` returns only RIDs that are not live,
`heap_delete` succeeds exactly on those that are, and `heap_get` returns the length of a live
record if the buffer can hold it, and `-1` otherwise. -/
theorem rid_liveness (hrun : Run HeapStep (freshHeap fd) es s) (hroom : Roomy s.file) :
    (∀ record rid rid', (heapInsert (some s.heap) record rid s.file).1 = (0, some rid') →
      liveAfter es rid' = none) ∧
    (∀ rid, (heapDelete (some s.heap) rid s.file).1 = 0 ↔ liveAfter es rid ≠ none) ∧
    (∀ rid rec buffer, liveAfter es rid = some rec → rec.length ≤ buffer.length →
      (heapGet (some s.heap) rid (some buffer) s.file).1.1 = rec.length) ∧
    (∀ rid buffer, (∀ rec, liveAfter es rid = some rec → buffer.length < rec.length) →
      (heapGet (some s.heap) rid (some buffer) s.file).1.1 = -1) := by
  obtain ⟨hhealthy, ps, hstores, -, hlens⟩ := lookupLen_of_run hrun
  have hlookup : ∀ rid, (lookup ps rid).map List.length = (liveAfter es rid).map List.length :=
    fun rid => (lookupLen_eq hstores.wellFormed rid).symm.trans (hlens rid)
  have hnone : ∀ rid, lookup ps rid = none ↔ liveAfter es rid = none := fun rid => by
    rw [← Option.map_eq_none_iff (f := List.length), hlookup rid, Option.map_eq_none_iff]
  have hexec : ∀ c, (HeapCall.exec c s).1 = (pageStep c ps).1 := fun c =>
    (exec_healthy hstores hhealthy hroom c (Or.inl rfl)).1
  refine ⟨fun record rid rid' hret => ?_, fun rid => ?_, fun rid rec buffer hlive hle => ?_,
    fun rid buffer hno => ?_⟩
  · have hins := hexec (.insert record rid)
    simp only [HeapCall.exec, hret] at hins
    rw [← hnone, ← Option.map_eq_none_iff (f := List.length), ← lookupLen_eq hstores.wellFormed]
    exact lookupLen_of_insert hins.symm
  · have hdel := hexec (.delete rid)
    simp only [HeapCall.exec] at hdel
    rw [ne_eq, ← hnone, ← ne_eq, ← pageStep_delete_iff, ← hdel, HeapRet.delete.injEq]
  · obtain ⟨rec', hrec', hlen'⟩ : ∃ rec', lookup ps rid = some rec' ∧ rec'.length = rec.length := by
      have h := hlookup rid
      rw [hlive] at h
      exact Option.map_eq_some_iff.mp h
    have hget := hexec (.get rid (some buffer))
    rw [(PageMove.get hrec' (hlen' ▸ hle)).eq] at hget
    simp only [HeapCall.exec, HeapRet.get.injEq, hlen'] at hget
    exact hget.1
  · have hget := hexec (.get rid (some buffer))
    have hmiss : PageMove ps (.get rid (some buffer)) (.get (-1) (some buffer)) ps := by
      refine .miss ?_
      rintro rec' b hrec' ⟨⟩
      have h := hlookup rid
      rw [hrec'] at h
      obtain ⟨rec, hrec, hlen⟩ := Option.map_eq_some_iff.mp h.symm
      exact hlen ▸ hno rec hrec
    rw [hmiss.eq] at hget
    simp only [HeapCall.exec, HeapRet.get.injEq] at hget
    exact hget.1

end Runs

theorem rid_liveness_reuse : ∃ s, Run HeapStep (freshHeap 3) (pageRun reuseCalls []).1 s ∧
    (heapDelete (some s.heap) ⟨0, 0⟩ s.file).1 = 0 := by
  obtain ⟨s, hrun, hroom, -⟩ := exists_reuse_run
  exact ⟨s, hrun, ((rid_liveness hrun hroom).2.1 ⟨0, 0⟩).mpr (by decide +kernel)⟩

end MiniDb

end CsLab
