/-
Does the heap file keep the bytes of its records?

It does as long as every insert is safe (`faithful_iff_safe`): an insert is unsafe if it
compacts its page and a byte of a live record, below the packed place of that record, is not
what packing puts there.  Slots are reused, so the records of a page need not lie in the
order of their slots, and `page_compact` may move a record over one that it has not moved
yet; `not_faithful` is such a run.
-/
import CsLab.MiniDb.RecordStore

namespace CsLab

namespace MiniDb

open File Blocks Prog

/-- `heap_get` returns the length and the bytes of every live record, to every buffer that can
hold it. -/
def Faithful (s : HeapState) (live : Live) : Prop :=
  ∀ rid rec, live rid = some rec → ∀ buffer : Area, rec.length ≤ buffer.length →
    ∃ buffer', (heapGet (some s.heap) rid (some buffer) s.file).1 =
      ((rec.length : ℤ), some buffer') ∧ buffer'.bytes.take rec.length = rec

/-- The next call is safe for the pages of the file. -/
def SafeStep (s : HeapState) (e : HeapEvent) : Prop := SafeCall (blocks pageSize s.file.bytes) e.1

section Runs

variable {fd : ℕ} {es : List HeapEvent} {s : HeapState} {ps : List Page} {live : Live}

/-- The file is faithful when the records in its pages are the live ones. -/
lemma faithful_iff (hstores : Stores s ps []) (hhealthy : Healthy s.file)
    (hcount : ps.length < 2 ^ 32)
    (hlens : ∀ rid, lookupLen ps rid = (live rid).map List.length) :
    Faithful s live ↔ ∀ rid, lookup ps rid = live rid := by
  have hlookup : ∀ rid, (lookup ps rid).map List.length = (live rid).map List.length :=
    fun rid => (lookupLen_eq hstores.wellFormed rid).symm.trans (hlens rid)
  have hget : ∀ rid rec (buffer : Area), lookup ps rid = some rec → rec.length ≤ buffer.length →
      (heapGet (some s.heap) rid (some buffer) s.file).1 =
        ((rec.length : ℤ), some (buffer.fill rec)) := by
    intro rid rec buffer hrec hle
    obtain ⟨-, ⟨rec', hrec', -, hret⟩ | ⟨-, hno⟩⟩ := heapGet_spec hstores.fd_nonneg
      hstores.wellFormed rid buffer hstores.holds
    · rw [hrec, Option.some.injEq] at hrec'
      rw [hret, hrec']
    · exact absurd (hno hhealthy hcount rec hrec) (not_lt.mpr hle)
  constructor
  · intro h rid
    cases hlive : live rid with
    | none =>
      have hnone := hlookup rid
      rwa [hlive, Option.map_none, Option.map_eq_none_iff] at hnone
    | some rec =>
      have hsome := hlookup rid
      rw [hlive] at hsome
      obtain ⟨rec', hrec', hlen⟩ := Option.map_eq_some_iff.mp hsome
      have hlt : rec'.length < 2 ^ 16 := by
        have hl := (lookupLen_eq hstores.wellFormed rid).trans (congrArg _ hrec')
        rw [Option.map_some, lookupLen, recordLen_eq_some] at hl
        rw [← hl.2.1]
        exact Buffer.get16_lt _ _
      -- a buffer that the stored record just fills shows all its bytes
      let buffer : Area := ⟨rec', hlt⟩
      obtain ⟨buffer', hret, htake⟩ := h rid rec hlive buffer (show _ ≤ rec'.length by omega)
      rw [hget rid rec' buffer hrec' le_rfl, Prod.mk.injEq, Option.some.injEq] at hret
      have hfill : (buffer.fill rec').bytes.take rec'.length = rec' :=
        take_fill (show rec'.length ≤ buffer.length from le_rfl)
      rw [hrec', ← hfill, hret.2, hlen, htake]
  · intro h rid rec hlive buffer hle
    exact ⟨_, hget rid rec buffer ((h rid).trans hlive) hle, take_fill hle⟩

/-- In a faithful state a step keeps the file faithful exactly when it is safe. -/
lemma faithful_step_iff (hrun : Run HeapStep (freshHeap fd) es s)
    (hfaith : Faithful s (liveAfter es)) {e : HeapEvent} {s' : HeapState}
    (hstep : HeapStep s e s') : Faithful s' (liveAfter (es ++ [e])) ↔ SafeStep s e := by
  obtain ⟨hhealthy, ps, hstores, hcount, hlens⟩ := lookupLen_of_run hrun
  obtain ⟨hret, hhealthy', hstores'⟩ := exec_step hstores hhealthy hstep
  obtain ⟨c, ret⟩ := e
  obtain ⟨-, hgrow⟩ := length_pageStep c ps
  dsimp only at hret hstores'
  have hlens' := lookupLen_pageStep hstores.wellFormed hlens c
  rw [← hret, ← liveAfter_append] at hlens'
  rw [faithful_iff hstores hhealthy (by omega) hlens] at hfaith
  rw [faithful_iff hstores' hhealthy' (by omega) hlens', SafeStep, hstores.holds.blocks_eq, hret,
    liveAfter_append, lookup_pageStep_iff hstores.wellFormed hfaith c]

/-- **Records are kept exactly in safe runs**: in a run from an empty file, `heap_get` returns
every live record after every call if and only if all calls are safe. -/
theorem faithful_iff_safe (hrun : Run HeapStep (freshHeap fd) es s) :
    (∀ es₁ s₁, es₁ <+: es → Run HeapStep (freshHeap fd) es₁ s₁ →
        Faithful s₁ (liveAfter es₁)) ↔
      ∀ es₁ e s₁, es₁ ++ [e] <+: es → Run HeapStep (freshHeap fd) es₁ s₁ → SafeStep s₁ e :=
  Run.always_iff (P := fun es s => Faithful s (liveAfter es))
    (fun _ e _ _ h₁ h₂ => HeapStep.unique e h₁ h₂)
    (fun _ _ hlive => absurd hlive (by simp [liveAfter]))
    (fun _ _ _ _ hrun₁ hfaith hstep => faithful_step_iff hrun₁ hfaith hstep) hrun

end Runs

theorem faithful_iff_safe_reuse : ∃ s, Run HeapStep (freshHeap 3) (pageRun reuseCalls []).1 s ∧
    ((∀ es₁ s₁, es₁ <+: (pageRun reuseCalls []).1 → Run HeapStep (freshHeap 3) es₁ s₁ →
        Faithful s₁ (liveAfter es₁)) ↔
      ∀ es₁ e s₁, es₁ ++ [e] <+: (pageRun reuseCalls []).1 → Run HeapStep (freshHeap 3) es₁ s₁ →
        SafeStep s₁ e) := by
  obtain ⟨s, hrun, -⟩ := exists_reuse_run
  exact ⟨s, hrun, faithful_iff_safe hrun⟩

/-! ### A run that loses a record -/

/-- The slot of the first record is used again for a record behind the second one, and then
the page is compacted for another record. -/
def overlapCalls : List HeapCall :=
  [.insert (some (record 100 1 (by decide))) (some ⟨0, 0⟩),
    .insert (some (record 1000 2 (by decide))) (some ⟨0, 0⟩),
    .delete ⟨0, 0⟩,
    .insert (some (record 2000 3 (by decide))) (some ⟨0, 0⟩),
    .insert (some (record 1000 4 (by decide))) (some ⟨0, 0⟩)]

set_option maxRecDepth 10000 in
lemma lookup_overlapCalls : lookup (pageRun overlapCalls []).2 ⟨0, 1⟩ ≠
    liveAfter (pageRun overlapCalls []).1 ⟨0, 1⟩ := by decide +kernel

/-- **Records are not always kept.** -/
theorem not_faithful : ¬ ∀ (fd : ℕ) (es : List HeapEvent) (s : HeapState),
    Run HeapStep (freshHeap fd) es s → Faithful s (liveAfter es) := by
  intro h
  obtain ⟨s, hrun, hroom, hstores⟩ :=
    exists_run (stores_freshHeap 3) (fun _ => rfl) overlapCalls (by decide)
  obtain ⟨hhealthy, ps, hstores', hcount, hlens⟩ := lookupLen_of_run hrun
  have hps : ps = (pageRun overlapCalls []).2 := by
    rw [← hstores'.holds.blocks_eq, hstores.holds.blocks_eq]
  rw [hps] at hcount hlens
  exact lookup_overlapCalls ((faithful_iff hstores hhealthy (lt_of_le_of_lt hcount (by decide))
    hlens).mp (h 3 _ s hrun) ⟨0, 1⟩)

end MiniDb

end CsLab
