/-
A ragged tail of the file is not visible.

A short write may leave a file whose length is not a multiple of the page size.
`page_allocate` then writes the new page at a misaligned place, and only the `page_write`
that follows puts it where it belongs; the tail keeps its length.  Nothing that a program
can see depends on the tail.
-/
import CsLab.MiniDb.HeapRuns

namespace CsLab

namespace MiniDb

open File Blocks Prog

/-- A heap that was opened with the descriptor `fd` on a file with this content.  No call on the
file will fail. -/
def heapOn (fd : ℕ) (bytes : List UInt8) : HeapState := ⟨⟨fd⟩, File.start bytes fun _ => false⟩

section RaggedTail

variable {s s' t t' : HeapState} {ps : List Page} {tail tail' : List UInt8}

lemma stores_heapOn (fd : ℕ) (hps : ∀ p ∈ ps, WellFormed p) (htail : tail.length < pageSize) :
    Stores (heapOn fd (flat ps ++ tail)) ps tail :=
  ⟨Int.natCast_nonneg fd, ⟨rfl, htail⟩, hps⟩

/-- The same calls on files with the same pages return the same and lead to the same pages. -/
lemma same_pages {es es' : List HeapEvent} (hs : Run HeapStep s es s')
    (ht : Run HeapStep t es' t') (hcalls : es.map Prod.fst = es'.map Prod.fst)
    (hne : ∀ e ∈ es, e.1.NonEmpty) (hstores : Stores s ps tail) (hhealthy : Healthy s.file)
    (hstores' : Stores t ps tail') (hhealthy' : Healthy t.file) :
    es = es' ∧ blocks pageSize s'.file.bytes = blocks pageSize t'.file.bytes := by
  induction hs generalizing t es' ps tail tail' with
  | nil =>
    obtain rfl : es' = [] := List.map_eq_nil_iff.mp hcalls.symm
    rw [Run.nil_inv ht, hstores.holds.blocks_eq, hstores'.holds.blocks_eq]
    exact ⟨rfl, rfl⟩
  | cons hstep _ ih =>
    obtain ⟨c, hroom⟩ := hstep
    cases ht with
    | nil => simp at hcalls
    | cons hstep' hrun' =>
      obtain ⟨c', hroom'⟩ := hstep'
      simp only [List.map_cons, List.cons.injEq] at hcalls
      obtain ⟨rfl, hcalls⟩ := hcalls
      rw [List.forall_mem_cons] at hne
      obtain ⟨hret, hh, tail₁, -, hst⟩ := exec_healthy hstores hhealthy hroom c (Or.inr hne.1)
      obtain ⟨hret', hh', tail₂, -, hst'⟩ := exec_healthy hstores' hhealthy' hroom' c (Or.inr hne.1)
      obtain ⟨rfl, hblocks⟩ := ih hrun' hcalls hne.2 hst hh hst' hh'
      rw [hret, hret']
      exact ⟨rfl, hblocks⟩

/-- **A ragged tail is never visible**: take a file of pages that page operations can reach,
with a tail that is shorter than a page and without it.  The same calls, none of which inserts
an empty record, return the same on both files, and lead to the same complete pages. -/
theorem ragged_tail_invisible {fd : ℕ} (hps : ∀ p ∈ ps, Reachable p)
    (htail : tail.length < pageSize) {es es' : List HeapEvent}
    (hragged : Run HeapStep (heapOn fd (flat ps ++ tail)) es s)
    (hplain : Run HeapStep (heapOn fd (flat ps)) es' t)
    (hcalls : es.map Prod.fst = es'.map Prod.fst) (hne : ∀ e ∈ es, e.1.NonEmpty) :
    es = es' ∧ blocks pageSize s.file.bytes = blocks pageSize t.file.bytes := by
  have hwf : ∀ p ∈ ps, WellFormed p := fun p hp => (hps p hp).wellFormed
  have hplain' : Stores (heapOn fd (flat ps ++ [])) ps [] := stores_heapOn fd hwf (by simp)
  rw [List.append_nil] at hplain'
  exact same_pages hragged hplain hcalls hne (stores_heapOn fd hwf htail) (fun _ => rfl) hplain'
    fun _ => rfl

/-- A record for which the page must be allocated. -/
def growCall : HeapCall := .insert (some (record 13 1 (by decide))) (some ⟨0, 0⟩)

theorem ragged_tail_invisible_insert :
    ((growCall.exec (heapOn 3 [1, 2, 3])).1 = .insert 0 (some ⟨0, 0⟩) ∧
      (growCall.exec (heapOn 3 [1, 2, 3])).2.file.bytes.length = pageSize + 3) ∧
    (growCall.exec (heapOn 3 [1, 2, 3])).1 = (growCall.exec (heapOn 3 [])).1 ∧
    blocks pageSize (growCall.exec (heapOn 3 [1, 2, 3])).2.file.bytes =
      blocks pageSize (growCall.exec (heapOn 3 [])).2.file.bytes := by
  refine ⟨by decide +kernel, ?_⟩
  have hrun : ∀ bytes : List UInt8, bytes.length < 2 ^ 31 * pageSize →
      Run HeapStep (heapOn 3 bytes) [(growCall, (growCall.exec (heapOn 3 bytes)).1)]
        (growCall.exec (heapOn 3 bytes)).2 := fun _ h => .single (.call growCall h)
  have hragged : Run HeapStep (heapOn 3 (flat ([] : List Page) ++ [1, 2, 3])) _ _ :=
    hrun [1, 2, 3] (by decide)
  have hplain : Run HeapStep (heapOn 3 (flat ([] : List Page))) _ _ := hrun [] (by decide)
  obtain ⟨hevents, hblocks⟩ := ragged_tail_invisible (by simp) (by decide) hragged hplain
    (by simp only [List.map]) (by simp [growCall, HeapCall.NonEmpty, length_record])
  exact ⟨by simpa using hevents, hblocks⟩

end RaggedTail

end MiniDb

end CsLab
