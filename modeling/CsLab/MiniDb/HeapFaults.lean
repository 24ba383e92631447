/-
The heap file when calls on its file fail.

Each `lseek`, `read` and `write` may fail, without an effect, in any pattern.  A call of the
heap file that returns `-1` then changes no page; at most it leaves an empty page behind,
which `page_allocate` had already written.  The file consists of well-formed pages all the
time.
-/
import CsLab.MiniDb.HeapRuns

namespace CsLab

namespace MiniDb

open File Blocks Prog

/-- A heap that was opened with the descriptor `fd` on an empty file, where the calls with
the numbers in `fails` fail. -/
def faultyHeap (fd : ℕ) (fails : ℕ → Bool) : HeapState := ⟨⟨fd⟩, File.start [] fails⟩

lemma stores_faultyHeap (fd : ℕ) (fails : ℕ → Bool) : Stores (faultyHeap fd fails) [] [] :=
  ⟨Int.natCast_nonneg fd, ⟨rfl, by simp⟩, by simp⟩

/-- The value of a call; `heap_page_count` has no error value. -/
def HeapRet.value : HeapRet → ℤ
  | .insert ret _ => ret
  | .get ret _ => ret
  | .delete ret => ret
  | .pageCount n => n
  | .reopen ret => ret

section Faults

variable {s : HeapState} {ps : List Page}

/-- What a call may do to the pages: anything that keeps them well formed if it succeeds, and
if it fails, it adds at most an empty page. -/
def Atomic (ps : List Page) (ret : HeapRet) (s' : HeapState) : Prop :=
  ∃ ps', Stores s' ps' [] ∧ (ret.value = -1 → ps' = ps ∨ ps' = ps ++ [emptyPage])

lemma Atomic.same (h : Stores s ps []) {s' : HeapState} (ret : HeapRet)
    (hfd : 0 ≤ s'.heap.fd) (hbytes : s'.file.bytes = s.file.bytes) : Atomic ps ret s' :=
  ⟨ps, ⟨hfd, ⟨hbytes.trans h.holds.bytes, h.holds.tail_lt⟩, h.wellFormed⟩, fun _ => Or.inl rfl⟩

lemma heapInsert_atomic (h : Stores s ps []) (record : Option Area) (rid : Option RID) :
    Atomic ps (HeapCall.exec (.insert record rid) s).1 (HeapCall.exec (.insert record rid) s).2 := by
  by_cases hrefuse : ∀ r, record = some r → rid ≠ none → 4086 < r.length
  · have hexec := heapInsert_refuse (some s.heap) hrefuse s.file
    simp only [HeapCall.exec, hexec]
    exact .same h _ h.fd_nonneg rfl
  · push Not at hrefuse
    obtain ⟨r, rfl, hrid, hmax⟩ := hrefuse
    obtain ⟨rid, rfl⟩ := Option.ne_none_iff_exists'.mp hrid
    have hout := heapInsert_wide h.fd_nonneg h.wellFormed hmax rid h.holds
    simp only [HeapCall.exec] at hout ⊢
    generalize heapInsert (some s.heap) (some r) (some rid) s.file = out at hout ⊢
    obtain ⟨ret, f'⟩ := out
    obtain ⟨bytes, pos, fails, calls⟩ := f'
    have htail := h.holds.tail_lt
    have hset : ∀ {qs : List Page} {q : Page} (i : ℕ), (∀ p ∈ qs, WellFormed p) → WellFormed q →
        ∀ p ∈ qs.set i q, WellFormed p := fun i hqs hq p hp =>
      (List.mem_or_eq_of_mem_set hp).elim (hqs p) fun heq => heq ▸ hq
    have hadd : ∀ p ∈ ps ++ [emptyPage], WellFormed p := by
      intro p hp
      rcases List.mem_append.mp hp with hp | hp
      · exact h.wellFormed p hp
      · exact List.mem_singleton.mp hp ▸ wellFormed_emptyPage
    cases hout with
    | @stored q p _ hq =>
      have hwf := wellFormed_inserted (h.wellFormed p (List.mem_of_getElem? hq)) r
      exact ⟨ps.set q (inserted p r), ⟨h.fd_nonneg, ⟨rfl, htail⟩, hset q h.wellFormed hwf⟩,
        fun hret => absurd hret (by simp [HeapRet.value])⟩
    | grown =>
      refine ⟨(ps ++ [emptyPage]).set (ps.length % 2 ^ 32) (inserted emptyPage r),
        ⟨h.fd_nonneg, ⟨writeAt_grown ps r, htail⟩,
          hset _ hadd (wellFormed_inserted wellFormed_emptyPage r)⟩,
        fun hret => absurd hret (by simp [HeapRet.value])⟩
    | allocated =>
      exact ⟨ps ++ [emptyPage], ⟨h.fd_nonneg, ⟨by simp, htail⟩, hadd⟩, fun _ => Or.inr rfl⟩
    | failed => exact ⟨ps, ⟨h.fd_nonneg, ⟨rfl, htail⟩, h.wellFormed⟩, fun _ => Or.inl rfl⟩

/-- Every call is atomic, whatever fails. -/
lemma exec_atomic (h : Stores s ps []) (c : HeapCall) :
    Atomic ps (c.exec s).1 (c.exec s).2 := by
  cases c with
  | insert record rid => exact heapInsert_atomic h record rid
  | get rid buffer =>
    cases buffer with
    | none =>
      simp only [HeapCall.exec, heapGet_null]
      exact .same h _ h.fd_nonneg rfl
    | some buffer =>
      obtain ⟨hsame, -⟩ :=
        heapGet_spec h.fd_nonneg h.wellFormed rid buffer h.holds
      exact .same h _ h.fd_nonneg hsame.bytes
  | delete rid =>
    obtain ⟨p, hp, hlive, hret, hbytes⟩ | ⟨-, hbytes, -⟩ :=
      heapDelete_spec h.fd_nonneg h.wellFormed rid h.holds
    · have hwf : WellFormed (deleted p rid.slotId) :=
        wellFormed_delete (h.wellFormed p (List.mem_of_getElem? hp)) hlive.1
      refine ⟨ps.set rid.pageId (deleted p rid.slotId), ⟨h.fd_nonneg, ⟨hbytes, h.holds.tail_lt⟩,
        fun p' hp' => (List.mem_or_eq_of_mem_set hp').elim (h.wellFormed p') fun heq => heq ▸ hwf⟩,
        fun hfail => ?_⟩
      simp [HeapCall.exec, HeapRet.value, hret] at hfail
    · exact .same h _ h.fd_nonneg hbytes
  | pageCount =>
    obtain ⟨hsame, -⟩ := heapPageCount_spec h.holds h.fd_nonneg
    exact .same h _ h.fd_nonneg hsame.bytes
  | reopen fd =>
    rw [exec_reopen h.fd_nonneg]
    obtain ⟨-, hsame⟩ := openFile_spec (fd : ℤ) s.file
    exact .same h _ (Int.natCast_nonneg fd) hsame.bytes

variable {fd : ℕ} {fails : ℕ → Bool} {es : List HeapEvent}

lemma stores_of_faulty_run (hrun : Run HeapStep (faultyHeap fd fails) es s) :
    ∃ ps, Stores s ps [] := by
  refine Run.invariant (I := fun s => ∃ ps, Stores s ps []) ?_ ⟨[], stores_faultyHeap fd fails⟩
    hrun
  rintro s₁ e s₂ ⟨ps, hstores⟩ ⟨c, -⟩
  obtain ⟨ps', hstores', -⟩ := exec_atomic hstores c
  exact ⟨ps', hstores'⟩

/-- **A failed call changes nothing**, in every run from an empty file and for every pattern of
failures: the file always consists of well-formed pages, and a call that returns `-1` leaves
all of them as they are, adds at most one page, without a live slot, and so leaves all records
as they are. -/
theorem failed_call_atomic (hrun : Run HeapStep (faultyHeap fd fails) es s) :
    (s.file.bytes.length % pageSize = 0 ∧ ∀ p ∈ blocks pageSize s.file.bytes, WellFormed p) ∧
    ∀ c : HeapCall, Roomy s.file → (c.exec s).1.value = -1 →
      let s' := (c.exec s).2
      (∃ added : List Page, s'.file.bytes = s.file.bytes ++ flat added ∧ added.length ≤ 1 ∧
        ∀ p ∈ added, WellFormed p ∧ ∀ i < slotCount p, slotLen p i = 0) ∧
      ∀ rid, lookup (blocks pageSize s'.file.bytes) rid =
        lookup (blocks pageSize s.file.bytes) rid := by
  obtain ⟨ps, hstores⟩ := stores_of_faulty_run hrun
  have hbytes := hstores.holds.bytes
  have hblocks := hstores.holds.blocks_eq
  rw [List.append_nil] at hbytes
  refine ⟨⟨?_, hblocks ▸ hstores.wellFormed⟩, fun c _ hret => ?_⟩
  · rw [hbytes, length_flat, Nat.mul_mod_left]
  · obtain ⟨ps', hstores', hfail⟩ := exec_atomic hstores c
    have hbytes' := hstores'.holds.bytes
    rw [List.append_nil] at hbytes'
    dsimp only
    rw [hstores'.holds.blocks_eq, hblocks, hbytes', hbytes]
    rcases hfail hret with rfl | rfl
    · exact ⟨⟨[], by simp⟩, fun _ => rfl⟩
    · refine ⟨⟨[emptyPage], by simp, by simp, fun p hp => ?_⟩, lookup_append_emptyPage ps⟩
      rw [List.mem_singleton.mp hp, slotCount_emptyPage]
      exact ⟨wellFormed_emptyPage, fun i hi => absurd hi (Nat.not_lt_zero i)⟩

def shortInsert : HeapCall := .insert (some (record 12 1 (by decide))) (some ⟨0, 0⟩)

/-- The `lseek` that counts the pages fails in the second insert, so that it allocates a page, and
the `page_write` behind that fails too. -/
def secondFails (i : ℕ) : Bool := i == 5 || i == 8

lemma shortInsert_twice :
    let out := shortInsert.exec (faultyHeap 3 secondFails)
    (out.1, out.2.file.bytes.length, (shortInsert.exec out.2).1.value,
      (shortInsert.exec out.2).2.file.bytes.length) =
      (.insert 0 (some ⟨0, 0⟩), pageSize, -1, 2 * pageSize) := by decide +kernel

theorem failed_call_atomic_insert : ∃ s,
    Run HeapStep (faultyHeap 3 secondFails) [(shortInsert, .insert 0 (some ⟨0, 0⟩))] s ∧
    s.file.bytes.length = pageSize ∧ (shortInsert.exec s).1.value = -1 ∧
    (shortInsert.exec s).2.file.bytes.length = 2 * pageSize ∧
    (∃ added : List Page, (shortInsert.exec s).2.file.bytes = s.file.bytes ++ flat added ∧
      added.length ≤ 1 ∧ ∀ p ∈ added, WellFormed p ∧ ∀ i < slotCount p, slotLen p i = 0) ∧
    ∀ rid, lookup (blocks pageSize (shortInsert.exec s).2.file.bytes) rid =
      lookup (blocks pageSize s.file.bytes) rid := by
  have hroom : Roomy (faultyHeap 3 secondFails).file := by
    simp [Roomy, faultyHeap, File.start]
  have hrun := Run.single (HeapStep.call shortInsert hroom)
  have htwice := shortInsert_twice
  revert hrun htwice
  generalize shortInsert.exec (faultyHeap 3 secondFails) = out
  obtain ⟨ret, s⟩ := out
  intro hrun htwice
  simp only [Prod.mk.injEq] at hrun htwice
  obtain ⟨rfl, hlen, hret, hlen'⟩ := htwice
  have hroom' : Roomy s.file := by
    rw [Roomy, hlen]
    simp [pageSize]
  exact ⟨s, hrun, hlen, hret, hlen', (failed_call_atomic hrun).2 shortInsert hroom' hret⟩

end Faults

end MiniDb

end CsLab
