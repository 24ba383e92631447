/-
Runs of the heap file.

A state is a heap that is open together with its file, and a step is one call.  While no
call on the file fails, the functions do to the pages of the file what `pageStep` does to a
list of pages (`exec_healthy`), so a run of the program is a run of `pageStep`.
-/
import CsLab.Lib.Run
import CsLab.MiniDb.PageStore

namespace CsLab

namespace MiniDb

open File Blocks Prog
open SlotAlloc (update)

/-- The heap variable of a program, and the file behind it. -/
structure HeapState where
  heap : HeapFile
  file : File

/-- Make one call. -/
def HeapCall.exec : HeapCall → HeapState → HeapRet × HeapState
  | .insert record rid, s =>
    let out := heapInsert (some s.heap) record rid s.file
    (.insert out.1.1 out.1.2, { s with file := out.2 })
  | .get rid buffer, s =>
    let out := heapGet (some s.heap) rid buffer s.file
    (.get out.1.1 out.1.2, { s with file := out.2 })
  | .delete rid, s =>
    let out := heapDelete (some s.heap) rid s.file
    (.delete out.1, { s with file := out.2 })
  | .pageCount, s =>
    let out := heapPageCount (some s.heap) s.file
    (.pageCount out.1, { s with file := out.2 })
  | .reopen fd, s =>
    let closed := heapClose (some s.heap) s.file
    let out := heapOpen closed.1 (some "test_heap.db") fd closed.2
    (.reopen out.1.1, ⟨out.1.2.getD s.heap, out.2⟩)

/-- A call with what it returns. -/
abbrev HeapEvent : Type := HeapCall × HeapRet

/-- One call, while the file has fewer than 2^31 pages. -/
inductive HeapStep : HeapState → HeapEvent → HeapState → Prop
  | call (c : HeapCall) {s : HeapState} (hroom : Roomy s.file) :
      HeapStep s (c, (c.exec s).1) (c.exec s).2

/-- A heap that was opened with the descriptor `fd` on an empty file.  No call on the file
will fail. -/
def freshHeap (fd : ℕ) : HeapState := ⟨⟨fd⟩, File.start [] fun _ => false⟩

/-- The heap is open, and its file consists of the well-formed pages `ps` and a `tail`. -/
structure Stores (s : HeapState) (ps : List Page) (tail : List UInt8) : Prop where
  fd_nonneg : 0 ≤ s.heap.fd
  holds : Holds s.file ps tail
  wellFormed : ∀ p ∈ ps, WellFormed p

/-- A record that is stored must not be empty. -/
def HeapCall.NonEmpty : HeapCall → Prop
  | .insert (some r) _ => r.length ≠ 0
  | _ => True

section Exec

variable {s s' : HeapState} {ps : List Page} {tail : List UInt8}

lemma stores_freshHeap (fd : ℕ) : Stores (freshHeap fd) [] [] :=
  ⟨Int.natCast_nonneg fd, ⟨rfl, by simp⟩, by simp⟩

lemma Stores.length_lt (h : Stores s ps tail) (hroom : Roomy s.file) : ps.length < 2 ^ 31 := by
  rw [Roomy, h.holds.bytes, List.length_append, length_flat] at hroom
  simp only [pageSize] at hroom
  omega

/-- A call of `heap_insert` without a record, without a place for the RID, or with a record
that is too long, does nothing. -/
lemma heapInsert_refuse (heap : Option HeapFile) {record : Option Area} {rid : Option RID}
    (h : ∀ r, record = some r → rid ≠ none → 4086 < r.length) (f : File) :
    heapInsert heap record rid f = ((-1, rid), f) := by
  cases heap with
  | none => rfl
  | some heap =>
    cases record with
    | none => rfl
    | some r =>
      cases rid with
      | none => rfl
      | some rid =>
        have hlong := h r rfl (by simp)
        simp only [heapInsert, run_ite]
        rw [if_pos (by simp only [pageSize, sizeofPageHeader, sizeofSlot]; omega)]
        rfl

lemma exec_reopen (hfd : 0 ≤ s.heap.fd) (fd : ℕ) :
    HeapCall.exec (.reopen fd) s = (.reopen 0, ⟨⟨fd⟩, (openFile fd s.file).2⟩) := by
  have hclose : heapClose (some s.heap) s.file = (some ⟨-1⟩, s.file) := by
    simp only [heapClose, run_ite, if_pos hfd]
    rfl
  have hopen : heapOpen (some ⟨-1⟩) (some "test_heap.db") fd s.file =
      ((0, some ⟨fd⟩), (openFile fd s.file).2) := by
    simp only [heapOpen, run_bind, run_ite, (openFile_spec (fd : ℤ) s.file).1]
    rw [if_neg (by omega)]
    rfl
  simp only [HeapCall.exec, hclose, hopen]
  rfl

/-- The first page that takes the record is the page for the record. -/
lemma pageFor_of_first {r : Area} {q : ℕ} {p : Page} (hq : ps[q]? = some p)
    (hacc : Accepts p r) (hfirst : ∀ i p', i < q → ps[i]? = some p' → ¬ Accepts p' r) :
    pageFor ps r = q ∧ targetPage ps r = p := by
  have hlt : q < ps.length := (List.getElem?_eq_some_iff.mp hq).1
  have hget : ps.getD q emptyPage = p := by
    rw [List.getD_eq_getElem?_getD, hq]
    rfl
  have hpage : pageFor ps r = q := by
    refine pageFor_eq_iff.mpr ⟨fun _ => hget ▸ hacc, by omega, fun i hi => ?_⟩
    rw [List.getD_eq_getElem _ _ (by omega)]
    exact hfirst i _ hi (List.getElem?_eq_getElem (by omega))
  exact ⟨hpage, by rw [targetPage, hpage, hget]⟩

lemma pageFor_of_full {r : Area} (h : ∀ p ∈ ps, ¬ Accepts p r) :
    pageFor ps r = ps.length ∧ targetPage ps r = emptyPage := by
  have hpage : pageFor ps r = ps.length := by
    refine pageFor_eq_iff.mpr ⟨fun hlt => absurd hlt (Nat.lt_irrefl _), le_rfl, fun i hi => ?_⟩
    rw [List.getD_eq_getElem _ _ hi]
    exact h _ (List.getElem_mem hi)
  exact ⟨hpage, by rw [targetPage, hpage, List.getD_eq_default _ _ le_rfl]⟩

/-- `heap_insert` of a non-empty admissible record on a healthy file. -/
lemma heapInsert_healthy (h : Stores s ps tail) (hhealthy : Healthy s.file)
    (hroom : Roomy s.file) {r : Area} (hr : r.length ≠ 0) (hmax : r.length ≤ 4086) (rid : RID) :
    let out := heapInsert (some s.heap) (some r) (some rid) s.file
    out.1 = (0, some (insertRid ps r)) ∧
      ∃ tail', tail'.length = tail.length ∧ Holds out.2 (insertPages ps r) tail' := by
  have hout := heapInsert_spec h.fd_nonneg h.wellFormed (h.length_lt hroom) hmax rid h.holds
  dsimp only at hout ⊢
  generalize heapInsert (some s.heap) (some r) (some rid) s.file = out at hout
  obtain ⟨ret, f'⟩ := out
  obtain ⟨bytes, pos, fails, calls⟩ := f'
  have hlt := h.holds.tail_lt
  cases hout with
  | @stored q p hq hacc hfirst =>
    obtain ⟨hpage, htarget⟩ := pageFor_of_first hq hacc hfirst
    have hlt' : q < ps.length := (List.getElem?_eq_some_iff.mp hq).1
    refine ⟨by rw [insertRid, hpage, htarget], tail, rfl, ⟨?_, hlt⟩⟩
    rw [insertPages, update, hpage, htarget, if_pos hlt']
    rfl
  | grown _ hfull =>
    obtain ⟨hpage, htarget⟩ := pageFor_of_full (hfull hhealthy)
    refine ⟨by rw [insertRid, hpage, htarget, insertSlot_emptyPage],
      (tail ++ emptyPage.bytes).drop pageSize, by simp, ⟨?_, by simpa using hlt⟩⟩
    rw [insertPages, update, hpage, htarget, if_neg (Nat.lt_irrefl _)]
    rfl
  | allocated hwhy => exact absurd (hwhy hhealthy) hr
  | failed hwhy => exact absurd hhealthy hwhy

/-- `heap_insert` of an empty record on a healthy file leaves a new page behind. -/
lemma heapInsert_empty (h : Stores s ps []) (hhealthy : Healthy s.file) (hroom : Roomy s.file)
    {r : Area} (hr : r.length = 0) (rid : RID) :
    let out := heapInsert (some s.heap) (some r) (some rid) s.file
    out.1 = (-1, some rid) ∧ Holds out.2 (ps ++ [emptyPage]) [] := by
  have hout := heapInsert_spec h.fd_nonneg h.wellFormed (h.length_lt hroom)
    (show r.length ≤ 4086 by omega) rid h.holds
  dsimp only at hout ⊢
  generalize heapInsert (some s.heap) (some r) (some rid) s.file = out at hout
  obtain ⟨ret, f'⟩ := out
  obtain ⟨bytes, pos, fails, calls⟩ := f'
  cases hout with
  | stored _ hacc => exact absurd hr hacc.1
  | grown hne => exact absurd hr hne
  | allocated => exact ⟨rfl, ⟨by simp, h.holds.tail_lt⟩⟩
  | failed hwhy => exact absurd hhealthy hwhy

/-- On a healthy file a call makes one of the moves of the pages, and the tail keeps its
length. -/
def HeapCall.Moves (c : HeapCall) (s : HeapState) (ps : List Page) (tail : List UInt8) : Prop :=
  ∃ ps' tail', PageMove ps c (c.exec s).1 ps' ∧ Healthy (c.exec s).2.file ∧
    tail'.length = tail.length ∧ Stores (c.exec s).2 ps' tail'

lemma insert_moves (h : Stores s ps tail) (hhealthy : Healthy s.file) (hroom : Roomy s.file)
    {record : Option Area} {rid : Option RID}
    (htail : tail = [] ∨ (HeapCall.insert record rid).NonEmpty) :
    (HeapCall.insert record rid).Moves s ps tail := by
  by_cases hno : ∀ r, record = some r → rid ≠ none → 4086 < r.length
  · have hexec := heapInsert_refuse (some s.heap) hno s.file
    simp only [HeapCall.Moves, HeapCall.exec, hexec]
    exact ⟨ps, tail, .refuse hno, hhealthy, rfl, h⟩
  · push Not at hno
    obtain ⟨r, rfl, hrid, hmax⟩ := hno
    obtain ⟨rid, rfl⟩ := Option.ne_none_iff_exists'.mp hrid
    have hhealthy' := keeps_heapInsert s.heap r rid s.file hhealthy
    by_cases hr : r.length = 0
    · obtain rfl : tail = [] := htail.resolve_right fun hne => hne hr
      obtain ⟨hret, hholds⟩ := heapInsert_empty h hhealthy hroom hr rid
      refine ⟨ps ++ [emptyPage], [], ?_, hhealthy', rfl,
        ⟨h.fd_nonneg, hholds, wellFormed_append h.wellFormed wellFormed_emptyPage⟩⟩
      simp only [HeapCall.exec, hret]
      exact .leak hr
    · obtain ⟨hret, tail', htail', hholds⟩ := heapInsert_healthy h hhealthy hroom hr hmax rid
      refine ⟨insertPages ps r, tail', ?_, hhealthy', htail',
        ⟨h.fd_nonneg, hholds, wellFormed_insertPages h.wellFormed r⟩⟩
      simp only [HeapCall.exec, hret]
      exact .insert hr hmax

lemma get_moves (h : Stores s ps tail) (hhealthy : Healthy s.file) (hroom : Roomy s.file)
    (rid : RID) (buffer : Option Area) : (HeapCall.get rid buffer).Moves s ps tail := by
  have hlen := h.length_lt hroom
  cases buffer with
  | none =>
    simp only [HeapCall.Moves, HeapCall.exec, heapGet_null]
    exact ⟨ps, tail, .miss (by simp), hhealthy, rfl, h⟩
  | some buffer =>
    obtain ⟨hsame, hout⟩ := heapGet_spec h.fd_nonneg h.wellFormed rid buffer h.holds
    refine ⟨ps, tail, ?_, hsame.healthy.mpr hhealthy, rfl,
      ⟨h.fd_nonneg, h.holds.same hsame, h.wellFormed⟩⟩
    rcases hout with ⟨rec, hrec, hle, hret⟩ | ⟨hret, hno⟩
    · simp only [HeapCall.exec, hret]
      exact .get hrec hle
    · simp only [HeapCall.exec, hret]
      refine .miss ?_
      rintro rec b hrec ⟨⟩
      exact hno hhealthy (by omega) rec hrec

lemma delete_moves (h : Stores s ps tail) (hhealthy : Healthy s.file) (hroom : Roomy s.file)
    (rid : RID) : (HeapCall.delete rid).Moves s ps tail := by
  have hlen := h.length_lt hroom
  have hout := heapDelete_spec h.fd_nonneg h.wellFormed rid h.holds
  have hhealthy' : Healthy (HeapCall.exec (.delete rid) s).2.file :=
    keeps_heapDelete s.heap rid s.file hhealthy
  rcases hout with ⟨p, hp, hlive, hret, hbytes⟩ | ⟨hret, hbytes, hno⟩
  · have hsome : lookup ps rid ≠ none := by
      rw [lookup_of_page hp, ne_eq, recordAt_eq_none]
      omega
    have hset : ps.set rid.pageId (deleted p rid.slotId) = deletePages ps rid := by
      obtain ⟨hlt, rfl⟩ := List.getElem?_eq_some_iff.mp hp
      rw [deletePages, List.getD_eq_getElem _ _ hlt]
    refine ⟨deletePages ps rid, tail, ?_, hhealthy', rfl, ⟨h.fd_nonneg,
      ⟨hset ▸ hbytes, h.holds.tail_lt⟩, wellFormed_deletePages h.wellFormed hsome⟩⟩
    simp only [HeapCall.exec, hret]
    exact .delete hsome
  · refine ⟨ps, tail, ?_, hhealthy', rfl,
      ⟨h.fd_nonneg, ⟨hbytes.trans h.holds.bytes, h.holds.tail_lt⟩, h.wellFormed⟩⟩
    simp only [HeapCall.exec, hret]
    exact .gone (hno hhealthy (by omega))

lemma pageCount_moves (h : Stores s ps tail) (hhealthy : Healthy s.file) (hroom : Roomy s.file) :
    HeapCall.pageCount.Moves s ps tail := by
  have hlen := h.length_lt hroom
  obtain ⟨hsame, hcount⟩ := heapPageCount_spec h.holds h.fd_nonneg
  refine ⟨ps, tail, ?_, hsame.healthy.mpr hhealthy, rfl,
    ⟨h.fd_nonneg, h.holds.same hsame, h.wellFormed⟩⟩
  rcases hcount with hcount | ⟨-, hbad⟩
  · simp only [HeapCall.exec, hcount, Nat.mod_eq_of_lt (show ps.length < 2 ^ 32 by omega)]
    exact .pageCount
  · exact absurd hhealthy hbad

/-- **The heap file is a list of pages**: on a healthy file a call returns what `pageStep`
returns and leaves the pages that `pageStep` leaves.  The length of the tail never changes,
unless an empty record is inserted. -/
theorem exec_healthy (h : Stores s ps tail) (hhealthy : Healthy s.file) (hroom : Roomy s.file)
    (c : HeapCall) (htail : tail = [] ∨ c.NonEmpty) :
    (c.exec s).1 = (pageStep c ps).1 ∧ Healthy (c.exec s).2.file ∧
      ∃ tail', tail'.length = tail.length ∧ Stores (c.exec s).2 (pageStep c ps).2 tail' := by
  have hmoves : c.Moves s ps tail := by
    cases c with
    | insert record rid => exact insert_moves h hhealthy hroom htail
    | get rid buffer => exact get_moves h hhealthy hroom rid buffer
    | delete rid => exact delete_moves h hhealthy hroom rid
    | pageCount => exact pageCount_moves h hhealthy hroom
    | reopen fd =>
      obtain ⟨-, hsame⟩ := openFile_spec (fd : ℤ) s.file
      rw [HeapCall.Moves, exec_reopen h.fd_nonneg]
      exact ⟨ps, tail, .reopen fd, hsame.healthy.mpr hhealthy, rfl,
        ⟨Int.natCast_nonneg fd, h.holds.same hsame, h.wellFormed⟩⟩
  obtain ⟨ps', tail', hmove, hhealthy', htail', hstores⟩ := hmoves
  rw [hmove.eq]
  exact ⟨rfl, hhealthy', tail', htail', hstores⟩

lemma length_lt_of_step {e : HeapEvent} (h : Stores s ps []) (hstep : HeapStep s e s') :
    ps.length < 2 ^ 31 := by
  obtain ⟨c, hroom⟩ := hstep
  exact h.length_lt hroom

lemma exec_step (h : Stores s ps []) (hhealthy : Healthy s.file) {e : HeapEvent}
    (hstep : HeapStep s e s') :
    e.2 = (pageStep e.1 ps).1 ∧ Healthy s'.file ∧ Stores s' (pageStep e.1 ps).2 [] := by
  obtain ⟨c, hroom⟩ := hstep
  obtain ⟨hret, hhealthy', tail', htail', hstores⟩ :=
    exec_healthy h hhealthy hroom c (Or.inl rfl)
  rw [List.length_nil, List.length_eq_zero_iff] at htail'
  exact ⟨hret, hhealthy', htail' ▸ hstores⟩

lemma HeapStep.unique (e : HeapEvent) {s₁ s₂ : HeapState} (h₁ : HeapStep s e s₁)
    (h₂ : HeapStep s e s₂) : s₁ = s₂ := by
  cases h₁
  cases h₂
  rfl

/-- Every run from a fresh heap leads to a healthy file of well-formed pages. -/
lemma stores_of_run {fd : ℕ} {es : List HeapEvent} (hrun : Run HeapStep (freshHeap fd) es s) :
    Healthy s.file ∧ ∃ ps, Stores s ps [] := by
  refine Run.invariant (I := fun s => Healthy s.file ∧ ∃ ps, Stores s ps []) ?_
    ⟨fun _ => rfl, [], stores_freshHeap fd⟩ hrun
  rintro s₁ e s₂ ⟨hhealthy, ps, hstores⟩ hstep
  obtain ⟨-, hhealthy', hstores'⟩ := exec_step hstores hhealthy hstep
  exact ⟨hhealthy', _, hstores'⟩

/-- Calls on pages, one after the other, with what they return. -/
def pageRun : List HeapCall → List Page → List HeapEvent × List Page
  | [], ps => ([], ps)
  | c :: cs, ps =>
    let next := pageStep c ps
    let rest := pageRun cs next.2
    ((c, next.1) :: rest.1, rest.2)

lemma Stores.roomy (h : Stores s ps []) (hlen : ps.length < 2 ^ 31) : Roomy s.file := by
  rw [Roomy, h.holds.bytes, List.append_nil, length_flat]
  simp only [pageSize]
  omega

/-- The program can make any calls, as long as the file stays small enough. -/
lemma exists_run (h : Stores s ps []) (hhealthy : Healthy s.file) (cs : List HeapCall)
    (hlen : ps.length + cs.length < 2 ^ 31) :
    ∃ s', Run HeapStep s (pageRun cs ps).1 s' ∧ Roomy s'.file ∧
      Stores s' (pageRun cs ps).2 [] := by
  induction cs generalizing s ps with
  | nil => exact ⟨s, .nil s, h.roomy hlen, h⟩
  | cons c cs ih =>
    rw [List.length_cons] at hlen
    have hstep : HeapStep s (c, (c.exec s).1) (c.exec s).2 := .call c (h.roomy (by omega))
    obtain ⟨hret, hhealthy', hstores⟩ := exec_step h hhealthy hstep
    obtain ⟨-, hgrow⟩ := length_pageStep c ps
    obtain ⟨s', hrun, hend⟩ := ih hstores hhealthy' (by dsimp only; omega)
    dsimp only at hret
    rw [hret] at hstep
    exact ⟨s', .cons hstep hrun, hend⟩

/-- Two records are inserted, the first is deleted, and its slot is used again. -/
def reuseCalls : List HeapCall :=
  [.insert (some (record 10 1 (by decide))) (some ⟨0, 0⟩),
    .insert (some (record 15 2 (by decide))) (some ⟨0, 0⟩),
    .delete ⟨0, 0⟩,
    .insert (some (record 11 3 (by decide))) (some ⟨0, 0⟩)]

lemma exists_reuse_run : ∃ s, Run HeapStep (freshHeap 3) (pageRun reuseCalls []).1 s ∧
    Roomy s.file ∧ Stores s (pageRun reuseCalls []).2 [] :=
  exists_run (stores_freshHeap 3) (fun _ => rfl) reuseCalls (by decide)

end Exec

end MiniDb

end CsLab
