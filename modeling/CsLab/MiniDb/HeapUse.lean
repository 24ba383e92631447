/-
How long the heap file gets.

Seen from its directories, the heap file puts records into pages by first fit, and so the
bound of `SlotAlloc.Filled` is one of the heap file: as long as nothing is deleted, it has at
most twice as many pages as any file with records of these lengths.
-/
import CsLab.Lib.SlotUse
import CsLab.MiniDb.Layout

namespace CsLab

namespace MiniDb

open File Blocks Prog
open SlotAlloc (Filled)

/-- The call neither deletes a record nor inserts an empty one. -/
def HeapCall.Adds : HeapCall → Prop
  | .delete _ => False
  | c => c.NonEmpty

/-- The length of the record that a call has stored. -/
def storedLength : HeapEvent → Option ℕ
  | (.insert (some r) _, .insert 0 _) => some r.length
  | _ => none

section Runs

variable {fd : ℕ} {es : List HeapEvent} {s s' : HeapState} {ps : List Page} {ns : List ℕ}

lemma use_dir_le {p : Page} (hp : WellFormed p) : SlotAlloc.use 4 (dir p) ≤ 4090 := by
  have hend := hp.end_eq
  have hstart := hp.start_le
  have hlive := hp.liveBytes_le
  rw [SlotAlloc.use, sum_dir, length_dir]
  omega

/-- A call that adds something keeps the pages filled. -/
lemma filled_pageStep (hwf : ∀ p ∈ ps, WellFormed p) (h : Filled 4090 4 (ps.map dir) ns)
    {c : HeapCall} (hc : c.Adds) :
    Filled 4090 4 ((pageStep c ps).2.map dir)
      (ns ++ (storedLength (c, (pageStep c ps).1)).toList) := by
  obtain ⟨ret, ps', heq, hmove⟩ := exists_pageMove c ps
  rw [heq]
  cases hmove with
  | @refuse record rid hno =>
    cases record <;> simpa [storedLength] using h
  | leak hr => exact absurd hr hc
  | insert hr hmax =>
    have halloc := h.alloc hr
    rw [alloc_dir hwf hr hmax] at halloc
    exact halloc
  | delete => exact hc.elim
  | gone => exact hc.elim
  | _ => simpa [storedLength] using h

lemma filled_of_run (h : Stores s ps []) (hhealthy : Healthy s.file)
    (hfilled : Filled 4090 4 (ps.map dir) ns) (hrun : Run HeapStep s es s')
    (hadds : ∀ e ∈ es, e.1.Adds) :
    ∃ ps', Stores s' ps' [] ∧ Filled 4090 4 (ps'.map dir) (ns ++ es.filterMap storedLength) := by
  induction hrun generalizing ps ns with
  | nil => exact ⟨ps, h, by simpa using hfilled⟩
  | @cons _ _ _ e es hstep _ ih =>
    rw [List.forall_mem_cons] at hadds
    obtain ⟨hret, hhealthy', hstores⟩ := exec_step h hhealthy hstep
    have hnext := filled_pageStep h.wellFormed hfilled hadds.1
    rw [← hret] at hnext
    obtain ⟨ps', hstores', hfilled'⟩ := ih hstores hhealthy' hnext hadds.2
    refine ⟨ps', hstores', ?_⟩
    have hcons : (e :: es).filterMap storedLength =
        (storedLength e).toList ++ es.filterMap storedLength := by
      rw [List.filterMap_cons]
      cases storedLength e <;> rfl
    rw [hcons, ← List.append_assoc]
    exact hfilled'

/-- **The heap file is at most twice as long as it has to be**: after a run without a delete
from an empty file, no list of well-formed pages that hold records of the same lengths has
less than half as many pages. -/
theorem first_fit_pages (hrun : Run HeapStep (freshHeap fd) es s) (hadds : ∀ e ∈ es, e.1.Adds)
    {qs : List Page} (hqs : ∀ q ∈ qs, WellFormed q)
    (hsame : ((qs.map dir).flatten.filter (· ≠ 0)).Perm (es.filterMap storedLength)) :
    (blocks pageSize s.file.bytes).length ≤ 2 * qs.length := by
  obtain ⟨ps, hstores, hfilled⟩ :=
    filled_of_run (stores_freshHeap fd) (fun _ => rfl) .nil hrun hadds
  have hdirs : ∀ d ∈ qs.map dir, SlotAlloc.use 4 d ≤ 4090 := fun d hd => by
    obtain ⟨q, hq, rfl⟩ := List.mem_map.mp hd
    exact use_dir_le (hqs q hq)
  have hle := hfilled.length_le hdirs hsame
  rw [List.length_map, List.length_map] at hle
  rw [hstores.holds.blocks_eq]
  exact hle

end Runs

/-- Three records and a look at one of them. -/
def addCalls : List HeapCall :=
  [.insert (some (record 21 1 (by decide))) (some ⟨0, 0⟩),
    .insert (some (record 22 2 (by decide))) (some ⟨0, 0⟩),
    .get ⟨0, 1⟩ none,
    .insert (some (record 23 3 (by decide))) (some ⟨0, 0⟩)]

lemma adds_addCalls : ∀ c ∈ addCalls, c.Adds := by
  simp [addCalls, HeapCall.Adds, HeapCall.NonEmpty, length_record]

/-- The same three records, the last one first. -/
def otherCalls : List HeapCall :=
  [.insert (some (record 23 3 (by decide))) (some ⟨0, 0⟩),
    .insert (some (record 21 1 (by decide))) (some ⟨0, 0⟩),
    .insert (some (record 22 2 (by decide))) (some ⟨0, 0⟩)]

lemma dirs_otherCalls : (pageRun otherCalls []).2.map dir = [[23, 21, 22]] := by
  have hdirs := layoutRun_dir (List.forall_mem_nil _) otherCalls
  rw [List.map_nil] at hdirs
  have hlayout : (layoutRun otherCalls []).2 = [[23, 21, 22]] := by decide +kernel
  simp only [hdirs] at hlayout
  exact hlayout

lemma stored_addCalls : (pageRun addCalls []).1.filterMap storedLength = [21, 22, 23] := by
  decide +kernel

theorem first_fit_pages_add : ∃ s, Run HeapStep (freshHeap 3) (pageRun addCalls []).1 s ∧
    (blocks pageSize s.file.bytes).length ≤ 2 * (pageRun otherCalls []).2.length := by
  obtain ⟨s, hrun, -, -⟩ := exists_run (stores_freshHeap 3) (fun _ => rfl) addCalls (by decide)
  obtain ⟨_, -, -, hother⟩ :=
    exists_run (stores_freshHeap 3) (fun _ => rfl) otherCalls (by decide)
  refine ⟨s, hrun, first_fit_pages hrun (fun e he => ?_) hother.wellFormed ?_⟩
  · have hmem := List.mem_map_of_mem (f := Prod.fst) he
    rw [pageRun_calls] at hmem
    exact adds_addCalls _ hmem
  · rw [dirs_otherCalls, stored_addCalls]
    exact (List.Perm.swap 21 23 [22]).trans ((List.Perm.swap 22 23 []).cons 21)

end MiniDb

end CsLab
