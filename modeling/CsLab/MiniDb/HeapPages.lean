/-
What the functions of the heap file do to the pages of the file.

The file consists of well-formed pages `ps` and a ragged tail, and any call on it may fail.
`heapInsert_spec`, `heapGet_spec` and `heapDelete_spec` say what each function returns and
what it makes of the file, and give the reason for every `-1`.  `heapInsert_wide` is about a
file of any size, where `page_count` and the page ids may be cut.
-/
import CsLab.MiniDb.HeapFile
import CsLab.MiniDb.PageRuns

namespace CsLab

namespace MiniDb

open PageM File Blocks Prog

/-! ### One page -/

/-- `page_insert` takes the record. -/
def Accepts (p : Page) (r : Area) : Prop := r.length ≠ 0 ∧ Fits p r.length

instance (p : Page) (r : Area) : Decidable (Accepts p r) := inferInstanceAs (Decidable (_ ∧ _))

/-- The page after `page_insert` was called with the record. -/
def inserted (p : Page) (r : Area) : Page := ((pageInsert (some r)).run p).2

lemma pageInsert_run_snd (p : Page) (r : Area) :
    ((pageInsert (some r)).run p).2 = inserted p r := (rfl)

/-- The page after the live slot `i` was deleted. -/
def deleted (p : Page) (i : ℕ) : Page := p.put16 (lengthField (slotAt i)) 0

section OnePage

variable {p : Page} {r : Area}

lemma pageInsert_run_fst (hp : WellFormed p) (r : Area) :
    ((pageInsert (some r)).run p).1 = if Accepts p r then (insertSlot p : ℤ) else -1 := by
  by_cases hr : r.length = 0
  · have hno : ¬ Accepts p r := fun h => h.1 hr
    have hrefuse := pageInsert_refuse (some r) (fun r' h => by rwa [← Option.some.inj h]) ⟨p, []⟩
    rw [if_neg hno, PageM.run, hrefuse]
  · obtain ⟨q, -, ⟨hfits, hret, -⟩ | ⟨hfits, hret, -⟩⟩ := pageInsert_spec hp hr ⟨p, []⟩ rfl
    · rw [if_pos ⟨hr, hfits⟩]
      exact hret
    · rw [if_neg fun h => hfits h.2]
      exact hret

lemma Accepts.placed (h : Accepts p r) (hp : WellFormed p) :
    ∃ q, Prepared p r.length q ∧ Placed q r (inserted p r) := by
  obtain ⟨q, hq, ⟨-, -, hplaced⟩ | ⟨hfits, -, -⟩⟩ := pageInsert_spec hp h.1 ⟨p, []⟩ rfl
  · exact ⟨q, hq, hplaced⟩
  · exact absurd h.2 hfits

lemma wellFormed_inserted (hp : WellFormed p) (r : Area) : WellFormed (inserted p r) :=
  (PageOp.insert (some r)).wellFormed_apply hp

lemma insertSlot_lt_of_fits {n : ℕ} (h : Fits p n) : insertSlot p < 1022 := by
  have hslot := insertSlot_lt_slotsAfter p
  rw [Fits] at h
  omega

lemma insertSlot_emptyPage : insertSlot emptyPage = 0 := by
  have hnone : firstDeleted emptyPage = none := by
    rw [firstDeleted_eq_none, slotCount_emptyPage]
    exact fun i hi => absurd hi (Nat.not_lt_zero i)
  rw [insertSlot, hnone]
  exact slotCount_emptyPage

/-- The empty page takes every record that `heap_insert` admits. -/
lemma accepts_emptyPage (hr : r.length ≠ 0) (hmax : r.length ≤ 4086) : Accepts emptyPage r := by
  refine ⟨hr, ?_⟩
  have hslots : slotsAfter emptyPage ≤ 1 := by
    rw [slotsAfter, slotCount_emptyPage]
    split <;> omega
  rw [Fits, liveBytes_emptyPage]
  omega

lemma toUint16_insertSlot (h : Accepts p r) : toUint16 (insertSlot p) = insertSlot p := by
  have hslot := insertSlot_lt_of_fits h.2
  rw [toUint16]
  omega

end OnePage

/-! ### A healthy file stays healthy -/

lemma keeps_heapPageCount (heap : Option HeapFile) : Keeps Healthy (heapPageCount heap) := by
  cases heap with
  | none => exact .pure _
  | some heap => exact .ite (.pure _) <| .bind keeps_lseekEnd fun _ => .ite (.pure _) (.pure _)

lemma keeps_heapInsertLoop (fd : ℤ) (record : Area) (rid : RID) (remaining pageId : ℕ) :
    Keeps Healthy (heapInsertLoop fd record rid remaining pageId) := by
  induction remaining generalizing pageId with
  | zero => exact .pure _
  | succ remaining ih =>
    refine .bind (keeps_pageRead _ _ _) fun _ => .ite (.pure _) ?_
    exact .ite (ih _) <| .bind (keeps_pageWrite _ _ _) fun _ => .ite (.pure _) (.pure _)

lemma keeps_heapInsert (heap : HeapFile) (record : Area) (rid : RID) :
    Keeps Healthy (heapInsert (some heap) (some record) (some rid)) := by
  refine .ite (.pure _) <| .bind (keeps_heapPageCount _) fun _ =>
    .bind (keeps_heapInsertLoop _ _ _ _ _) fun looped => ?_
  cases looped with
  | some _ => exact .pure _
  | none =>
    refine .bind (keeps_pageAllocate _) fun _ => .ite (.pure _) <| .ite (.pure _) ?_
    exact .bind (keeps_pageWrite _ _ _) fun _ => .ite (.pure _) (.pure _)

lemma keeps_heapDelete (heap : HeapFile) (rid : RID) :
    Keeps Healthy (heapDelete (some heap) rid) := by
  refine .ite (.pure _) <| .bind (keeps_heapPageCount _) fun _ => .ite (.pure _) ?_
  refine .bind (keeps_pageRead _ _ _) fun _ => .ite (.pure _) <| .ite (.pure _) ?_
  exact .bind (keeps_pageWrite _ _ _) fun _ => .ite (.pure _) (.pure _)

/-! ### The pages of the file -/

section Pages

variable {f : File} {ps : List Page} {tail : List UInt8} {heap : HeapFile}

lemma heapPageCount_spec (h : Holds f ps tail) (hfd : 0 ≤ heap.fd) :
    Same f (heapPageCount (some heap) f).2 ∧
      ((heapPageCount (some heap) f).1 = ps.length % 2 ^ 32 ∨
        ((heapPageCount (some heap) f).1 = 0 ∧ ¬ Healthy f)) := by
  obtain ⟨hseek, hret⟩ := lseekEnd_spec f
  simp only [heapPageCount, run_bind, run_ite, if_neg (show ¬ heap.fd < 0 by omega)]
  generalize lseekEnd f = sought at hseek hret
  rcases hret with ⟨hret, -⟩ | ⟨hret, hbad⟩
  · have hcount : toUint32 (sought.1 / pageSize) = ps.length % 2 ^ 32 := by
      rw [hret, ← h.length_div, ← toUint32_natCast]
      rfl
    split
    · next hle =>
        have hzero : ps.length = 0 := by
          rw [← h.length_div, show f.bytes.length = 0 by omega]
          rfl
        rw [hzero]
        exact ⟨hseek, Or.inl rfl⟩
    · exact ⟨hseek, Or.inl hcount⟩
  · rw [if_pos (by omega)]
    exact ⟨hseek, Or.inr ⟨rfl, hbad⟩⟩

/-- The record that a RID finds in the pages. -/
def lookup (ps : List Page) (rid : RID) : Option (List UInt8) :=
  ps[rid.pageId]?.bind fun p => recordAt p rid.slotId

/-- What the loop of `heap_insert` does from the page `pageId` on. -/
lemma heapInsertLoop_spec {fd : ℤ} (hfd : 0 ≤ fd) (hwf : ∀ p ∈ ps, WellFormed p) (r : Area)
    (rid : RID) (remaining pageId : ℕ) (hend : pageId + remaining ≤ ps.length)
    (h : Holds f ps tail) :
    let out := heapInsertLoop fd r rid remaining pageId f
    (out.1 = none ∧ out.2.bytes = f.bytes ∧
        ∀ i p, pageId ≤ i → i < pageId + remaining → ps[i]? = some p → ¬ Accepts p r) ∨
      (∃ q p, q < pageId + remaining ∧ ps[q]? = some p ∧ Accepts p r ∧
        (∀ i p', pageId ≤ i → i < q → ps[i]? = some p' → ¬ Accepts p' r) ∧
        out.1 = some (0, ⟨q, insertSlot p⟩) ∧
        out.2.bytes = flat (ps.set q (inserted p r)) ++ tail) ∨
      (out.1 = some (-1, rid) ∧ out.2.bytes = f.bytes ∧ ¬ Healthy f) := by
  induction remaining generalizing pageId f with
  | zero =>
    exact Or.inl ⟨rfl, rfl, fun i _ hle hlt => absurd hlt (by omega)⟩
  | succ remaining ih =>
    obtain ⟨hread, hret⟩ := pageRead_spec h hfd pageId uninitialised
    simp only [heapInsertLoop, run_bind, run_ite]
    generalize pageRead fd pageId uninitialised f = got at hread hret
    rcases hret with ⟨hi, hret⟩ | ⟨hret, hbad⟩
    -- the page was read, and `page_insert` decides
    · have hpage : ps[pageId]? = some ps[pageId] := List.getElem?_eq_getElem hi
      have hp := hwf _ (List.getElem_mem hi)
      rw [hret, if_neg (by simp)]
      simp only [pageInsert_run_fst hp]
      by_cases hacc : Accepts ps[pageId] r
      · have hwrite := pageWrite_spec hfd pageId (inserted ps[pageId] r) got.2
        rw [if_pos hacc, if_neg (by omega), toUint16_insertSlot hacc]
        rw [hread.bytes, h.bytes, writeAt_flat ps tail _ hi, hread.healthy] at hwrite
        simp only [pageInsert_run_snd]
        rcases hwrite with ⟨hw, hbytes⟩ | ⟨hw, hbytes, hbad⟩
        · rw [if_neg (by omega)]
          exact Or.inr (Or.inl ⟨pageId, _, by omega, hpage, hacc,
            fun i p' hle hlt => absurd hlt (by omega), rfl, hbytes⟩)
        · rw [if_pos (by omega)]
          exact Or.inr (Or.inr ⟨rfl, hbytes.trans h.bytes.symm, hbad⟩)
      · rw [if_neg hacc, if_pos rfl]
        have hrest := ih (pageId + 1) (by omega) (h.same hread)
        rw [hread.bytes, hread.healthy] at hrest
        -- the loop goes on, with the file as it was
        have hhere : ∀ i p', pageId ≤ i → i < pageId + 1 → ps[i]? = some p' → ¬ Accepts p' r := by
          intro i p' hle hlt hp'
          obtain rfl : i = pageId := by omega
          rw [hpage] at hp'
          rwa [← Option.some.inj hp']
        rcases hrest with ⟨hnone, hbytes, hno⟩ | ⟨q, p, hlt, hq, hacc', hfirst, hsome, hbytes⟩ |
          hfail
        · refine Or.inl ⟨hnone, hbytes, fun i p' hle hlt hp' => ?_⟩
          rcases Nat.lt_or_ge i (pageId + 1) with hlt' | hge
          · exact hhere i p' hle hlt' hp'
          · exact hno i p' hge (by omega) hp'
        · refine Or.inr (Or.inl ⟨q, p, by omega, hq, hacc', fun i p' hle hlt hp' => ?_, hsome,
            hbytes⟩)
          rcases Nat.lt_or_ge i (pageId + 1) with hlt' | hge
          · exact hhere i p' hle hlt' hp'
          · exact hfirst i p' hge hlt hp'
        · exact Or.inr (Or.inr hfail)
    -- the page could not be read
    · rw [if_pos (by omega)]
      exact Or.inr (Or.inr ⟨rfl, hread.bytes, fun hf => absurd (hbad hf) (by omega)⟩)

/-- What `heap_insert` does with an admissible record: its value with what it leaves in
`*rid`, and the new content of the file. -/
inductive InsertOutcome (ps : List Page) (tail : List UInt8) (r : Area) (rid : RID)
    (healthy : Prop) : ℤ × Option RID → List UInt8 → Prop
  /-- The record goes to the first page that takes it. -/
  | stored {q : ℕ} {p : Page} (hq : ps[q]? = some p) (hacc : Accepts p r)
      (hfirst : ∀ i p', i < q → ps[i]? = some p' → ¬ Accepts p' r) :
      InsertOutcome ps tail r rid healthy (0, some ⟨q, insertSlot p⟩)
        (flat (ps.set q (inserted p r)) ++ tail)
  /-- The record goes to a new page. -/
  | grown (hr : r.length ≠ 0) (hfull : healthy → ∀ p ∈ ps, ¬ Accepts p r) :
      InsertOutcome ps tail r rid healthy (0, some ⟨ps.length, 0⟩)
        (flat (ps ++ [inserted emptyPage r]) ++ (tail ++ emptyPage.bytes).drop pageSize)
  /-- A new page was allocated in vain. -/
  | allocated (hwhy : healthy → r.length = 0) :
      InsertOutcome ps tail r rid healthy (-1, some rid) (flat ps ++ tail ++ emptyPage.bytes)
  /-- A call failed before the file was changed. -/
  | failed (hwhy : ¬ healthy) :
      InsertOutcome ps tail r rid healthy (-1, some rid) (flat ps ++ tail)

/-- The pages that `heap_insert` looks at: their number is cut to 32 bits. -/
def scanned (ps : List Page) : List Page := ps.take (ps.length % 2 ^ 32)

lemma scanned_of_lt (h : ps.length < 2 ^ 32) : scanned ps = ps := by
  rw [scanned, Nat.mod_eq_of_lt h, List.take_length]

lemma mem_scanned {p : Page} {q : ℕ} (hlt : q < ps.length % 2 ^ 32) (hq : ps[q]? = some p) :
    p ∈ scanned ps :=
  List.mem_of_getElem? ((List.getElem?_take_of_lt hlt).trans hq)

/-- What `heap_insert` does with an admissible record and a file of any size.  The id of a new
page is cut to 32 bits, and it must not be negative as an `int`. -/
inductive WideOutcome (ps : List Page) (tail : List UInt8) (r : Area) (rid : RID)
    (healthy : Prop) : ℤ × Option RID → List UInt8 → Prop
  /-- The record goes to the first page that takes it. -/
  | stored {q : ℕ} {p : Page} (hscan : q < ps.length % 2 ^ 32) (hq : ps[q]? = some p)
      (hacc : Accepts p r) (hfirst : ∀ i p', i < q → ps[i]? = some p' → ¬ Accepts p' r) :
      WideOutcome ps tail r rid healthy (0, some ⟨q, insertSlot p⟩)
        (flat (ps.set q (inserted p r)) ++ tail)
  /-- A page was allocated, and the record goes to the page of its id. -/
  | grown (hr : r.length ≠ 0) (hfull : healthy → ∀ p ∈ scanned ps, ¬ Accepts p r)
      (hid : ps.length % 2 ^ 32 < 2 ^ 31) :
      WideOutcome ps tail r rid healthy (0, some ⟨ps.length % 2 ^ 32, 0⟩)
        (writeAt (flat ps ++ tail ++ emptyPage.bytes) (ps.length % 2 ^ 32 * pageSize)
          (inserted emptyPage r).bytes)
  /-- A new page was allocated in vain. -/
  | allocated (hwhy : healthy →
        (∀ p ∈ scanned ps, ¬ Accepts p r) ∧ (r.length = 0 ∨ 2 ^ 31 ≤ ps.length % 2 ^ 32)) :
      WideOutcome ps tail r rid healthy (-1, some rid) (flat ps ++ tail ++ emptyPage.bytes)
  /-- A call failed before the file was changed. -/
  | failed (hwhy : ¬ healthy) :
      WideOutcome ps tail r rid healthy (-1, some rid) (flat ps ++ tail)

/-- In a file without a tail the page of the id is one of the pages, or the new one. -/
lemma writeAt_grown (ps : List Page) (r : Area) :
    writeAt (flat ps ++ [] ++ emptyPage.bytes) (ps.length % 2 ^ 32 * pageSize)
        (inserted emptyPage r).bytes =
      flat ((ps ++ [emptyPage]).set (ps.length % 2 ^ 32) (inserted emptyPage r)) ++ [] := by
  have hlt : ps.length % 2 ^ 32 < (ps ++ [emptyPage]).length := by
    have hmod := Nat.mod_le ps.length (2 ^ 32)
    rw [List.length_append, List.length_singleton]
    omega
  rw [← writeAt_flat _ _ _ hlt]
  simp

lemma toInt_nonneg_iff {n : ℕ} (h : n < 2 ^ 32) : 0 ≤ toInt n ↔ n < 2 ^ 31 := by
  rw [toInt]
  split <;> omega

/-- The part of `heap_insert` behind the loop. -/
lemma heapInsert_grow {r : Area} (rid : RID) {healthy : Prop} (hfd : 0 ≤ heap.fd)
    (hmax : r.length ≤ 4086) (h : Holds f ps tail) (hhealthy : healthy → Healthy f)
    (hfull : healthy → ∀ p ∈ scanned ps, ¬ Accepts p r) :
    let out := (do
      let newPageId ← pageAllocate heap.fd
      if newPageId < 0 then return (-1, some rid)
      let (_, page) := pageInit.run uninitialised
      let (slotId, page) := (pageInsert (some r)).run page
      if slotId = -1 then return (-1, some rid)
      if (← pageWrite heap.fd (toUint32 newPageId) page) ≠ 0 then return (-1, some rid)
      return (0, some ⟨toUint32 newPageId, toUint16 slotId⟩) : FileM (ℤ × Option RID)) f
    WideOutcome ps tail r rid healthy out.1 out.2.bytes := by
  have halloc := pageAllocate_spec h hfd
  have hkeeps := keeps_pageAllocate heap.fd f
  have hmod : ps.length % 2 ^ 32 < 2 ^ 32 := Nat.mod_lt _ (by decide)
  simp only [run_bind, run_ite]
  generalize pageAllocate heap.fd f = alloc at hkeeps halloc
  rcases halloc with ⟨hid, hbytes⟩ | ⟨hid, hbytes, hbad⟩
  · rw [h.bytes] at hbytes
    by_cases hwide : 2 ^ 31 ≤ ps.length % 2 ^ 32
    -- the id is taken for an error
    · have hneg := (toInt_nonneg_iff hmod).not.mpr (by omega)
      rw [if_pos (by omega)]
      simp only [run_pure, hbytes]
      exact .allocated fun hh => ⟨hfull hh, .inr hwide⟩
    have hid' : toUint32 alloc.1 = ps.length % 2 ^ 32 := by
      rw [hid, toInt_of_lt (by omega), toUint32_natCast, Nat.mod_mod]
    have hinit : (pageInit.run uninitialised).2 = emptyPage := pageInit_run _
    rw [if_neg (by rw [hid, toInt_of_lt (by omega)]; omega), hid', hinit,
      pageInsert_run_fst wellFormed_emptyPage]
    by_cases hr : r.length = 0
    · rw [if_neg (fun hacc : Accepts emptyPage r => hacc.1 hr), if_pos rfl]
      simp only [run_pure, hbytes]
      exact .allocated fun hh => ⟨hfull hh, .inl hr⟩
    -- a new page takes every admissible record
    · have hacc := accepts_emptyPage hr hmax
      have hwrite := pageWrite_spec hfd (ps.length % 2 ^ 32) (inserted emptyPage r) alloc.2
      rw [if_pos hacc, if_neg (by omega), toUint16_insertSlot hacc, insertSlot_emptyPage]
      rw [hbytes] at hwrite
      simp only [pageInsert_run_snd]
      rcases hwrite with ⟨hw, hbytes'⟩ | ⟨hw, hbytes', hbad⟩
      · rw [if_neg (by omega)]
        simp only [run_pure, hbytes']
        exact .grown hr hfull (by omega)
      · rw [if_pos (by omega)]
        simp only [run_pure, hbytes']
        exact .allocated fun hh => absurd (hkeeps (hhealthy hh)) hbad
  · rw [if_pos (by omega)]
    simp only [run_pure, hbytes, h.bytes]
    exact .failed fun hh => hbad (hhealthy hh)

/-- **What `heap_insert` does** with a record of admissible length, whatever calls fail and
whatever the size of the file. -/
theorem heapInsert_wide (hfd : 0 ≤ heap.fd) (hwf : ∀ p ∈ ps, WellFormed p) {r : Area}
    (hmax : r.length ≤ 4086) (rid : RID) (h : Holds f ps tail) :
    let out := heapInsert (some heap) (some r) (some rid) f
    WideOutcome ps tail r rid (Healthy f) out.1 out.2.bytes := by
  obtain ⟨hsame, hcount⟩ := heapPageCount_spec h hfd
  simp only [heapInsert, run_bind, run_ite]
  rw [if_neg (by simp only [pageSize, sizeofPageHeader, sizeofSlot]; omega)]
  generalize heapPageCount (some heap) f = counted at hsame hcount
  have hle : counted.1 ≤ ps.length % 2 ^ 32 := by
    rcases hcount with hcount | ⟨hcount, -⟩ <;> omega
  have hmod := Nat.mod_le ps.length (2 ^ 32)
  have hloop := heapInsertLoop_spec hfd hwf r rid counted.1 0 (by omega) (h.same hsame)
  have hkeeps := keeps_heapInsertLoop heap.fd r rid counted.1 0 counted.2
  rw [hsame.healthy] at hkeeps
  rw [hsame.bytes, hsame.healthy] at hloop
  generalize heapInsertLoop heap.fd r rid counted.1 0 counted.2 = looped at hkeeps hloop
  rcases hloop with ⟨hnone, hbytes, hno⟩ | ⟨q, p, hlt, hq, hacc, hfirst, hsome, hbytes⟩ |
    ⟨hsome, hbytes, hbad⟩
  · have hfull : Healthy f → ∀ p ∈ scanned ps, ¬ Accepts p r := by
      intro hf p hp
      obtain ⟨i, hi, rfl⟩ := List.getElem_of_mem hp
      have hi' := hi
      rw [scanned, List.length_take] at hi'
      -- the loop has gone over all of them, as the count did not fail
      have hall : counted.1 = ps.length % 2 ^ 32 :=
        hcount.resolve_right fun hbad => hbad.2 hf
      refine hno i _ (Nat.zero_le i) (by omega) ?_
      rw [List.getElem?_eq_getElem (show i < ps.length by omega)]
      exact congrArg some List.getElem_take.symm
    have hgrow := heapInsert_grow rid hfd hmax ⟨hbytes.trans h.bytes, h.tail_lt⟩ hkeeps hfull
    simp only [hnone]
    exact hgrow
  · simp only [hsome, run_pure, hbytes]
    exact .stored (by omega) hq hacc fun i p' hlt => hfirst i p' (Nat.zero_le i) hlt
  · simp only [hsome, run_pure, hbytes, h.bytes]
    exact .failed hbad

/-- What `heap_insert` does as long as all conversions are exact. -/
theorem heapInsert_spec (hfd : 0 ≤ heap.fd) (hwf : ∀ p ∈ ps, WellFormed p)
    (hlen : ps.length < 2 ^ 31) {r : Area} (hmax : r.length ≤ 4086) (rid : RID)
    (h : Holds f ps tail) :
    let out := heapInsert (some heap) (some r) (some rid) f
    InsertOutcome ps tail r rid (Healthy f) out.1 out.2.bytes := by
  have hout := heapInsert_wide hfd hwf hmax rid h
  have hmod : ps.length % 2 ^ 32 = ps.length := Nat.mod_eq_of_lt (by omega)
  generalize heapInsert (some heap) (some r) (some rid) f = out at hout ⊢
  obtain ⟨ret, f'⟩ := out
  obtain ⟨bytes, pos, fails, calls⟩ := f'
  dsimp only at hout ⊢
  cases hout with
  | stored _ hq hacc hfirst => exact .stored hq hacc hfirst
  | grown hr hfull =>
    rw [scanned_of_lt (by omega)] at hfull
    rw [hmod, List.append_assoc, writeAt_flat_end]
    exact .grown hr hfull
  | allocated hwhy => exact .allocated fun hh => (hwhy hh).2.resolve_right (by omega)
  | failed hwhy => exact .failed hwhy

lemma lookup_of_page {p : Page} {rid : RID} (h : ps[rid.pageId]? = some p) :
    lookup ps rid = recordAt p rid.slotId := by
  rw [lookup, h]
  rfl

lemma lookup_of_ge {rid : RID} (h : ps.length ≤ rid.pageId) : lookup ps rid = none := by
  rw [lookup, List.getElem?_eq_none h]
  rfl

/-- The page of a RID, as `heap_get` and `heap_delete` read it: they return `-1` at once if
the page is not there or a call fails. -/
lemma readPage_spec (h : Holds f ps tail) (hfd : 0 ≤ heap.fd) (rid : RID) :
    let counted := heapPageCount (some heap) f
    let got := pageRead heap.fd rid.pageId uninitialised counted.2
    Same f counted.2 ∧ Same f got.2 ∧
      ((rid.pageId < counted.1 ∧ ∃ hi : rid.pageId < ps.length, got.1 = (0, ps[rid.pageId])) ∨
        ((counted.1 ≤ rid.pageId ∨ got.1.1 = -1) ∧
          (Healthy f → ps.length < 2 ^ 32 → ps.length ≤ rid.pageId))) := by
  obtain ⟨hsame, hcount⟩ := heapPageCount_spec h hfd
  dsimp only
  generalize heapPageCount (some heap) f = counted at hsame hcount
  obtain ⟨hread, hret⟩ := pageRead_spec (h.same hsame) hfd rid.pageId uninitialised
  refine ⟨hsame, hsame.trans hread, ?_⟩
  by_cases hlt : rid.pageId < counted.1
  · rcases hret with ⟨hi, hret⟩ | ⟨hret, hbad⟩
    · exact Or.inl ⟨hlt, hi, hret⟩
    · exact Or.inr ⟨Or.inr hret, fun hf _ => hbad (hsame.healthy.mpr hf)⟩
  · refine Or.inr ⟨Or.inl (by omega), fun hf hlen => ?_⟩
    rcases hcount with hcount | ⟨-, hbad⟩
    · rw [Nat.mod_eq_of_lt hlen] at hcount
      omega
    · exact absurd hf hbad

/-- **What `heap_get` does**: it copies the record of the RID to a buffer that can hold it. -/
theorem heapGet_spec (hfd : 0 ≤ heap.fd) (hwf : ∀ p ∈ ps, WellFormed p)
    (rid : RID) (buffer : Area) (h : Holds f ps tail) :
    let out := heapGet (some heap) rid (some buffer) f
    Same f out.2 ∧
      ((∃ rec, lookup ps rid = some rec ∧ rec.length ≤ buffer.length ∧
          out.1 = ((rec.length : ℤ), some (buffer.fill rec))) ∨
        (out.1 = (-1, some buffer) ∧
          (Healthy f → ps.length < 2 ^ 32 →
            ∀ rec, lookup ps rid = some rec → buffer.length < rec.length))) := by
  obtain ⟨hsame, hread, hpage⟩ := readPage_spec h hfd rid
  simp only [heapGet, run_bind, run_ite]
  split
  · next hzero =>
      refine ⟨.rfl, Or.inr ⟨rfl, fun _ _ rec hrec => ?_⟩⟩
      -- a record is never empty
      rw [hzero, List.length_pos_iff]
      rintro rfl
      obtain ⟨p, hp, hrec⟩ := Option.bind_eq_some_iff.mp hrec
      have hlen := (hwf p (List.mem_of_getElem? hp)).recordLen_eq rid.slotId
      rw [hrec, Option.map_some, List.length_nil] at hlen
      exact (recordLen_eq_some.mp hlen).2.2 rfl
  · next hzero =>
      rcases hpage with ⟨hlt, hi, hgot⟩ | ⟨hno, hbad⟩
      -- the page was read, and `page_get` decides
      · have hp := hwf _ (List.getElem_mem hi)
        have hlookup := lookup_of_page (List.getElem?_eq_getElem hi)
        rw [if_neg (by omega), if_neg (by rw [hgot]; simp), hlookup]
        rw [hgot]
        rcases pageGet_spec hp rid.slotId buffer ⟨ps[rid.pageId], []⟩ rfl with
          ⟨rec, hrec, hle, hret⟩ | ⟨hno, hret⟩
        · rw [PageM.run, hret]
          dsimp only
          rw [if_neg (by omega)]
          exact ⟨hread, Or.inl ⟨rec, hrec, hle, rfl⟩⟩
        · rw [PageM.run, hret]
          dsimp only
          rw [if_pos (by omega)]
          refine ⟨hread, Or.inr ⟨rfl, fun _ _ rec hrec => hno _ ?_⟩⟩
          rw [hp.recordLen_eq, hrec]
          rfl
      · have hnone : Healthy f → ps.length < 2 ^ 32 →
            ∀ rec, lookup ps rid = some rec → buffer.length < rec.length := by
          intro hf hlen rec hrec
          rw [lookup_of_ge (hbad hf hlen)] at hrec
          exact absurd hrec (by simp)
        split
        · exact ⟨hsame, Or.inr ⟨rfl, hnone⟩⟩
        · rw [if_pos (by omega)]
          exact ⟨hread, Or.inr ⟨rfl, hnone⟩⟩

lemma heapGet_null (heap : Option HeapFile) (rid : RID) (f : File) :
    heapGet heap rid none f = ((-1, none), f) := by
  cases heap <;> rfl

/-- **What `heap_delete` does**: it deletes the slot of the RID, if it is live. -/
theorem heapDelete_spec (hfd : 0 ≤ heap.fd) (hwf : ∀ p ∈ ps, WellFormed p) (rid : RID)
    (h : Holds f ps tail) :
    let out := heapDelete (some heap) rid f
    (∃ p, ps[rid.pageId]? = some p ∧ (rid.slotId < slotCount p ∧ slotLen p rid.slotId ≠ 0) ∧
        out.1 = 0 ∧ out.2.bytes = flat (ps.set rid.pageId (deleted p rid.slotId)) ++ tail) ∨
      (out.1 = -1 ∧ out.2.bytes = f.bytes ∧
        (Healthy f → ps.length < 2 ^ 32 → lookup ps rid = none)) := by
  obtain ⟨hsame, hread, hpage⟩ := readPage_spec h hfd rid
  simp only [heapDelete, run_bind, run_ite, if_neg (show ¬ heap.fd < 0 by omega)]
  rcases hpage with ⟨hlt, hi, hgot⟩ | ⟨hno, hbad⟩
  · have hp := hwf _ (List.getElem_mem hi)
    have hpage := List.getElem?_eq_getElem hi
    rw [if_neg (by omega), if_neg (by rw [hgot]; simp), hgot]
    simp only [run_fst, run_snd]
    rcases pageDelete_spec hp rid.slotId ⟨ps[rid.pageId], []⟩ rfl with
      ⟨hslot, hlive, hret, hdel⟩ | ⟨hdead, hret, -⟩
    · have hwrite := pageWrite_spec hfd rid.pageId (deleted ps[rid.pageId] rid.slotId)
        (pageRead heap.fd rid.pageId uninitialised (heapPageCount (some heap) f).2).2
      rw [hread.bytes, h.bytes, writeAt_flat ps tail _ hi, hread.healthy] at hwrite
      rw [if_neg (by omega), hdel]
      rcases hwrite with ⟨hw, hbytes⟩ | ⟨hw, hbytes, hbad⟩
      · rw [deleted] at hw hbytes
        rw [if_neg (by omega)]
        exact Or.inl ⟨_, hpage, ⟨hslot, hlive⟩, rfl, hbytes⟩
      · rw [deleted] at hw hbytes
        rw [if_pos (by omega)]
        exact Or.inr ⟨rfl, hbytes.trans h.bytes.symm, fun hf => absurd hf hbad⟩
    · rw [if_pos (by omega)]
      refine Or.inr ⟨rfl, hread.bytes, fun _ _ => ?_⟩
      rw [lookup_of_page hpage, recordAt_eq_none]
      exact hdead
  · have hnone : Healthy f → ps.length < 2 ^ 32 → lookup ps rid = none := fun hf hlen =>
      lookup_of_ge (hbad hf hlen)
    split
    · exact Or.inr ⟨rfl, hsame.bytes, hnone⟩
    · rw [if_pos (by omega)]
      exact Or.inr ⟨rfl, hread.bytes, hnone⟩

end Pages

end MiniDb

end CsLab
