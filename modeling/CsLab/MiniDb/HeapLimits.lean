/-
The heap file at its limits.

`heap_insert` checks only that a record is not too long.  An empty record is refused by every
page, and last by the page that was allocated for it, so it leaves an empty page behind
(`rejected_unchanged_iff`).  And the number of pages is cut to 32 bits, and the id of a new page
to an `int`: from 2^31 pages on the two need not be what they stand for
(`heap_insert_exact_iff`).
-/
import CsLab.MiniDb.HeapFaults

namespace CsLab

namespace MiniDb

open PageM File Blocks Prog

/-! ### Refused calls -/

/-- The state in which no further call on the file fails. -/
def HeapState.healed (s : HeapState) : HeapState :=
  { s with file := { s.file with fails := fun _ => false } }

/-- The state after a sequence of calls. -/
def heapAfter (s : HeapState) (cs : List HeapCall) : HeapState :=
  cs.foldl (fun s c => (c.exec s).2) s

section Refused

variable {s : HeapState} {ps : List Page}

/-- However long a run is, and whatever fails in it, the file consists of well-formed pages. -/
lemma stores_heapAfter (h : Stores s ps []) (cs : List HeapCall) :
    ∃ ps', Stores (heapAfter s cs) ps' [] := by
  induction cs generalizing s ps with
  | nil => exact ⟨ps, h⟩
  | cons c cs ih =>
    obtain ⟨ps', hstores, -⟩ := exec_atomic h c
    exact ih hstores

lemma Stores.healed (h : Stores s ps []) : Stores s.healed ps [] :=
  ⟨h.fd_nonneg, ⟨h.holds.bytes, h.holds.tail_lt⟩, h.wellFormed⟩

/-- A refused insert leaves the file and `*rid`. -/
def InsertRefused (s : HeapState) (record : Option Area) (rid : Option RID) : Prop :=
  let out := heapInsert (some s.heap) record rid s.file
  out.1.1 = -1 → out.2.bytes = s.file.bytes ∧ out.1.2 = rid

/-- A refused delete leaves the file. -/
def DeleteRefused (s : HeapState) (rid : RID) : Prop :=
  let out := heapDelete (some s.heap) rid s.file
  out.1 = -1 → out.2.bytes = s.file.bytes

lemma length_append_emptyPage (l : List UInt8) : l ++ emptyPage.bytes ≠ l := by
  intro h
  have hlen := congrArg List.length h
  rw [List.length_append, emptyPage.length_bytes] at hlen
  simp only [pageSize] at hlen
  omega

lemma insertRefused_iff (h : Stores s ps []) (hhealthy : Healthy s.file) (record : Option Area)
    (rid : Option RID) :
    InsertRefused s record rid ↔
      ∀ r, record = some r → rid ≠ none → r.length ≤ 4086 →
        r.length ≠ 0 ∧ (ps.length % 2 ^ 32 < 2 ^ 31 ∨ ∃ p ∈ scanned ps, Accepts p r) := by
  by_cases hrefuse : ∀ r, record = some r → rid ≠ none → 4086 < r.length
  · have hout := heapInsert_refuse (some s.heap) hrefuse s.file
    simp only [InsertRefused, hout]
    refine ⟨fun _ r hr hrid hmax => ?_, fun _ _ => ⟨trivial, trivial⟩⟩
    exact absurd (hrefuse r hr hrid) (by omega)
  · push Not at hrefuse
    obtain ⟨r, rfl, hrid, hmax⟩ := hrefuse
    obtain ⟨rid, rfl⟩ := Option.ne_none_iff_exists'.mp hrid
    have hout := heapInsert_wide h.fd_nonneg h.wellFormed hmax rid h.holds
    have hbytes := h.holds.bytes
    simp only [InsertRefused, hbytes]
    generalize heapInsert (some s.heap) (some r) (some rid) s.file = out at hout
    obtain ⟨ret, f'⟩ := out
    obtain ⟨bytes, pos, fails, calls⟩ := f'
    dsimp only at hout ⊢
    cases hout with
    | stored hscan hq hacc hfirst =>
      refine ⟨fun _ r' hr' _ _ => ?_, fun _ hret => absurd hret (show (0 : ℤ) ≠ -1 by decide)⟩
      obtain rfl := Option.some.inj hr'
      exact ⟨hacc.1, .inr ⟨_, mem_scanned hscan hq, hacc⟩⟩
    | grown hr hfull hid =>
      refine ⟨fun _ r' hr' _ _ => ?_, fun _ hret => absurd hret (show (0 : ℤ) ≠ -1 by decide)⟩
      obtain rfl := Option.some.inj hr'
      exact ⟨hr, .inl hid⟩
    | allocated hwhy =>
      obtain ⟨hfull, hcause⟩ := hwhy hhealthy
      constructor
      · intro hsame
        exact absurd (hsame rfl).1 (length_append_emptyPage _)
      · intro hcond
        obtain ⟨hr, hid | ⟨p, hp, hacc⟩⟩ := hcond r rfl (by simp) hmax
        · omega
        · exact absurd hacc (hfull p hp)
    | failed hbad => exact absurd hhealthy hbad

lemma deleteRefused (h : Stores s ps []) (rid : RID) : DeleteRefused s rid := by
  obtain ⟨p, -, -, hret, -⟩ | ⟨-, hbytes, -⟩ :=
    heapDelete_spec h.fd_nonneg h.wellFormed rid h.holds
  · intro hfail
    rw [hret] at hfail
    exact absurd hfail (by decide)
  · exact fun _ => hbytes

/-- **When a refused call has no effect.**  After any calls from an empty file, whatever failed
so far, let no call on the file fail any more.  A delete that is refused changes nothing.  An
insert with a record, a RID and an admissible length changes nothing when it is refused, if and
only if the record is not empty, and one of the pages that are looked at takes it or a new page
gets an id that fits in an `int`. -/
theorem rejected_unchanged_iff (fd : ℕ) (fails : ℕ → Bool) (cs : List HeapCall) :
    let s := (heapAfter (faultyHeap fd fails) cs).healed
    let ps := blocks pageSize s.file.bytes
    (∀ record rid, InsertRefused s record rid ↔
      ∀ r, record = some r → rid ≠ none → r.length ≤ 4086 →
        r.length ≠ 0 ∧ (ps.length % 2 ^ 32 < 2 ^ 31 ∨ ∃ p ∈ scanned ps, Accepts p r)) ∧
      ∀ rid, DeleteRefused s rid := by
  obtain ⟨ps, hstores⟩ := stores_heapAfter (stores_faultyHeap fd fails) cs
  have hstores' := hstores.healed
  dsimp only
  rw [hstores'.holds.blocks_eq]
  exact ⟨insertRefused_iff hstores' fun _ => rfl, deleteRefused hstores'⟩

/-- **A refused insert can leave a page behind**: of an empty record, into an empty file. -/
theorem rejected_empty_record :
    ¬ ∀ (fd : ℕ) (fails : ℕ → Bool) (cs : List HeapCall) (record : Option Area)
      (rid : Option RID), InsertRefused (heapAfter (faultyHeap fd fails) cs).healed record rid := by
  intro h
  have hstores := (stores_faultyHeap 3 fun _ => false).healed
  have hempty := (insertRefused_iff hstores (fun _ => rfl) _ _).mp
    (h 3 (fun _ => false) [] (some (record 0 0 (by decide))) (some ⟨0, 0⟩))
  exact (hempty _ rfl (by simp) (by decide)).1 rfl

end Refused

/-! ### Page ids -/

/-- The page at the place that belongs to an id. -/
def PageAt (bytes : List UInt8) (pageId : ℕ) (p : Page) : Prop :=
  readAt bytes (pageId * pageSize) pageSize = p.bytes

/-- The call refuses the record and leaves the file, or it stores the record in the page of the
RID that it returns; if that page was there before, it had room for the record, and no other
page is changed.  The number of pages, and the id of a new page, are what the code computes. -/
def InsertExact (heap : HeapFile) (r : Area) (rid : RID) (ps : List Page) (f : File) : Prop :=
  let out := heapInsert (some heap) (some r) (some rid) f
  (out.1.1 = -1 ∧ out.2.bytes = f.bytes) ∨
    ∃ stored : RID, out.1 = (0, some stored) ∧
      (∃ p, PageAt out.2.bytes stored.pageId p ∧ recordAt p stored.slotId = some r.bytes) ∧
      (∀ i p, ps[i]? = some p →
        if i = stored.pageId then Accepts p r else PageAt out.2.bytes i p) ∧
      toUint32 ps.length = ps.length ∧
      (ps.length = stored.pageId →
        toInt (toUint32 ps.length) = ps.length ∧
          toUint32 (toInt (toUint32 ps.length)) = ps.length)

section Exact

variable {heap : HeapFile} {f : File} {ps : List Page}

lemma pageAt_flat {qs : List Page} {i : ℕ} {p : Page} (h : qs[i]? = some p) :
    PageAt (flat qs ++ []) i p := by
  obtain ⟨hi, rfl⟩ := List.getElem?_eq_some_iff.mp h
  exact readAt_flat qs [] hi

/-- The record is in the slot that `page_insert` took. -/
lemma recordAt_inserted {p : Page} {r : Area} (hp : WellFormed p) (hacc : Accepts p r) :
    recordAt (inserted p r) (insertSlot p) = some r.bytes := by
  obtain ⟨q, hq, hplaced⟩ := hacc.placed hp
  have hgap := (hq.gap_iff_fits hp).mpr hacc.2
  rw [hplaced.recordAt_eq (hq.wellFormed hp) hacc.1 hgap, hq.insertSlot_eq, if_pos rfl]

/-- The pages of a file after the record was put into the page `q`. -/
lemma pageAt_set {qs : List Page} {q : ℕ} {p : Page} {r : Area} (hq : qs[q]? = some p)
    (hp : WellFormed p) (hacc : Accepts p r) :
    (∃ p', PageAt (flat (qs.set q (inserted p r)) ++ []) q p' ∧
      recordAt p' (insertSlot p) = some r.bytes) ∧
    ∀ i p', i ≠ q → qs[i]? = some p' → PageAt (flat (qs.set q (inserted p r)) ++ []) i p' := by
  have hlt := (List.getElem?_eq_some_iff.mp hq).1
  constructor
  · exact ⟨_, pageAt_flat (List.getElem?_set_self hlt), recordAt_inserted hp hacc⟩
  · intro i p' hne hp'
    exact pageAt_flat ((List.getElem?_set_ne hne.symm).trans hp')

lemma insertExact_iff (hfd : 0 ≤ heap.fd) (hf : f.bytes = flat ps) (hwf : ∀ p ∈ ps, WellFormed p)
    (hhealthy : Healthy f) {r : Area} (hr : r.length ≠ 0) (hmax : r.length ≤ 4086) (rid : RID) :
    InsertExact heap r rid ps f ↔
      ps.length < 2 ^ 31 ∨ (ps.length < 2 ^ 32 ∧ ∃ p ∈ ps, Accepts p r) := by
  have hholds : Holds f ps [] := ⟨by rw [hf, List.append_nil], by simp⟩
  have hout := heapInsert_wide hfd hwf hmax rid hholds
  have huint : toUint32 ps.length = ps.length ↔ ps.length < 2 ^ 32 := by
    rw [toUint32_natCast]
    omega
  simp only [InsertExact, hholds.bytes, huint]
  generalize heapInsert (some heap) (some r) (some rid) f = out at hout
  obtain ⟨ret, f'⟩ := out
  obtain ⟨bytes, pos, fails, calls⟩ := f'
  dsimp only at hout ⊢
  cases hout with
  | @stored q p hscan hq hacc hfirst =>
    obtain ⟨hstored, hkept⟩ := pageAt_set hq (hwf p (List.mem_of_getElem? hq)) hacc
    have hlt := (List.getElem?_eq_some_iff.mp hq).1
    constructor
    · rintro (⟨hret, -⟩ | ⟨-, -, -, -, hcount, -⟩)
      · exact absurd hret (show (0 : ℤ) ≠ -1 by decide)
      · exact .inr ⟨hcount, p, List.mem_of_getElem? hq, hacc⟩
    · intro hcond
      refine .inr ⟨⟨q, insertSlot p⟩, rfl, hstored, fun i p' hp' => ?_, by omega,
        fun heq => absurd heq (Nat.ne_of_gt hlt)⟩
      split
      · next heq =>
        have hiq : i = q := heq
        rw [hiq, hq] at hp'
        exact Option.some.inj hp' ▸ hacc
      · next hne => exact hkept i p' hne hp'
  | grown _ hfull hid =>
    rw [writeAt_grown]
    have hnew : (ps ++ [emptyPage])[ps.length]? = some emptyPage := by simp
    obtain ⟨hstored, hkept⟩ := pageAt_set hnew wellFormed_emptyPage (accepts_emptyPage hr hmax)
    rw [insertSlot_emptyPage] at hstored
    constructor
    · rintro (⟨hret, -⟩ | ⟨-, -, -, -, hcount, -⟩)
      · exact absurd hret (show (0 : ℤ) ≠ -1 by decide)
      · exact .inl (by omega)
    · intro hcond
      have hmod : ps.length % 2 ^ 32 = ps.length := Nat.mod_eq_of_lt (by omega)
      rw [hmod] at hid ⊢
      refine .inr ⟨⟨ps.length, 0⟩, rfl, hstored, fun i p hp => ?_, by omega, fun _ => ?_⟩
      · have hlt := (List.getElem?_eq_some_iff.mp hp).1
        rw [if_neg (Nat.ne_of_lt hlt)]
        exact hkept i p (Nat.ne_of_lt hlt) ((List.getElem?_append_left hlt).trans hp)
      · have huint' := huint.mpr (by omega)
        rw [huint', toInt_of_lt hid]
        exact ⟨rfl, huint'⟩
  | allocated hwhy =>
    obtain ⟨hfull, hcause⟩ := hwhy hhealthy
    constructor
    · rintro (⟨-, hsame⟩ | ⟨stored, hret, -⟩)
      · exact absurd hsame (length_append_emptyPage _)
      · exact absurd (congrArg Prod.fst hret) (show (-1 : ℤ) ≠ 0 by decide)
    · rintro (hlt | ⟨hlt, p, hp, hacc⟩)
      · omega
      · rw [scanned_of_lt hlt] at hfull
        exact absurd hacc (hfull p hp)
  | failed hbad => exact absurd hhealthy hbad

/-- **When page ids are exact.**  On a file of reachable pages, while no call on it fails,
`heap_insert` of an admissible record is exact if and only if the file has fewer than 2^31
pages, or fewer than 2^32 of which one takes the record. -/
theorem heap_insert_exact_iff (hfd : 0 ≤ heap.fd) (hf : f.bytes = flat ps)
    (hps : ∀ p ∈ ps, Reachable p) (hhealthy : Healthy f) {r : Area} (hr : r.length ≠ 0)
    (hmax : r.length ≤ 4086) (rid : RID) :
    InsertExact heap r rid ps f ↔
      ps.length < 2 ^ 31 ∨ (ps.length < 2 ^ 32 ∧ ∃ p ∈ ps, Accepts p r) :=
  insertExact_iff hfd hf (fun p hp => (hps p hp).wellFormed) hhealthy hr hmax rid

theorem heap_insert_exact_iff_one :
    InsertExact ⟨3⟩ (record 10 1 (by decide)) ⟨0, 0⟩ [emptyPage]
        (File.start (flat [emptyPage]) fun _ => false) ↔
      [emptyPage].length < 2 ^ 31 ∨
        ([emptyPage].length < 2 ^ 32 ∧ ∃ p ∈ [emptyPage], Accepts p (record 10 1 (by decide))) :=
  heap_insert_exact_iff (by decide) rfl
    (fun p hp => ⟨[], List.mem_singleton.mp hp⟩) (fun _ => rfl) (by decide) (by decide) ⟨0, 0⟩

/-- A page that is full with one record. -/
def fullPage : Page := pageAfter emptyPage [.insert (some (record 4086 1 (by decide)))]

lemma reachable_fullPage : Reachable fullPage := ⟨_, rfl⟩

set_option maxRecDepth 10000 in
lemma not_accepts_fullPage : ¬ Accepts fullPage (record 1 1 (by decide)) := by
  decide +kernel

/-- **Page ids are not always exact**: with 2^31 full pages, the id of the next page is negative as
an `int`. -/
theorem heap_insert_full_file : ¬ ∀ (heap : HeapFile) (f : File) (ps : List Page) (r : Area)
    (rid : RID), 0 ≤ heap.fd → f.bytes = flat ps → (ps.length + 1) * pageSize < 2 ^ 63 →
      (∀ p ∈ ps, Reachable p) → Healthy f → r.length ≠ 0 → r.length ≤ 4086 →
      InsertExact heap r rid ps f := by
  intro h
  obtain ⟨ps, hlen, hfull⟩ : ∃ ps : List Page, ps.length = 2 ^ 31 ∧ ∀ p ∈ ps, p = fullPage :=
    ⟨List.replicate (2 ^ 31) fullPage, List.length_replicate, fun _ => List.eq_of_mem_replicate⟩
  have hreach : ∀ p ∈ ps, Reachable p := fun p hp => hfull p hp ▸ reachable_fullPage
  have hexact := h ⟨3⟩ (File.start (flat ps) fun _ => false) ps (record 1 1 (by decide)) ⟨0, 0⟩
    (by decide) rfl (by rw [hlen]; decide) hreach (fun _ => rfl) (by decide) (by decide)
  rw [insertExact_iff (by decide) rfl (fun p hp => (hreach p hp).wellFormed) (fun _ => rfl)
    (by decide) (by decide), hlen] at hexact
  rcases hexact with hlt | ⟨-, p, hp, hacc⟩
  · exact absurd hlt (Nat.lt_irrefl _)
  · exact not_accepts_fullPage (hfull p hp ▸ hacc)

end Exact

end MiniDb

end CsLab
