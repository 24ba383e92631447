/-
The disk manager (`mini-db/02-disk-manager/disk_manager.c`).

The disk manager reads and writes the pages of a file by their numbers, with `pread` and
`pwrite`.  A page may be written behind the end of the file, which leaves a hole, and the
file may end in the middle of a page.  Nevertheless it is a map from page numbers to pages:
`PageMap` is the map, and `page_map` says that the file agrees with it in every run.
-/
import CsLab.Lib.Run
import CsLab.MiniDb.PageFile

namespace CsLab

namespace MiniDb

namespace DiskManager

open File Blocks Prog

/-- `page_write`, on the file of its descriptor -/
def pageWrite (pageId : ℤ) (buffer : Page) : FileM ℤ := do
  let offset := pageId * pageSize
  let written ← pwrite buffer.bytes offset
  if written ≠ pageSize then return -1
  return 0

/-- `page_read`, with the buffer that it leaves -/
def pageRead (pageId : ℤ) (buffer : Page) : FileM (ℤ × Page) := do
  let offset := pageId * pageSize
  let (bytes, data) ← pread pageSize offset
  let buffer := buffer.blit 0 data
  if bytes ≠ pageSize then return (-1, buffer)
  return (0, buffer)

/-- `page_allocate` -/
def pageAllocate : FileM ℤ := do
  let fileSize ← lseekEnd
  if fileSize < 0 then return -1
  let pageId := toInt (toUint32 (fileSize / pageSize))
  let emptyPage : Page := Buffer.zero pageSize
  let offset := pageId * pageSize
  let written ← pwrite emptyPage.bytes offset
  if written ≠ pageSize then return -1
  return pageId

/-! ### What they do on a healthy file -/

lemma offset_nonneg (q : ℕ) : (0 : ℤ) ≤ q * (pageSize : ℕ) := by
  simp only [pageSize]
  omega

lemma toNat_offset (q : ℕ) : ((q : ℤ) * (pageSize : ℕ)).toNat = q * pageSize := by
  simp only [pageSize]
  omega

section Healthy

variable {f : File} (h : Healthy f)

include h

lemma pageWrite_spec (q : ℕ) (buffer : Page) :
    (pageWrite q buffer f).1 = 0 ∧ Healthy (pageWrite q buffer f).2 ∧
      (pageWrite q buffer f).2.bytes = writeAt f.bytes (q * pageSize) buffer.bytes := by
  obtain ⟨hret, hbytes⟩ | ⟨-, -, hbad⟩ := pwrite_spec buffer.bytes (offset_nonneg q) f
  · rw [toNat_offset] at hbytes
    simp only [pageWrite, run_bind, run_ite, hret, buffer.length_bytes]
    exact ⟨rfl, keeps_pwrite _ _ f h, hbytes⟩
  · exact absurd h hbad

/-- A page can be read if the file is long enough. -/
lemma pageRead_spec (p : ℕ) (buffer : Page) :
    Same f (pageRead p buffer f).2 ∧
      (((p + 1) * pageSize ≤ f.bytes.length ∧ (pageRead p buffer f).1.1 = 0 ∧
          (pageRead p buffer f).1.2.bytes = readAt f.bytes (p * pageSize) pageSize) ∨
        (f.bytes.length < (p + 1) * pageSize ∧ (pageRead p buffer f).1.1 = -1)) := by
  obtain ⟨hsame, hret | ⟨-, hbad⟩⟩ := pread_spec pageSize (offset_nonneg p) f
  · have hlen := length_readAt f.bytes (p * pageSize) pageSize
    rw [toNat_offset] at hret
    simp only [pageRead, run_bind, run_ite, hret]
    by_cases hle : (p + 1) * pageSize ≤ f.bytes.length
    · have hfull : (readAt f.bytes (p * pageSize) pageSize).length = pageSize := by
        rw [hlen]
        simp only [pageSize] at hle ⊢
        omega
      rw [if_neg (by rw [hfull]; simp)]
      have hblit := Buffer.blit_zero_bytes buffer ⟨_, hfull⟩
      refine ⟨hsame, Or.inl ⟨hle, rfl, ?_⟩⟩
      simp only [run_pure, hblit]
    -- the file ends inside the page
    · have hshort : (readAt f.bytes (p * pageSize) pageSize).length < pageSize := by
        rw [hlen]
        simp only [pageSize] at hle ⊢
        omega
      rw [if_pos (by omega)]
      exact ⟨hsame, Or.inr ⟨by omega, rfl⟩⟩
  · exact absurd h hbad

/-- The new page is the one that begins in front of the end of the file or at it. -/
lemma pageAllocate_spec (hroom : Roomy f) :
    (pageAllocate f).1 = (f.bytes.length / pageSize : ℕ) ∧ Healthy (pageAllocate f).2 ∧
      (pageAllocate f).2.bytes =
        writeAt f.bytes (f.bytes.length / pageSize * pageSize) (Buffer.zero pageSize).bytes := by
  obtain ⟨hseek, ⟨hret, -⟩ | ⟨-, hbad⟩⟩ := lseekEnd_spec f
  · have hid : toInt (toUint32 ((f.bytes.length : ℤ) / (pageSize : ℕ))) =
        (f.bytes.length / pageSize : ℕ) := by
      have hlt : f.bytes.length / pageSize < 2 ^ 31 := Nat.div_lt_of_lt_mul (by
        rw [Nat.mul_comm]
        exact hroom)
      rw [← Int.natCast_div, toUint32_natCast, Nat.mod_eq_of_lt (by omega), toInt_of_lt hlt]
    simp only [pageAllocate, run_bind, run_ite, hret]
    rw [if_neg (by omega), hid]
    generalize lseekEnd f = sought at hseek
    obtain ⟨hwret, hbytes⟩ | ⟨-, -, hbad⟩ :=
      pwrite_spec (Buffer.zero pageSize).bytes (offset_nonneg _) sought.2
    · rw [toNat_offset, hseek.bytes] at hbytes
      rw [hwret, Buffer.length_bytes, if_neg (by simp)]
      exact ⟨rfl, keeps_pwrite _ _ _ (hseek.healthy.mpr h), hbytes⟩
    · exact absurd (hseek.healthy.mpr h) hbad
  · exact absurd h hbad

end Healthy

/-! ### Runs -/

/-- A call of the disk manager on a page with a non-negative number. -/
inductive DiskCall where
  | write (pageId : ℕ) (buffer : Page)
  | read (pageId : ℕ) (buffer : Page)
  | allocate

/-- Make one call; its value is that of the function. -/
def DiskCall.exec : DiskCall → FileM ℤ
  | .write pageId buffer => pageWrite pageId buffer
  | .read pageId buffer => do
    let (ret, _) ← pageRead pageId buffer
    return ret
  | .allocate => pageAllocate

/-- One call, while the file has fewer than 2^31 pages. -/
inductive DiskStep : File → DiskCall × ℤ → File → Prop
  | call (c : DiskCall) {f : File} (hroom : Roomy f) : DiskStep f (c, (c.exec f).1) (c.exec f).2

/-- What the file is for: a length, and the pages that were written or allocated. -/
structure PageMap where
  /-- The length of the file. -/
  length : ℕ
  /-- What was last written to a page, all zeros if it was allocated. -/
  touched : ℕ → Option Page

/-- The map after the page `q` was written or allocated. -/
def PageMap.put (m : PageMap) (q : ℕ) (page : Page) : PageMap :=
  ⟨max m.length ((q + 1) * pageSize), Function.update m.touched q (some page)⟩

/-- The map after one more call. -/
def PageMap.after (m : PageMap) : DiskCall × ℤ → PageMap
  | (.write q buffer, _) => m.put q buffer
  | (.read _ _, _) => m
  | (.allocate, ret) => m.put ret.toNat (Buffer.zero pageSize)

/-- The map after the calls `es`, on a file with the content `init`. -/
def pageMapAfter (init : List UInt8) (es : List (DiskCall × ℤ)) : PageMap :=
  es.foldl PageMap.after ⟨init.length, fun _ => none⟩

/-- The page `p` of a content, padded with zeros. -/
def padded (init : List UInt8) (p : ℕ) : Page :=
  (Buffer.zero pageSize).blit 0 (readAt init (p * pageSize) pageSize)

/-- The page `p` of the map; a page that was not touched has its initial bytes. -/
def PageMap.page (init : List UInt8) (m : PageMap) (p : ℕ) : Page :=
  (m.touched p).getD (padded init p)

/-- The file has the length and the pages of the map. -/
structure Agrees (init : List UInt8) (m : PageMap) (f : File) : Prop where
  healthy : Healthy f
  length_eq : f.bytes.length = m.length
  byte_eq : ∀ p i, i < pageSize → f.bytes.getD (p * pageSize + i) 0 = (m.page init p).get i

section Runs

variable {init : List UInt8} {m : PageMap} {f : File}

lemma get_padded (init : List UInt8) (p : ℕ) {i : ℕ} (hi : i < pageSize) :
    (padded init p).get i = init.getD (p * pageSize + i) 0 := by
  have hlen := length_readAt init (p * pageSize) pageSize
  by_cases h : i < (readAt init (p * pageSize) pageSize).length
  · rw [padded, Buffer.get_blit_of_mem _ (Nat.zero_le i) (by omega) hi, Nat.sub_zero,
      getD_readAt init hi]
  · rw [padded, Buffer.get_blit_of_not_mem _ (by omega), Buffer.get_zero,
      List.getD_eq_default _ _ (by omega)]

/-- A page that is written at its place becomes that page of the map. -/
lemma Agrees.put (h : Agrees init m f) (q : ℕ) (page : Page) {f' : File} (hf' : Healthy f')
    (hbytes : f'.bytes = writeAt f.bytes (q * pageSize) page.bytes) :
    Agrees init (m.put q page) f' := by
  refine ⟨hf', ?_, fun p i hi => ?_⟩
  · rw [hbytes, length_writeAt, h.length_eq, page.length_bytes, PageMap.put, Nat.succ_mul]
  · rw [hbytes, getD_writeAt, page.length_bytes]
    by_cases hpq : p = q
    · have hpage : (m.put q page).page init p = page := by
        simp only [PageMap.page, PageMap.put, hpq, Function.update_self, Option.getD_some]
      rw [if_pos (by rw [hpq]; omega), hpage, hpq, Nat.add_sub_cancel_left]
      rfl
    · have hpage : (m.put q page).page init p = m.page init p := by
        simp only [PageMap.page, PageMap.put, Function.update_of_ne hpq]
      have hout : ¬ (q * pageSize ≤ p * pageSize + i ∧
          p * pageSize + i < q * pageSize + pageSize) := by
        simp only [pageSize] at hi ⊢
        omega
      rw [if_neg hout, hpage, h.byte_eq p i hi]

/-- Every call keeps the file and the map in agreement. -/
lemma Agrees.step (h : Agrees init m f) {e : DiskCall × ℤ} {f' : File} (hstep : DiskStep f e f') :
    Agrees init (m.after e) f' := by
  obtain ⟨c, hroom⟩ := hstep
  cases c with
  | write q buffer =>
    obtain ⟨-, hhealthy, hbytes⟩ := pageWrite_spec h.healthy q buffer
    exact h.put q buffer hhealthy hbytes
  | read p buffer =>
    obtain ⟨hsame, -⟩ := pageRead_spec h.healthy p buffer
    exact ⟨hsame.healthy.mpr h.healthy, (congrArg List.length hsame.bytes).trans h.length_eq,
      fun p i hi => (congrArg (fun l => l.getD (p * pageSize + i) 0) hsame.bytes).trans
        (h.byte_eq p i hi)⟩
  | allocate =>
    obtain ⟨hret, hhealthy, hbytes⟩ := pageAllocate_spec h.healthy hroom
    simp only [DiskCall.exec, PageMap.after, hret, Int.toNat_natCast]
    exact h.put _ _ hhealthy hbytes

/-- **The disk manager is a map from page numbers to pages**: after every run on a file with
any content, the length of the file is that of the map; a page can be read exactly if the file
is long enough, and then it is the page of the map; and `page_allocate` does not return a page
that could be read just before. -/
theorem page_map {es : List (DiskCall × ℤ)}
    (hrun : Run DiskStep (File.start init fun _ => false) es f) :
    f.bytes.length = (pageMapAfter init es).length ∧
    (∀ (p : ℕ) (buffer : Page), let out := (pageRead p buffer f).1
      (out.1 = 0 ↔ (p + 1) * pageSize ≤ f.bytes.length) ∧
      (out.1 = 0 → out.2 = (pageMapAfter init es).page init p)) ∧
    (Roomy f → ∀ (p : ℕ) (buffer : Page), (pageRead p buffer f).1.1 = 0 →
      (pageAllocate f).1 ≠ p) := by
  have hagrees : Agrees init (pageMapAfter init es) f := by
    refine Run.history (I := fun es f => Agrees init (pageMapAfter init es) f) ?_ ?_ hrun
    · refine ⟨fun _ => rfl, rfl, fun p i hi => ?_⟩
      rw [PageMap.page, pageMapAfter, List.foldl_nil, Option.getD_none, get_padded init p hi]
      rfl
    · intro es₁ f₁ e f₂ _ h hstep
      rw [pageMapAfter, List.foldl_append]
      exact h.step hstep
  refine ⟨hagrees.length_eq, fun p buffer => ?_, fun hroom p buffer hret halloc => ?_⟩
  · obtain ⟨-, ⟨hle, hret, hbytes⟩ | ⟨hlt, hret⟩⟩ := pageRead_spec hagrees.healthy p buffer
    · refine ⟨iff_of_true hret hle, fun _ => Buffer.ext fun i hi => ?_⟩
      rw [← hagrees.byte_eq p i hi, Buffer.get, hbytes, getD_readAt _ hi]
    · refine ⟨iff_of_false (by omega) (by omega), fun hzero => ?_⟩
      omega
  · obtain ⟨hid, -⟩ := pageAllocate_spec hagrees.healthy hroom
    obtain ⟨-, ⟨hle, -⟩ | ⟨-, hfail⟩⟩ := pageRead_spec hagrees.healthy p buffer
    · -- the page `length / PAGE_SIZE` is not complete
      rw [hid] at halloc
      simp only [pageSize] at halloc hle
      omega
    · omega

end Runs

/-- A page with the same byte everywhere. -/
def plainPage (b : UInt8) : Page := ⟨List.replicate pageSize b, List.length_replicate⟩

lemma get_plainPage (b : UInt8) {i : ℕ} (hi : i < pageSize) : (plainPage b).get i = b := by
  rw [Buffer.get, plainPage, List.getD_replicate _ hi]

/-- A write behind the end of a file of three bytes makes it three pages long, and the page can
be read. -/
theorem page_map_write : ∃ f, Run DiskStep (File.start [1, 2, 3] fun _ => false)
    [(.write 2 (plainPage 7), 0)] f ∧ f.bytes.length = 3 * pageSize ∧
    ∀ buffer, (pageRead (2 : ℕ) buffer f).1 = (0, plainPage 7) := by
  have hroom : Roomy (File.start [1, 2, 3] fun _ => false) := by
    simp [Roomy, File.start, pageSize]
  have hstep := DiskStep.call (.write 2 (plainPage 7)) hroom
  rw [show (DiskCall.exec (.write 2 (plainPage 7)) _).1 = 0 from
    (pageWrite_spec (fun _ => rfl) 2 _).1] at hstep
  have hrun := Run.single hstep
  obtain ⟨hlen, hread, -⟩ := page_map hrun
  have hlen' := hlen.trans (show _ = 3 * pageSize by decide)
  refine ⟨_, hrun, hlen', fun buffer => ?_⟩
  obtain ⟨hiff, hpage⟩ := hread 2 buffer
  have hret := hiff.mpr hlen'.ge
  exact Prod.ext hret (hpage hret)

end DiskManager

end MiniDb

end CsLab
