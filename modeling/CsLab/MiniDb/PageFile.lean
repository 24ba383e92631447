/-
Pages in a file (`page_read`, `page_write` and `page_allocate` of
`mini-db/04-heap-file/page.c`).

`Holds f ps tail` says that the file `f` consists of the pages `ps` and of a `tail` that is
shorter than a page.  The lemmas say what the three functions do to such a file, and that
they return `-1` only for a reason: a call on the file failed, or the page is not there.
-/
import CsLab.Lib.Posix
import CsLab.MiniDb.PageInvariant

namespace CsLab

namespace MiniDb

open File Blocks Prog

/-- `(uint32_t)x` -/
def toUint32 (x : ℤ) : ℕ := (x % 2 ^ 32).toNat

/-- `(int)x`, for a `uint32_t` -/
def toInt (x : ℕ) : ℤ := if x < 2 ^ 31 then x else (x : ℤ) - 2 ^ 32

/-- `char page[PAGE_SIZE]`; no function reads such a page before it has filled all of it. -/
def uninitialised : Page := Buffer.zero pageSize

/-- The file has fewer than 2^31 pages. -/
def Roomy (f : File) : Prop := f.bytes.length < 2 ^ 31 * pageSize

instance (f : File) : Decidable (Roomy f) := inferInstanceAs (Decidable (_ < _))

/-- `page_read`, with the buffer that it leaves -/
def pageRead (fd : ℤ) (pageId : ℕ) (page : Page) : FileM (ℤ × Page) := do
  if fd < 0 then return (-1, page)
  let offset := pageId * pageSize
  if (← lseekSet offset) = -1 then return (-1, page)
  let (bytesRead, data) ← read pageSize
  -- a short read has filled a part of the buffer
  let page := page.blit 0 data
  if bytesRead ≠ pageSize then return (-1, page)
  return (0, page)

/-- `page_write` -/
def pageWrite (fd : ℤ) (pageId : ℕ) (page : Page) : FileM ℤ := do
  if fd < 0 then return -1
  let offset := pageId * pageSize
  if (← lseekSet offset) = -1 then return -1
  let bytesWritten ← write page.bytes
  if bytesWritten ≠ pageSize then return -1
  return 0

/-- `page_allocate` -/
def pageAllocate (fd : ℤ) : FileM ℤ := do
  if fd < 0 then return -1
  let fileSize ← lseekEnd
  if fileSize = -1 then return -1
  let newPageId := toUint32 (fileSize / pageSize)
  let (_, emptyPage) := pageInit.run uninitialised
  -- at the end of the file, which need not be the end of a page
  if (← write emptyPage.bytes) ≠ pageSize then return -1
  return toInt newPageId

/-! ### What they do -/

/-- The file consists of the pages `ps`, and of a `tail` that is not a complete page. -/
structure Holds (f : File) (ps : List Page) (tail : List UInt8) : Prop where
  bytes : f.bytes = flat ps ++ tail
  tail_lt : tail.length < pageSize

lemma toUint32_natCast (n : ℕ) : toUint32 n = n % 2 ^ 32 := by
  rw [toUint32]
  omega

lemma toInt_of_lt {n : ℕ} (h : n < 2 ^ 31) : toInt n = n := if_pos h

section PageFile

variable {f : File} {ps : List Page} {tail : List UInt8} {fd : ℤ}

lemma Holds.same {f' : File} (h : Holds f ps tail) (hf : Same f f') : Holds f' ps tail :=
  ⟨hf.bytes.trans h.bytes, h.tail_lt⟩

lemma Holds.length_div (h : Holds f ps tail) : f.bytes.length / pageSize = ps.length := by
  rw [h.bytes]
  exact length_flat_div ps h.tail_lt

/-- The pages of a file are its complete blocks. -/
lemma Holds.blocks_eq (h : Holds f ps tail) : blocks pageSize f.bytes = ps := by
  rw [h.bytes]
  exact blocks_flat ps h.tail_lt

lemma pageRead_spec (h : Holds f ps tail) (hfd : 0 ≤ fd) (i : ℕ) (page : Page) :
    Same f (pageRead fd i page f).2 ∧
      ((∃ hi : i < ps.length, (pageRead fd i page f).1 = (0, ps[i])) ∨
        ((pageRead fd i page f).1.1 = -1 ∧ (Healthy f → ps.length ≤ i))) := by
  obtain ⟨hseek, hret⟩ := lseekSet_spec (i * pageSize) f
  simp only [pageRead, run_bind, run_ite, if_neg (show ¬ fd < 0 by omega)]
  generalize lseekSet (i * pageSize) f = sought at hseek hret
  rcases hret with ⟨hret, hpos⟩ | ⟨hret, hbad⟩
  · obtain ⟨hread, hdata⟩ := read_spec pageSize sought.2
    rw [if_neg (by omega)]
    rw [hpos, hseek.bytes, h.bytes] at hdata
    generalize read pageSize sought.2 = got at hread hdata
    refine ⟨?_, ?_⟩
    · split <;> exact hseek.trans hread
    rcases hdata with hdata | ⟨hdata, hbad⟩
    · rw [hdata]
      rcases Nat.lt_or_ge i ps.length with hi | hi
      · have hlen : (readAt (flat ps ++ tail) (i * pageSize) pageSize).length = pageSize := by
          rw [readAt_flat ps tail hi, Buffer.length_bytes]
        rw [hlen, if_neg (by simp), readAt_flat ps tail hi, Buffer.blit_zero_bytes]
        exact Or.inl ⟨hi, rfl⟩
      · have hlen := length_readAt_flat_lt ps h.tail_lt hi
        rw [if_pos (by omega)]
        exact Or.inr ⟨rfl, fun _ => hi⟩
    · rw [hdata, if_pos (by simp)]
      exact Or.inr ⟨rfl, fun hf => absurd (hseek.healthy.mpr hf) hbad⟩
  · rw [if_pos hret]
    exact ⟨hseek, Or.inr ⟨rfl, fun hf => absurd hf hbad⟩⟩

lemma pageWrite_spec (hfd : 0 ≤ fd) (i : ℕ) (page : Page) (f : File) :
    ((pageWrite fd i page f).1 = 0 ∧
        (pageWrite fd i page f).2.bytes = writeAt f.bytes (i * pageSize) page.bytes) ∨
      ((pageWrite fd i page f).1 = -1 ∧ (pageWrite fd i page f).2.bytes = f.bytes ∧
        ¬ Healthy f) := by
  obtain ⟨hseek, hret⟩ := lseekSet_spec (i * pageSize) f
  simp only [pageWrite, run_bind, run_ite, if_neg (show ¬ fd < 0 by omega)]
  generalize lseekSet (i * pageSize) f = sought at hseek hret
  rcases hret with ⟨hret, hpos⟩ | ⟨hret, hbad⟩
  · have hwrite := write_spec page.bytes sought.2
    rw [if_neg (by omega)]
    rw [hpos, hseek.bytes, hseek.healthy, page.length_bytes] at hwrite
    generalize write page.bytes sought.2 = wrote at hwrite
    rcases hwrite with ⟨hw, hbytes⟩ | ⟨hw, hbytes, hbad⟩
    · rw [if_neg (by omega)]
      exact Or.inl ⟨rfl, hbytes⟩
    · rw [if_pos (by omega)]
      exact Or.inr ⟨rfl, hbytes, hbad⟩
  · rw [if_pos hret]
    exact Or.inr ⟨rfl, hseek.bytes, hbad⟩

/-- The new page is written at the end of the file, behind its tail. -/
lemma pageAllocate_spec (h : Holds f ps tail) (hfd : 0 ≤ fd) :
    ((pageAllocate fd f).1 = toInt (ps.length % 2 ^ 32) ∧
        (pageAllocate fd f).2.bytes = f.bytes ++ emptyPage.bytes) ∨
      ((pageAllocate fd f).1 = -1 ∧ (pageAllocate fd f).2.bytes = f.bytes ∧ ¬ Healthy f) := by
  obtain ⟨hseek, hret⟩ := lseekEnd_spec f
  simp only [pageAllocate, run_bind, run_ite, if_neg (show ¬ fd < 0 by omega)]
  generalize lseekEnd f = sought at hseek hret
  rcases hret with ⟨hret, hpos⟩ | ⟨hret, hbad⟩
  · have hpage : (pageInit.run uninitialised).2 = emptyPage := pageInit_run _
    have hwrite := write_spec emptyPage.bytes sought.2
    have hid : toUint32 (sought.1 / pageSize) = ps.length % 2 ^ 32 := by
      rw [hret, ← h.length_div, ← toUint32_natCast]
      rfl
    have hend : writeAt f.bytes f.bytes.length emptyPage.bytes = f.bytes ++ emptyPage.bytes := by
      simp [writeAt]
    rw [if_neg (by omega), hpage, hid]
    rw [hpos, hseek.bytes, hseek.healthy, emptyPage.length_bytes, hend] at hwrite
    generalize write emptyPage.bytes sought.2 = wrote at hwrite
    rcases hwrite with ⟨hw, hbytes⟩ | ⟨hw, hbytes, hbad⟩
    · rw [if_neg (by omega)]
      exact Or.inl ⟨rfl, hbytes⟩
    · rw [if_pos (by omega)]
      exact Or.inr ⟨rfl, hbytes, hbad⟩
  · rw [if_pos hret]
    exact Or.inr ⟨rfl, hseek.bytes, hbad⟩

lemma keeps_pageRead (fd : ℤ) (i : ℕ) (page : Page) : Keeps Healthy (pageRead fd i page) :=
  .ite (.pure _) <| .bind (keeps_lseekSet _) fun _ =>
    .ite (.pure _) <| .bind (keeps_read _) fun _ => .ite (.pure _) (.pure _)

lemma keeps_pageWrite (fd : ℤ) (i : ℕ) (page : Page) : Keeps Healthy (pageWrite fd i page) :=
  .ite (.pure _) <| .bind (keeps_lseekSet _) fun _ =>
    .ite (.pure _) <| .bind (keeps_write _) fun _ => .ite (.pure _) (.pure _)

lemma keeps_pageAllocate (fd : ℤ) : Keeps Healthy (pageAllocate fd) :=
  .ite (.pure _) <| .bind keeps_lseekEnd fun _ =>
    .ite (.pure _) <| .bind (keeps_write _) fun _ => .ite (.pure _) (.pure _)

end PageFile

end MiniDb

end CsLab
