/-
The heap file (`mini-db/04-heap-file/heap_file.c`).

A heap file stores records in the pages of a file and finds them again by their RID, the
page and the slot.  The functions run on the file that is behind the descriptor of the
heap.  A pointer that may be `NULL` is an `Option`; what a function leaves behind an
out-parameter is returned beside its value.
-/
import CsLab.MiniDb.PageFile
import CsLab.MiniDb.PageRecords

namespace CsLab

namespace MiniDb

open File Blocks Prog

/-- `HeapFile` -/
structure HeapFile where
  /-- The descriptor of the file, `-1` when it is closed. -/
  fd : ℤ
deriving DecidableEq

/-- `RID` -/
structure RID where
  pageId : ℕ
  slotId : ℕ
deriving DecidableEq

/-- `(uint16_t)x` -/
def toUint16 (x : ℤ) : ℕ := (x % 2 ^ 16).toNat

/-- `heap_open`; `opened` is what `open` returns -/
def heapOpen (heap : Option HeapFile) (filename : Option String) (opened : ℤ) :
    FileM (ℤ × Option HeapFile) :=
  match heap, filename with
  | some _, some _ => do
    let fd ← openFile opened
    if fd < 0 then return (-1, some ⟨fd⟩)
    return (0, some ⟨fd⟩)
  | heap, _ => return (-1, heap)

/-- `heap_close` -/
def heapClose : Option HeapFile → FileM (Option HeapFile)
  | none => return none
  | some heap => do
    if heap.fd ≥ 0 then return some ⟨-1⟩
    return some heap

/-- `heap_page_count` -/
def heapPageCount : Option HeapFile → FileM ℕ
  | none => return 0
  | some heap => do
    if heap.fd < 0 then return 0
    let fileSize ← lseekEnd
    if fileSize ≤ 0 then return 0
    return toUint32 (fileSize / pageSize)

/-- The loop of `heap_insert` over the existing pages, from `pageId` on, with `remaining`
pages before `page_count`.  It returns what `heap_insert` returns from inside the loop, and
`none` when the loop comes to its end. -/
def heapInsertLoop (fd : ℤ) (record : Area) (rid : RID) : ℕ → ℕ → FileM (Option (ℤ × RID))
  | 0, _ => return none
  | remaining + 1, pageId => do
    let (ret, page) ← pageRead fd pageId uninitialised
    if ret ≠ 0 then return some (-1, rid)
    let (slotId, page) := (pageInsert (some record)).run page
    -- a page that was compacted in vain is not written back
    if slotId = -1 then
      heapInsertLoop fd record rid remaining (pageId + 1)
    else
      if (← pageWrite fd pageId page) ≠ 0 then return some (-1, rid)
      return some (0, ⟨pageId, toUint16 slotId⟩)

/-- `heap_insert` -/
def heapInsert : Option HeapFile → Option Area → Option RID → FileM (ℤ × Option RID)
  | some heap, some record, some rid => do
    let maxRecordSize := pageSize - sizeofPageHeader - sizeofSlot
    if record.length > maxRecordSize then return (-1, some rid)
    let pageCount ← heapPageCount (some heap)
    match ← heapInsertLoop heap.fd record rid pageCount 0 with
    | some (ret, rid) => return (ret, some rid)
    | none =>
      -- no page has room; an empty record comes here too, and the new page is in vain
      let newPageId ← pageAllocate heap.fd
      if newPageId < 0 then return (-1, some rid)
      let (_, page) := pageInit.run uninitialised
      let (slotId, page) := (pageInsert (some record)).run page
      if slotId = -1 then return (-1, some rid)
      if (← pageWrite heap.fd (toUint32 newPageId) page) ≠ 0 then return (-1, some rid)
      return (0, some ⟨toUint32 newPageId, toUint16 slotId⟩)
  | _, _, rid => return (-1, rid)

/-- `heap_get`; the buffer comes back with the record copied into it -/
def heapGet : Option HeapFile → RID → Option Area → FileM (ℤ × Option Area)
  | some heap, rid, some buffer => do
    if buffer.length = 0 then return (-1, some buffer)
    let pageCount ← heapPageCount (some heap)
    if rid.pageId ≥ pageCount then return (-1, some buffer)
    let (ret, page) ← pageRead heap.fd rid.pageId uninitialised
    if ret ≠ 0 then return (-1, some buffer)
    let ((recordLength, buffer), _) := (pageGet rid.slotId (some buffer)).run page
    if recordLength < 0 then return (-1, buffer)
    return (recordLength, buffer)
  | _, _, buffer => return (-1, buffer)

/-- `heap_delete` -/
def heapDelete : Option HeapFile → RID → FileM ℤ
  | none, _ => return -1
  | some heap, rid => do
    if heap.fd < 0 then return -1
    let pageCount ← heapPageCount (some heap)
    if rid.pageId ≥ pageCount then return -1
    let (ret, page) ← pageRead heap.fd rid.pageId uninitialised
    if ret ≠ 0 then return -1
    let (ret, page) := (pageDelete rid.slotId).run page
    if ret ≠ 0 then return -1
    if (← pageWrite heap.fd rid.pageId page) ≠ 0 then return -1
    return 0

end MiniDb

end CsLab
