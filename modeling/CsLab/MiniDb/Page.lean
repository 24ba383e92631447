/-
The slotted page (`mini-db/03-slotted-page/page.c`, and the same functions in
`mini-db/04-heap-file/page.c`).

A page is a buffer of `PAGE_SIZE` bytes: the header at its start, the records
behind it, and the directory of slots at its end, growing downwards.  The
functions run in the state monad `PageM`, whose state is the page together with
the trace of the accesses that were made to it; the trace is what a statement
about bounds is about, and no function reads it.

The fields are 16 bits wide and little-endian.  A value is cut to 16 bits where the
source assigns it to a `uint16_t`.
-/
import Mathlib.Data.Int.Notation
import CsLab.Lib.Buffer
import CsLab.Lib.Prog

namespace CsLab

namespace MiniDb

/-- `PAGE_SIZE` -/
abbrev pageSize : ℕ := 4096

/-- `sizeof(PageHeader)` -/
abbrev sizeofPageHeader : ℕ := 6

/-- `sizeof(Slot)` -/
abbrev sizeofSlot : ℕ := 4

/-- A page image. -/
abbrev Page : Type := Buffer pageSize

/-- A memory area that is passed together with its size in a `uint16_t`: `record`
with `length`, or `buffer` with `buffer_size`. -/
structure Area where
  /-- The bytes of the area. -/
  bytes : List UInt8
  length_lt : bytes.length < 2 ^ 16
deriving DecidableEq

namespace Area

/-- The size that is passed with the area. -/
def length (a : Area) : ℕ := a.bytes.length

lemma length_lt_65536 (a : Area) : a.length < 65536 := a.length_lt

/-- `memcpy` into the area. -/
def fill (a : Area) (src : List UInt8) : Area :=
  ⟨overlay 0 src a.bytes, by simpa using a.length_lt⟩

end Area

/-! ### Accesses to a page -/

/-- One access of a page function to its page. -/
inductive Access where
  /-- A `uint16_t` field is read. -/
  | load (off : ℕ)
  /-- The value `v` is assigned to a `uint16_t` field. -/
  | store (off v : ℕ)
  /-- `memset` of the whole page. -/
  | clear
  /-- `memcpy` of `len` bytes into the page. -/
  | copyIn (dst len : ℕ)
  /-- `memcpy` of `len` bytes out of the page. -/
  | copyOut (src len : ℕ)
  /-- `memmove` of `len` bytes inside the page. -/
  | move (dst src len : ℕ)
  /-- The value `v` is assigned to a local `uint16_t`. -/
  | assign (v : ℕ)
  /-- `free_end - free_start` is computed. -/
  | gap (freeEnd freeStart : ℕ)
deriving DecidableEq

/-- The state of a page function: the page, and the accesses so far, newest first,
each with the page it was made to. -/
structure PageState where
  /-- The page image. -/
  page : Page
  /-- The accesses made so far. -/
  trace : List (Page × Access)

/-- Code that works on one page. -/
abbrev PageM : Type → Type := StateM PageState

namespace PageM

/-- Read the `uint16_t` field at the offset `off`. -/
def load (off : ℕ) : PageM ℕ := fun s =>
  (s.page.get16 off, { s with trace := (s.page, .load off) :: s.trace })

/-- Assign `v` to the `uint16_t` field at the offset `off`. -/
def store (off v : ℕ) : PageM Unit := fun s =>
  ((), { page := s.page.put16 off v, trace := (s.page, .store off v) :: s.trace })

/-- `memset(page, 0, PAGE_SIZE)` -/
def clear : PageM Unit := fun s =>
  ((), { page := Buffer.zero pageSize, trace := (s.page, .clear) :: s.trace })

/-- `memcpy(page + dst, src, length)` -/
def copyIn (dst : ℕ) (src : List UInt8) : PageM Unit := fun s =>
  ((), { page := s.page.blit dst src, trace := (s.page, .copyIn dst src.length) :: s.trace })

/-- The `len` bytes that a `memcpy` out of the page copies. -/
def copyOut (src len : ℕ) : PageM (List UInt8) := fun s =>
  (s.page.slice src len, { s with trace := (s.page, .copyOut src len) :: s.trace })

/-- `memmove(page + dst, page + src, len)` -/
def move (dst src len : ℕ) : PageM Unit := fun s =>
  ((), { page := s.page.blit dst (s.page.slice src len),
         trace := (s.page, .move dst src len) :: s.trace })

/-- The value of a local `uint16_t` after `v` was assigned to it. -/
def assign (v : ℕ) : PageM ℕ := fun s =>
  (v % 2 ^ 16, { s with trace := (s.page, .assign v) :: s.trace })

/-- `uint32_t x = freeEnd - freeStart` -/
def gap (freeEnd freeStart : ℕ) : PageM ℕ := fun s =>
  ((freeEnd + 2 ^ 32 - freeStart) % 2 ^ 32,
    { s with trace := (s.page, .gap freeEnd freeStart) :: s.trace })

/-- Run page code on a page: what it returns, and the page it leaves. -/
def run {α : Type} (x : PageM α) (p : Page) : α × Page :=
  ((x ⟨p, []⟩).1, (x ⟨p, []⟩).2.page)

lemma run_fst {α : Type} (x : PageM α) (p : Page) : (x.run p).1 = (x ⟨p, []⟩).1 := (rfl)

lemma run_snd {α : Type} (x : PageM α) (p : Page) : (x.run p).2 = (x ⟨p, []⟩).2.page := (rfl)

end PageM

open PageM

/-- `&header->slot_count` -/
abbrev slotCountField : ℕ := 0

/-- `&header->free_start` -/
abbrev freeStartField : ℕ := 2

/-- `&header->free_end` -/
abbrev freeEndField : ℕ := 4

/-- `&slot->offset`, for the slot at `slotOffset` -/
abbrev offsetField (slotOffset : ℕ) : ℕ := slotOffset

/-- `&slot->length`, for the slot at `slotOffset` -/
abbrev lengthField (slotOffset : ℕ) : ℕ := slotOffset + 2

/-- `uint16_t slot_offset = PAGE_SIZE - (slot_id + 1) * sizeof(Slot)`, computed in
`size_t` -/
def slotOffset (slotId : ℕ) : PageM ℕ :=
  assign ((2 ^ 64 + pageSize - (slotId + 1) * sizeofSlot) % 2 ^ 64)

/-! ### The functions of `page.c` -/

/-- `page_init` -/
def pageInit : PageM Unit := do
  clear
  store slotCountField 0
  store freeStartField sizeofPageHeader
  store freeEndField pageSize

/-- The loop of `page_compact` from the slot `slotId` on; the loop counter is a
`uint16_t` below `slot_count`, so `fuel = 2^16` iterations are never used up. -/
def pageCompactLoop : ℕ → ℕ → ℕ → PageM ℕ
  | 0, _, newFreeStart => return newFreeStart
  | fuel + 1, slotId, newFreeStart => do
    let slotCount ← load slotCountField
    if slotId < slotCount then
      let slot ← slotOffset slotId
      let length ← load (lengthField slot)
      if length = 0 then
        pageCompactLoop fuel (slotId + 1) newFreeStart
      else
        let oldOffset ← load (offsetField slot)
        -- in the order of the slots, which need not be the order of the offsets
        move newFreeStart oldOffset length
        store (offsetField slot) newFreeStart
        let length ← load (lengthField slot)
        -- `slot->length` was read again behind the move
        let newFreeStart ← assign (newFreeStart + length)
        pageCompactLoop fuel (slotId + 1) newFreeStart
    else
      return newFreeStart

/-- `page_compact` -/
def pageCompact : PageM Unit := do
  let newFreeStart ← assign sizeofPageHeader
  let newFreeStart ← pageCompactLoop (2 ^ 16) 0 newFreeStart
  store freeStartField newFreeStart

/-- The loop of `page_insert` that looks for a deleted slot, from the slot `i` on. -/
def reusableSlotLoop : ℕ → ℕ → PageM ℤ
  | 0, _ => return -1
  | fuel + 1, i => do
    let slotCount ← load slotCountField
    if i < slotCount then
      let slot ← slotOffset i
      let length ← load (lengthField slot)
      if length = 0 then return i
      else reusableSlotLoop fuel (i + 1)
    else
      return -1

/-- The part of `page_insert` after the space check: the record is copied to
`free_start` and its slot is filled in. -/
def placeRecord (record : Area) (reusableSlotId : ℤ) : PageM ℤ := do
  let freeStart ← load freeStartField
  copyIn freeStart record.bytes
  if reusableSlotId ≠ -1 then
    let slotId ← assign (reusableSlotId % 2 ^ 16).toNat
    let slot ← slotOffset slotId
    fillSlot slot slotId
  else
    let slotId ← load slotCountField
    let slot ← slotOffset slotId
    let freeEnd ← load freeEndField
    store freeEndField ((2 ^ 64 + freeEnd - sizeofSlot) % 2 ^ 64)
    let slotCount ← load slotCountField
    store slotCountField (slotCount + 1)
    fillSlot slot slotId
where
  /-- `slot->offset = …; slot->length = …; header->free_start += …; return slot_id` -/
  fillSlot (slot slotId : ℕ) : PageM ℤ := do
    let freeStart ← load freeStartField
    store (offsetField slot) freeStart
    store (lengthField slot) record.length
    let freeStart ← load freeStartField
    store freeStartField (freeStart + record.length)
    return slotId

/-- `page_insert`; `none` is a `NULL` record -/
def pageInsert : Option Area → PageM ℤ
  | none => return -1
  | some record => do
    if record.length = 0 then return -1
    let reusableSlotId ← reusableSlotLoop (2 ^ 16) 0
    -- a deleted slot is used again, without a new entry in the directory
    let neededSpace := record.length + (if reusableSlotId ≠ -1 then 0 else sizeofSlot)
    let freeEnd ← load freeEndField
    let freeStart ← load freeStartField
    let currentFree ← gap freeEnd freeStart
    if currentFree < neededSpace then
      pageCompact
      let freeEnd ← load freeEndField
      let freeStart ← load freeStartField
      let currentFree ← gap freeEnd freeStart
      if currentFree < neededSpace then
        return -1
      else
        placeRecord record reusableSlotId
    else
      placeRecord record reusableSlotId

/-- `page_get`; `none` is a `NULL` buffer, and the buffer comes back with the record
copied into it -/
def pageGet (slotId : ℕ) : Option Area → PageM (ℤ × Option Area)
  | none => return (-1, none)
  | some buffer => do
    let slotCount ← load slotCountField
    if slotId ≥ slotCount then return (-1, some buffer)
    let slot ← slotOffset slotId
    let length ← load (lengthField slot)
    if length = 0 then return (-1, some buffer)
    let length ← load (lengthField slot)
    if buffer.length < length then return (-1, some buffer)
    let offset ← load (offsetField slot)
    let length ← load (lengthField slot)
    let data ← copyOut offset length
    let length ← load (lengthField slot)
    return (length, some (buffer.fill data))

/-- `page_delete` -/
def pageDelete (slotId : ℕ) : PageM ℤ := do
  let slotCount ← load slotCountField
  if slotId ≥ slotCount then return -1
  let slot ← slotOffset slotId
  let length ← load (lengthField slot)
  if length = 0 then return -1
  -- the bytes of the record stay where they are
  store (lengthField slot) 0
  return 0

end MiniDb

end CsLab
