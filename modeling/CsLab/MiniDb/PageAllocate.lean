/-
The page that `page_allocate` hands out.

The id is computed by rounding the length of the file down, but the page is written to the
end of the file as it is.  The two agree if the file consists of complete pages
(`page_allocate_usable_iff` has the exact condition).
-/
import CsLab.MiniDb.HeapPages

namespace CsLab

namespace MiniDb

open PageM File Blocks Prog

/-! ### The empty page -/

lemma get_emptyPage {x : ℕ} (hx : 6 ≤ x) : emptyPage.get x = 0 := by
  change ((((Buffer.zero pageSize).put16 slotCountField 0).put16 freeStartField
    sizeofPageHeader).put16 freeEndField pageSize).get x = 0
  rw [Buffer.get_put16_of_ne _ _ (by simp only [freeEndField]; omega),
    Buffer.get_put16_of_ne _ _ (by simp only [freeStartField]; omega),
    Buffer.get_put16_of_ne _ _ (by simp only [slotCountField]; omega), Buffer.get_zero]

/-- `free_start` is the only byte of the value `6`. -/
lemma get_emptyPage_eq_six {x : ℕ} (h : emptyPage.get x = 6) : x = 2 := by
  rcases Nat.lt_or_ge x 6 with hlt | hge
  · have hsmall : ∀ i < 6, emptyPage.get i = 6 → i = 2 := by decide +kernel
    exact hsmall x hlt h
  · rw [get_emptyPage hge] at h
    exact absurd h (by decide)

/-- The image of an empty page that begins with other bytes. -/
lemma take_append_emptyPage_iff {tail : List UInt8} (htail : tail.length < 4096) :
    (tail ++ emptyPage.bytes).take 4096 = emptyPage.bytes ↔
      tail = [] ∨ (4094 ≤ tail.length ∧ tail <+: emptyPage.bytes) := by
  have hE : emptyPage.bytes.length = 4096 := emptyPage.length_bytes
  constructor
  · intro h
    have hpre : tail <+: emptyPage.bytes := by
      refine ⟨emptyPage.bytes.take (4096 - tail.length), Eq.trans ?_ h⟩
      rw [List.take_append, List.take_of_length_le (show tail.length ≤ 4096 by omega)]
    rw [or_iff_not_imp_left]
    intro hne
    refine ⟨?_, hpre⟩
    by_contra hlt
    -- the byte `free_start` would stand at a second place
    have hpos : 0 < tail.length := List.length_pos_iff.mpr hne
    have hsix : emptyPage.get (tail.length + 2) = 6 := by
      rw [Buffer.get, ← h, List.getD_eq_getElem?_getD, List.getElem?_take_of_lt (by omega),
        List.getElem?_append_right (by omega), Nat.add_sub_cancel_left]
      decide +kernel
    have hat := get_emptyPage_eq_six hsix
    omega
  · rintro (rfl | ⟨hge, hpre⟩)
    · rw [List.nil_append, List.take_of_length_le (by omega)]
    -- the empty page ends with the zero bytes that it begins with
    · apply List.ext_getElem (by simp)
      intro i hi hi'
      rw [List.getElem_take]
      rcases Nat.lt_or_ge i tail.length with hlt | hge'
      · rw [List.getElem_append_left hlt]
        exact hpre.getElem hlt
      · rw [List.getElem_append_right hge', ← List.getD_eq_getElem _ 0, ← List.getD_eq_getElem _ 0]
        change emptyPage.get (i - tail.length) = emptyPage.get i
        have hsmall : ∀ j < 2, emptyPage.get j = 0 := by decide +kernel
        rw [hsmall _ (by omega), get_emptyPage (by omega)]

/-! ### The allocated page -/

/-- `page_allocate` returns an id if the descriptor is open and neither of its calls fails. -/
lemma pageAllocate_nonneg {f : File} (hroom : Roomy f) (fd : ℤ) :
    0 ≤ (pageAllocate fd f).1 ↔
      ¬ (fd < 0 ∨ f.fails f.calls = true ∨ f.fails (f.calls + 1) = true) := by
  by_cases hfd : fd < 0
  · simp [pageAllocate, hfd]
  simp only [pageAllocate, run_bind, run_ite, if_neg hfd]
  by_cases hseek : f.fails f.calls = true
  · rw [show lseekEnd f = (-1, f.called) from if_pos hseek]
    simp [hseek]
  rw [show lseekEnd f = (↑f.bytes.length, { f.called with pos := f.bytes.length }) from
    if_neg hseek, if_neg (by omega)]
  by_cases hwrite : f.fails (f.calls + 1) = true
  · have hret : ∀ src, (write src { f.called with pos := f.bytes.length }).1 = -1 := fun src =>
      (write_fst _ _).trans (if_pos hwrite)
    simp [hwrite, hret]
  · have hret : (write emptyPage.bytes { f.called with pos := f.bytes.length }).1 = pageSize := by
      rw [write_fst, emptyPage.length_bytes]
      exact if_neg hwrite
    have hid : toUint32 ((f.bytes.length : ℤ) / pageSize) < 2 ^ 31 := by
      simp only [Roomy, pageSize] at hroom
      simp only [toUint32, pageSize]
      omega
    rw [pageInit_run, hret, if_neg (by simp), run_pure, toInt_of_lt hid]
    simp [hfd, hseek, hwrite]

/-- When `page_allocate` returns the id of a page, `page_read` of this page gives the image of
`page_init`, the pages that were complete are as they were, and the new page is the last one.
The file is read again without a failing call. -/
def UsablePage (fd : ℤ) (f : File) : Prop :=
  let out := pageAllocate fd f
  let reread := File.start out.2.bytes fun _ => false
  0 ≤ out.1 →
    (∀ page, (pageRead fd (toUint32 out.1) page reread).1 = (0, emptyPage)) ∧
    (∀ i < f.bytes.length / pageSize,
      readAt out.2.bytes (i * pageSize) pageSize = readAt f.bytes (i * pageSize) pageSize) ∧
    ((heapPageCount (some ⟨fd⟩) reread).1 : ℤ) = out.1 + 1

/-- The page that stands behind the complete ones when an empty page was appended to the tail. -/
lemma holds_allocated (ps : List Page) {tail : List UInt8} (htail : tail.length < pageSize) :
    ∃ p : Page, p.bytes = (tail ++ emptyPage.bytes).take 4096 ∧
      Holds (File.start (flat ps ++ tail ++ emptyPage.bytes) fun _ => false) (ps ++ [p])
        ((tail ++ emptyPage.bytes).drop 4096) := by
  have hE : emptyPage.bytes.length = 4096 := emptyPage.length_bytes
  refine ⟨⟨(tail ++ emptyPage.bytes).take 4096, by simp⟩, rfl, ?_, by simpa using htail⟩
  simp only [File.start, flat_append, flat_cons, flat_nil, List.append_nil, List.append_assoc,
    List.take_append_drop]

/-- The last page is read back, and the page count is its id and one. -/
lemma reread_last {f : File} {ps : List Page} {p : Page} {tail : List UInt8}
    (hholds : Holds f (ps ++ [p]) tail) (hhealthy : Healthy f) {fd : ℤ} (hfd : 0 ≤ fd)
    (hlen : ps.length < 2 ^ 31) :
    (∀ page, (pageRead fd ps.length page f).1 = (0, p)) ∧
      (heapPageCount (some ⟨fd⟩) f).1 = ps.length + 1 := by
  constructor
  · intro page
    obtain ⟨-, ⟨hi, hgot⟩ | ⟨-, hno⟩⟩ := pageRead_spec hholds hfd ps.length page
    · rw [hgot, List.getElem_concat_length rfl]
    · have hle := hno hhealthy
      rw [List.length_append, List.length_singleton] at hle
      omega
  · obtain ⟨-, hcount | ⟨-, hbad⟩⟩ := heapPageCount_spec hholds (show 0 ≤ (HeapFile.mk fd).fd from hfd)
    · rw [hcount, List.length_append, List.length_singleton, Nat.mod_eq_of_lt (by omega)]
    · exact absurd hhealthy hbad

/-- **When `page_allocate` hands out a usable page.**  If it does not fail, the file must consist of
complete pages; or else its ragged tail must be an empty page but for its last byte or two. -/
theorem page_allocate_usable_iff {f : File} (hroom : Roomy f) (fd : ℤ) :
    UsablePage fd f ↔
      (fd < 0 ∨ f.fails f.calls = true ∨ f.fails (f.calls + 1) = true) ∨
        ragged pageSize f.bytes = [] ∨
          (4094 ≤ (ragged pageSize f.bytes).length ∧
            ragged pageSize f.bytes <+: emptyPage.bytes) := by
  by_cases hfail : fd < 0 ∨ f.fails f.calls = true ∨ f.fails (f.calls + 1) = true
  · have hneg : ¬ 0 ≤ (pageAllocate fd f).1 := fun h => (pageAllocate_nonneg hroom fd).mp h hfail
    simp [UsablePage, hneg, hfail]
  obtain ⟨ps, tail, hbytes, htail⟩ := exists_flat (show 0 < pageSize by decide) f.bytes
  have hholds : Holds f ps tail := ⟨hbytes, htail⟩
  have hragged : ragged pageSize f.bytes = tail := by rw [hbytes, ragged_flat ps htail]
  have hlen : ps.length < 2 ^ 31 := by
    rw [← hholds.length_div]
    exact Nat.div_lt_of_lt_mul (by rw [Nat.mul_comm]; exact hroom)
  have hok := (pageAllocate_nonneg hroom fd).mpr hfail
  rw [not_or] at hfail
  have hfd : 0 ≤ fd := by omega
  obtain ⟨hid, hout⟩ | ⟨hret, -⟩ := pageAllocate_spec hholds hfd
  swap
  · rw [hret] at hok
    exact absurd hok (by omega)
  rw [Nat.mod_eq_of_lt (by omega), toInt_of_lt hlen] at hid
  rw [hbytes] at hout
  obtain ⟨p, hp, hholds'⟩ := holds_allocated ps htail
  obtain ⟨hread, hcount⟩ := reread_last hholds' (fun _ => rfl) hfd hlen
  have hsame : ∀ i < f.bytes.length / pageSize,
      readAt (flat ps ++ tail ++ emptyPage.bytes) (i * pageSize) pageSize =
        readAt f.bytes (i * pageSize) pageSize := by
    intro i hi
    rw [hholds.length_div] at hi
    rw [List.append_assoc, hbytes, readAt_flat ps _ hi, readAt_flat ps _ hi]
  have hid' : toUint32 ps.length = ps.length := by
    rw [toUint32_natCast, Nat.mod_eq_of_lt (by omega)]
  rw [hragged, ← take_append_emptyPage_iff htail, ← hp, Buffer.bytes_inj]
  simp only [UsablePage, hid, hout, hid', hread, hcount]
  constructor
  · exact fun h => .inr (Prod.mk.inj ((h (by omega)).1 emptyPage)).2
  · rintro (hbad | rfl) -
    · exact (hbad.elim hfail.1 hfail.2).elim
    · exact ⟨fun _ => rfl, hsame, by push_cast; rfl⟩

/-- A file of one byte. -/
def raggedFile : File := File.start [0] fun _ => false

theorem page_allocate_usable_iff_ragged :
    UsablePage 3 raggedFile ↔
      ((3 : ℤ) < 0 ∨ raggedFile.fails raggedFile.calls = true ∨
          raggedFile.fails (raggedFile.calls + 1) = true) ∨
        ragged pageSize raggedFile.bytes = [] ∨
          (4094 ≤ (ragged pageSize raggedFile.bytes).length ∧
            ragged pageSize raggedFile.bytes <+: emptyPage.bytes) :=
  page_allocate_usable_iff (by decide) 3

lemma pageRead_raggedFile :
    0 ≤ (pageAllocate 3 raggedFile).1 ∧
      (pageRead 3 (toUint32 (pageAllocate 3 raggedFile).1) uninitialised
        (File.start (pageAllocate 3 raggedFile).2.bytes fun _ => false)).1 ≠ (0, emptyPage) := by
  decide +kernel

/-- **An allocated page need not be usable**: the header of the new page is written one byte too
far. -/
theorem page_allocate_ragged : ¬ ∀ fd f, Roomy f → UsablePage fd f := fun h =>
  pageRead_raggedFile.2 ((h 3 raggedFile (by decide) pageRead_raggedFile.1).1 uninitialised)

end MiniDb

end CsLab
