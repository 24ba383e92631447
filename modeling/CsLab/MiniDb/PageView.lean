/-
The fields of a page image.

`slotCount`, `freeStart`, `freeEnd` read the header, `slotOff` and `slotLen` the slot
directory.  The lemmas say what a write to one field, or to the bytes between the
header and the directory, does to the others; the proofs about the page functions
work with these and never look at single bytes of the header or the directory.
-/
import Mathlib.Order.Basic
import CsLab.MiniDb.Page

namespace CsLab

namespace MiniDb

open PageM Prog

/-- The place of the slot `i` in the page. -/
def slotAt (i : ℕ) : ℕ := 4092 - 4 * i

/-- `header->slot_count` -/
def slotCount (p : Page) : ℕ := p.get16 slotCountField

/-- `header->free_start` -/
def freeStart (p : Page) : ℕ := p.get16 freeStartField

/-- `header->free_end` -/
def freeEnd (p : Page) : ℕ := p.get16 freeEndField

/-- The `offset` of the slot `i`. -/
def slotOff (p : Page) (i : ℕ) : ℕ := p.get16 (offsetField (slotAt i))

/-- The `length` of the slot `i`. -/
def slotLen (p : Page) (i : ℕ) : ℕ := p.get16 (lengthField (slotAt i))

/-- The first deleted slot. -/
def firstDeleted (p : Page) : Option ℕ := (List.range (slotCount p)).find? fun i => slotLen p i = 0

lemma freeStart_lt (p : Page) : freeStart p < 65536 := Buffer.get16_lt _ _

lemma freeEnd_lt (p : Page) : freeEnd p < 65536 := Buffer.get16_lt _ _

lemma firstDeleted_eq_some {p : Page} {i : ℕ} :
    firstDeleted p = some i ↔ i < slotCount p ∧ slotLen p i = 0 ∧ ∀ j < i, slotLen p j ≠ 0 := by
  simp only [firstDeleted, List.find?_range_eq_some, List.mem_range, decide_eq_true_eq,
    Bool.not_eq_true', decide_eq_false_iff_not]
  tauto

lemma firstDeleted_eq_none {p : Page} :
    firstDeleted p = none ↔ ∀ i < slotCount p, slotLen p i ≠ 0 := by
  simp [firstDeleted]

/-! ### Writes to one field -/

section Writes

variable (p : Page) {i : ℕ} (v : ℕ)

lemma get16_put16 {o o' : ℕ} (ho : o + 2 ≤ 4096) (h : o = o' ∨ o' + 2 ≤ o ∨ o + 2 ≤ o') :
    (p.put16 o v).get16 o' = if o = o' then v % 65536 else p.get16 o' := by
  split
  · next heq =>
      subst heq
      exact Buffer.get16_put16_self p v ho
  · exact Buffer.get16_put16_of_ne p v (by omega)

/-- A write to the header leaves the slot directory and the records. -/
lemma slotLen_put16_header {o : ℕ} (ho : o + 2 ≤ 6) (hi : i < 1022) :
    slotLen (p.put16 o v) i = slotLen p i :=
  Buffer.get16_put16_of_ne p v (by simp only [lengthField, slotAt]; omega)

lemma slotOff_put16_header {o : ℕ} (ho : o + 2 ≤ 6) (hi : i < 1022) :
    slotOff (p.put16 o v) i = slotOff p i :=
  Buffer.get16_put16_of_ne p v (by simp only [offsetField, slotAt]; omega)

/-- A write to a slot changes the field that is written, of that slot. -/
lemma slotLen_put16_length (hi : i < 1023) {j : ℕ} (hj : j < 1023) :
    slotLen (p.put16 (lengthField (slotAt i)) v) j = if i = j then v % 65536 else slotLen p j := by
  rw [slotLen, get16_put16 p v (by simp only [lengthField, slotAt]; omega)
    (by simp only [lengthField, slotAt]; omega)]
  exact if_congr (by simp only [lengthField, slotAt]; omega) rfl rfl

lemma slotOff_put16_length (hi : i < 1023) {j : ℕ} (hj : j < 1023) :
    slotOff (p.put16 (lengthField (slotAt i)) v) j = slotOff p j :=
  Buffer.get16_put16_of_ne p v (by simp only [lengthField, offsetField, slotAt]; omega)

lemma slotOff_put16_offset (hi : i < 1023) {j : ℕ} (hj : j < 1023) :
    slotOff (p.put16 (offsetField (slotAt i)) v) j = if i = j then v % 65536 else slotOff p j := by
  rw [slotOff, get16_put16 p v (by simp only [offsetField, slotAt]; omega)
    (by simp only [offsetField, slotAt]; omega)]
  exact if_congr (by simp only [offsetField, slotAt]; omega) rfl rfl

lemma slotLen_put16_offset (hi : i < 1023) {j : ℕ} (hj : j < 1023) :
    slotLen (p.put16 (offsetField (slotAt i)) v) j = slotLen p j :=
  Buffer.get16_put16_of_ne p v (by simp only [lengthField, offsetField, slotAt]; omega)

/-- A write to the directory leaves the header. -/
lemma slotCount_put16 {o : ℕ} (ho : 2 ≤ o) : slotCount (p.put16 o v) = slotCount p :=
  Buffer.get16_put16_of_ne p v (by simp only [slotCountField]; omega)

lemma freeStart_put16 {o : ℕ} (ho : 4 ≤ o ∨ o = 0) : freeStart (p.put16 o v) = freeStart p :=
  Buffer.get16_put16_of_ne p v (by simp only [freeStartField]; omega)

lemma freeEnd_put16 {o : ℕ} (ho : 6 ≤ o ∨ o ≤ 2) : freeEnd (p.put16 o v) = freeEnd p :=
  Buffer.get16_put16_of_ne p v (by simp only [freeEndField]; omega)

lemma slotCount_put16_self : slotCount (p.put16 slotCountField v) = v % 65536 :=
  Buffer.get16_put16_self p v (by simp only [slotCountField, pageSize]; omega)

lemma freeStart_put16_self : freeStart (p.put16 freeStartField v) = v % 65536 :=
  Buffer.get16_put16_self p v (by simp only [freeStartField, pageSize]; omega)

lemma freeEnd_put16_self : freeEnd (p.put16 freeEndField v) = v % 65536 :=
  Buffer.get16_put16_self p v (by simp only [freeEndField, pageSize]; omega)

/-! ### Writes between the header and the directory -/

variable (src : List UInt8) {dst : ℕ}

lemma slotCount_blit (h : 6 ≤ dst) : slotCount (p.blit dst src) = slotCount p :=
  Buffer.get16_blit_of_not_mem p (by simp only [slotCountField]; omega)

lemma freeStart_blit (h : 6 ≤ dst) : freeStart (p.blit dst src) = freeStart p :=
  Buffer.get16_blit_of_not_mem p (by simp only [freeStartField]; omega)

lemma freeEnd_blit (h : 6 ≤ dst) : freeEnd (p.blit dst src) = freeEnd p :=
  Buffer.get16_blit_of_not_mem p (by simp only [freeEndField]; omega)

lemma slotLen_blit (h : dst + src.length + 4 * (i + 1) ≤ 4096) :
    slotLen (p.blit dst src) i = slotLen p i :=
  Buffer.get16_blit_of_not_mem p (by simp only [lengthField, slotAt]; omega)

lemma slotOff_blit (h : dst + src.length + 4 * (i + 1) ≤ 4096) :
    slotOff (p.blit dst src) i = slotOff p i :=
  Buffer.get16_blit_of_not_mem p (by simp only [offsetField, slotAt]; omega)

end Writes

/-! ### The accesses of the code -/

section Accesses

variable (s : PageState)

@[simp] lemma load_page (off : ℕ) : (load off s).2.page = s.page := by
  cases s; rfl

@[simp] lemma load_fst (off : ℕ) : (load off s).1 = s.page.get16 off := by
  cases s; rfl

lemma load_slotCount : (load slotCountField s).1 = slotCount s.page := by
  cases s; rfl

lemma load_freeStart : (load freeStartField s).1 = freeStart s.page := by
  cases s; rfl

lemma load_freeEnd : (load freeEndField s).1 = freeEnd s.page := by
  cases s; rfl

lemma load_length (i : ℕ) : (load (lengthField (slotAt i)) s).1 = slotLen s.page i := by
  cases s; rfl

lemma load_offset (i : ℕ) : (load (offsetField (slotAt i)) s).1 = slotOff s.page i := by
  cases s; rfl

@[simp] lemma store_page (off v : ℕ) : (store off v s).2.page = s.page.put16 off v := by
  cases s; rfl

@[simp] lemma copyIn_page (dst : ℕ) (src : List UInt8) :
    (copyIn dst src s).2.page = s.page.blit dst src := by
  cases s; rfl

@[simp] lemma copyOut_page (src l : ℕ) : (copyOut src l s).2.page = s.page := by
  cases s; rfl

@[simp] lemma copyOut_fst (src l : ℕ) : (copyOut src l s).1 = s.page.slice src l := by
  cases s; rfl

@[simp] lemma move_page (dst src l : ℕ) :
    (PageM.move dst src l s).2.page = s.page.blit dst (s.page.slice src l) := by
  cases s; rfl

@[simp] lemma assign_page (v : ℕ) : (assign v s).2.page = s.page := by
  cases s; rfl

lemma assign_fst {v : ℕ} (h : v < 65536) : (assign v s).1 = v := Nat.mod_eq_of_lt h

@[simp] lemma gap_page (e b : ℕ) : (gap e b s).2.page = s.page := by
  cases s; rfl

lemma gap_fst {e b : ℕ} (h : b ≤ e) (he : e < 65536) : (gap e b s).1 = e - b := by
  simp only [gap]
  omega

@[simp] lemma slotOffset_page (i : ℕ) : (slotOffset i s).2.page = s.page := by
  cases s; rfl

/-- The computation of a slot's place does not wrap for a slot of a page. -/
lemma slotOffset_fst {i : ℕ} (h : i < 1023) : (slotOffset i s).1 = slotAt i := by
  simp only [slotOffset, assign, slotAt, pageSize, sizeofSlot]
  omega

end Accesses

end MiniDb

end CsLab
