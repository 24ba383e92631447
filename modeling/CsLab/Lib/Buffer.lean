/-
Byte buffers of a fixed size.

A buffer is what a C program declares as `char buf[n]`: `n` bytes, read and
written at offsets that nothing checks.  Writes that fall outside the buffer are
dropped and reads outside it give `0`; a user of the library shows separately
that it makes none.

Besides single bytes the library has 16-bit little-endian words, the bulk write
of a list of bytes (`memcpy` into the buffer) and the bulk copy inside the buffer
(`memmove`).
-/
import Mathlib.Algebra.Order.Ring.Int
import Mathlib.Data.List.Basic
import Mathlib.Data.List.GetD
import Mathlib.Tactic.Common

namespace CsLab

/-- Overwrite the bytes of `mem` from the position `off` on by `src`; bytes of
`src` that fall behind the end of `mem` are dropped. -/
def overlay : ℕ → List UInt8 → List UInt8 → List UInt8
  | _, _, [] => []
  | 0, [], mem => mem
  | 0, x :: src, _ :: mem => x :: overlay 0 src mem
  | off + 1, src, y :: mem => y :: overlay off src mem

@[simp] lemma length_overlay (off : ℕ) (src mem : List UInt8) :
    (overlay off src mem).length = mem.length := by
  fun_induction overlay off src mem with
  | case1 => rfl
  | case2 => rfl
  | case3 x src y mem ih => simp [ih]
  | case4 off src y mem ih => simp [ih]

lemma getD_overlay (off : ℕ) (src mem : List UInt8) (i : ℕ) :
    (overlay off src mem).getD i 0 =
      if off ≤ i ∧ i < off + src.length ∧ i < mem.length then src.getD (i - off) 0
      else mem.getD i 0 := by
  fun_induction overlay off src mem generalizing i with
  | case1 off src => simp
  | case2 mem => simp
  | case3 x src y mem ih =>
    cases i with
    | zero => simp
    | succ i => simpa [Nat.add_comm 1] using ih i
  | case4 off src y mem ih =>
    cases i with
    | zero => simp
    | succ i =>
      have hsub : i + 1 - (off + 1) = i - off := by omega
      have hlt : i + 1 < off + 1 + src.length ↔ i < off + src.length := by omega
      simpa [hsub, hlt] using ih i

/-- A buffer of `n` bytes. -/
structure Buffer (n : ℕ) where
  /-- The bytes, from offset `0` on. -/
  bytes : List UInt8
  length_bytes : bytes.length = n
deriving DecidableEq

namespace Buffer

variable {n : ℕ}

attribute [simp] length_bytes

/-- The byte at an offset. -/
def get (b : Buffer n) (i : ℕ) : UInt8 := b.bytes.getD i 0

/-- Two buffers with the same bytes are equal. -/
@[ext] lemma ext {a b : Buffer n} (h : ∀ i < n, a.get i = b.get i) : a = b := by
  obtain ⟨as, ha⟩ := a
  obtain ⟨bs, hb⟩ := b
  have hlist : as = bs := by
    apply List.ext_getElem (ha.trans hb.symm)
    intro i hi hi'
    have hget := h i (ha ▸ hi)
    rwa [get, get, List.getD_eq_getElem _ _ hi, List.getD_eq_getElem _ _ hi'] at hget
  subst hlist
  rfl

lemma bytes_inj {a b : Buffer n} : a.bytes = b.bytes ↔ a = b := by
  cases a
  cases b
  simp

/-- The buffer of `n` zero bytes. -/
def zero (n : ℕ) : Buffer n := ⟨List.replicate n 0, List.length_replicate⟩

@[simp] lemma get_zero (i : ℕ) : (zero n).get i = 0 := by
  rcases Nat.lt_or_ge i n with hi | hi
  · rw [get, zero, List.getD_eq_getElem _ _ (by simpa using hi), List.getElem_replicate]
  · rw [get, zero, List.getD_eq_default _ _ (by simpa using hi)]

/-! ### Bulk writes -/

/-- Write the bytes `src` at the offset `off`. -/
def blit (b : Buffer n) (off : ℕ) (src : List UInt8) : Buffer n :=
  ⟨overlay off src b.bytes, by simp⟩

lemma get_blit (b : Buffer n) (off : ℕ) (src : List UInt8) (i : ℕ) :
    (b.blit off src).get i =
      if off ≤ i ∧ i < off + src.length ∧ i < n then src.getD (i - off) 0 else b.get i := by
  rw [get, blit, getD_overlay, b.length_bytes]
  rfl

lemma get_blit_of_not_mem (b : Buffer n) {off : ℕ} {src : List UInt8} {i : ℕ}
    (h : i < off ∨ off + src.length ≤ i) : (b.blit off src).get i = b.get i := by
  rw [get_blit, if_neg (by omega)]

lemma get_blit_of_mem (b : Buffer n) {off : ℕ} {src : List UInt8} {i : ℕ}
    (h : off ≤ i) (h' : i < off + src.length) (hn : i < n) :
    (b.blit off src).get i = src.getD (i - off) 0 := by
  rw [get_blit, if_pos ⟨h, h', hn⟩]

/-- A write of `n` bytes at offset `0` replaces the whole buffer. -/
lemma blit_zero_bytes (b c : Buffer n) : b.blit 0 c.bytes = c := by
  apply ext
  intro i hi
  rw [get_blit_of_mem b (Nat.zero_le i) (by simpa using hi) hi]
  rfl

/-! ### Slices -/

/-- The `len` bytes from the offset `off` on. -/
def slice (b : Buffer n) (off len : ℕ) : List UInt8 := (b.bytes.drop off).take len

lemma length_slice (b : Buffer n) {off len : ℕ} (h : off + len ≤ n) :
    (b.slice off len).length = len := by
  simp only [slice, List.length_take, List.length_drop, length_bytes]
  omega

lemma getD_slice (b : Buffer n) (off : ℕ) {len i : ℕ} (h : i < len) :
    (b.slice off len).getD i 0 = b.get (off + i) := by
  simp only [slice, get, List.getD_eq_getElem?_getD]
  rw [List.getElem?_take_of_lt h, List.getElem?_drop]

/-- A slice is determined by its bytes. -/
lemma slice_eq_iff (b : Buffer n) {off : ℕ} {l : List UInt8} (h : off + l.length ≤ n) :
    b.slice off l.length = l ↔ ∀ i < l.length, b.get (off + i) = l.getD i 0 := by
  constructor
  · intro heq i hi
    rw [← getD_slice b off hi, heq]
  · intro hget
    apply List.ext_getElem (length_slice b h)
    intro i hi hi'
    have hgi := hget i hi'
    rwa [← getD_slice b off hi', List.getD_eq_getElem _ _ hi, List.getD_eq_getElem _ _ hi'] at hgi

/-- Slices of two buffers agree when the bytes they read agree. -/
lemma slice_congr {m : ℕ} (a : Buffer n) (b : Buffer m) {off off' len : ℕ}
    (ha : off + len ≤ n) (hb : off' + len ≤ m) :
    a.slice off len = b.slice off' len ↔ ∀ i < len, a.get (off + i) = b.get (off' + i) := by
  have hlen := length_slice b hb
  have hiff := slice_eq_iff a (show off + (b.slice off' len).length ≤ n by omega)
  rw [hlen] at hiff
  rw [hiff]
  constructor
  · intro h i hi
    rw [h i hi, getD_slice b off' hi]
  · intro h i hi
    rw [h i hi, getD_slice b off' hi]

/-! ### Words -/

/-- The little-endian 16-bit word at an offset. -/
def get16 (b : Buffer n) (off : ℕ) : ℕ := (b.get off).toNat + 256 * (b.get (off + 1)).toNat

/-- Store the 16 low bits of `v` at an offset, little-endian. -/
def put16 (b : Buffer n) (off v : ℕ) : Buffer n :=
  b.blit off [UInt8.ofNat v, UInt8.ofNat (v / 256)]

lemma get16_lt (b : Buffer n) (off : ℕ) : b.get16 off < 65536 := by
  have h₀ := (b.get off).toNat_lt
  have h₁ := (b.get (off + 1)).toNat_lt
  simp only [get16]
  omega

/-- A word determines its two bytes. -/
lemma get_eq_of_get16_eq {a b : Buffer n} {off : ℕ} (h : a.get16 off = b.get16 off) :
    a.get off = b.get off ∧ a.get (off + 1) = b.get (off + 1) := by
  have ha := (a.get off).toNat_lt
  have hb := (b.get off).toNat_lt
  simp only [get16] at h
  exact ⟨UInt8.toNat_inj.mp (by omega), UInt8.toNat_inj.mp (by omega)⟩

/-- A stored word is read back without its high bits. -/
lemma get16_put16_self (b : Buffer n) {off : ℕ} (v : ℕ) (h : off + 2 ≤ n) :
    (b.put16 off v).get16 off = v % 65536 := by
  rw [get16, put16, get_blit_of_mem b (Nat.le_refl off) (by simp) (by omega),
    get_blit_of_mem b (by omega) (by simp) (by omega)]
  simp
  omega

lemma get_put16_of_ne (b : Buffer n) {off i : ℕ} (v : ℕ) (h : i < off ∨ off + 2 ≤ i) :
    (b.put16 off v).get i = b.get i :=
  get_blit_of_not_mem b (by simpa using h)

/-- A word outside the two bytes that were stored is unchanged. -/
lemma get16_put16_of_ne (b : Buffer n) {off i : ℕ} (v : ℕ) (h : i + 2 ≤ off ∨ off + 2 ≤ i) :
    (b.put16 off v).get16 i = b.get16 i := by
  rw [get16, get16, get_put16_of_ne b v (by omega), get_put16_of_ne b v (by omega)]

/-- A word outside the bytes of a bulk write is unchanged. -/
lemma get16_blit_of_not_mem (b : Buffer n) {off i : ℕ} {src : List UInt8}
    (h : i + 2 ≤ off ∨ off + src.length ≤ i) : (b.blit off src).get16 i = b.get16 i := by
  rw [get16, get16, get_blit_of_not_mem b (by omega), get_blit_of_not_mem b (by omega)]

end Buffer

end CsLab
