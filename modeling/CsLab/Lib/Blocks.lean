/-
Files that are made of blocks.

The content of a file is a list of bytes.  `readAt` and `writeAt` are what a transfer
at an offset reads from it and makes of it, and `flat bs` is the content that consists
of the blocks `bs`.  A file has any length, so in general its content is
`flat bs ++ tail` for the blocks `bs` it is made of and a `tail` that is shorter than a
block.
-/
import Mathlib.Data.List.OfFn
import CsLab.Lib.Buffer

namespace CsLab

namespace Blocks

/-! ### Transfers at an offset -/

/-- The bytes that a read of `len` bytes at `off` transfers. -/
def readAt (l : List UInt8) (off len : ℕ) : List UInt8 := (l.drop off).take len

/-- The content after a write of the non-empty `src` at `off`; a hole reads as zeros. -/
def writeAt (l : List UInt8) (off : ℕ) (src : List UInt8) : List UInt8 :=
  l.take off ++ List.replicate (off - l.length) 0 ++ src ++ l.drop (off + src.length)

lemma length_readAt (l : List UInt8) (off len : ℕ) :
    (readAt l off len).length = min len (l.length - off) := by
  rw [readAt, List.length_take, List.length_drop]

@[simp] lemma length_writeAt (l : List UInt8) (off : ℕ) (src : List UInt8) :
    (writeAt l off src).length = max l.length (off + src.length) := by
  simp only [writeAt, List.length_append, List.length_take, List.length_replicate,
    List.length_drop]
  omega

lemma getD_readAt (l : List UInt8) {off len i : ℕ} (h : i < len) :
    (readAt l off len).getD i 0 = l.getD (off + i) 0 := by
  simp only [readAt, List.getD_eq_getElem?_getD]
  rw [List.getElem?_take_of_lt h, List.getElem?_drop]

lemma getD_writeAt (l : List UInt8) (off : ℕ) (src : List UInt8) (i : ℕ) :
    (writeAt l off src).getD i 0 =
      if off ≤ i ∧ i < off + src.length then src.getD (i - off) 0 else l.getD i 0 := by
  simp only [writeAt, List.getD_eq_getElem?_getD, List.append_assoc]
  rcases Nat.lt_or_ge i off with hi | hi
  · rw [if_neg (by omega)]
    rcases Nat.lt_or_ge i l.length with hl | hl
    · rw [List.getElem?_append_left (by simp only [List.length_take]; omega),
        List.getElem?_take_of_lt hi]
    · -- a byte of the hole
      rw [List.getElem?_append_right (by simp only [List.length_take]; omega),
        List.getElem?_append_left (by simp only [List.length_take, List.length_replicate]; omega),
        List.getElem?_replicate_of_lt (by simp only [List.length_take]; omega),
        List.getElem?_eq_none hl]
      rfl
  · rw [List.getElem?_append_right (by simp only [List.length_take]; omega),
      List.getElem?_append_right (by simp only [List.length_take, List.length_replicate]; omega)]
    have hsub : i - (l.take off).length - (List.replicate (off - l.length) (0 : UInt8)).length =
        i - off := by
      simp only [List.length_take, List.length_replicate]
      omega
    rw [hsub]
    by_cases hlt : i < off + src.length
    · rw [if_pos ⟨hi, hlt⟩, List.getElem?_append_left (by omega)]
    · rw [if_neg (by omega), List.getElem?_append_right (by omega), List.getElem?_drop]
      congr 2
      omega

lemma readAt_append_right (pre l : List UInt8) (off len : ℕ) :
    readAt (pre ++ l) (pre.length + off) len = readAt l off len := by
  rw [readAt, readAt, List.drop_append, List.drop_eq_nil_of_le (Nat.le_add_right _ _),
    List.nil_append, Nat.add_sub_cancel_left]

lemma writeAt_append_right (pre l : List UInt8) (off : ℕ) (src : List UInt8) :
    writeAt (pre ++ l) (pre.length + off) src = pre ++ writeAt l off src := by
  simp only [writeAt, List.take_length_add_append, List.length_append, Nat.add_sub_add_left,
    Nat.add_assoc, List.drop_length_add_append, List.append_assoc]

/-! ### The content that consists of blocks -/

variable {n : ℕ}

/-- The bytes of the blocks, one block after the other. -/
def flat (bs : List (Buffer n)) : List UInt8 := bs.flatMap Buffer.bytes

@[simp] lemma flat_nil : flat ([] : List (Buffer n)) = [] := rfl

@[simp] lemma flat_cons (b : Buffer n) (bs : List (Buffer n)) :
    flat (b :: bs) = b.bytes ++ flat bs := rfl

@[simp] lemma flat_append (bs bs' : List (Buffer n)) : flat (bs ++ bs') = flat bs ++ flat bs' :=
  List.flatMap_append

@[simp] lemma length_flat (bs : List (Buffer n)) : (flat bs).length = bs.length * n := by
  induction bs with
  | nil => simp
  | cons b bs ih => rw [flat_cons, List.length_append, ih, b.length_bytes, List.length_cons,
      Nat.succ_mul, Nat.add_comm]

lemma readAt_flat (bs : List (Buffer n)) (tail : List UInt8) {i : ℕ} (hi : i < bs.length) :
    readAt (flat bs ++ tail) (i * n) n = bs[i].bytes := by
  induction bs generalizing i with
  | nil => simp at hi
  | cons b bs ih =>
    rw [flat_cons, List.append_assoc]
    cases i with
    | zero =>
      rw [Nat.zero_mul, readAt, List.drop_zero, List.take_append_of_le_length (by simp),
        List.take_of_length_le (by simp)]
      rfl
    | succ i =>
      have hoff : (i + 1) * n = b.bytes.length + i * n := by
        rw [b.length_bytes, Nat.succ_mul, Nat.add_comm]
      rw [hoff, readAt_append_right, ih (by simpa using hi)]
      rfl

/-- A read behind the last block comes out short. -/
lemma length_readAt_flat_lt (bs : List (Buffer n)) {tail : List UInt8} (htail : tail.length < n)
    {i : ℕ} (hi : bs.length ≤ i) : (readAt (flat bs ++ tail) (i * n) n).length < n := by
  have hmul : bs.length * n ≤ i * n := Nat.mul_le_mul_right n hi
  rw [length_readAt, List.length_append, length_flat]
  omega

lemma writeAt_flat (bs : List (Buffer n)) (tail : List UInt8) (b : Buffer n) {i : ℕ}
    (hi : i < bs.length) :
    writeAt (flat bs ++ tail) (i * n) b.bytes = flat (bs.set i b) ++ tail := by
  induction bs generalizing i with
  | nil => simp at hi
  | cons c bs ih =>
    rw [flat_cons, List.append_assoc]
    cases i with
    | zero =>
      have hdrop : (c.bytes ++ (flat bs ++ tail)).drop n = flat bs ++ tail := by
        rw [List.drop_append_of_le_length (by simp), List.drop_eq_nil_of_le (by simp),
          List.nil_append]
      simp [writeAt, hdrop]
    | succ i =>
      have hoff : (i + 1) * n = c.bytes.length + i * n := by
        rw [c.length_bytes, Nat.succ_mul, Nat.add_comm]
      rw [hoff, writeAt_append_right, ih (by simpa using hi), List.set_cons_succ, flat_cons,
        List.append_assoc]

/-- A write right behind the last block adds a block, over the first bytes of the tail. -/
lemma writeAt_flat_end (bs : List (Buffer n)) (tail : List UInt8) (b : Buffer n) :
    writeAt (flat bs ++ tail) (bs.length * n) b.bytes = flat (bs ++ [b]) ++ tail.drop n := by
  have hoff : bs.length * n = (flat bs).length + 0 := by simp
  rw [hoff, writeAt_append_right]
  simp [writeAt]

/-! ### The blocks of a content -/

/-- The complete blocks of a content. -/
def blocks (n : ℕ) (l : List UInt8) : List (Buffer n) :=
  List.ofFn fun i : Fin (l.length / n) => ⟨readAt l (i * n) n, by
    have hi : (i + 1) * n ≤ l.length :=
      (Nat.mul_le_mul_right n i.isLt).trans (Nat.div_mul_le_self _ _)
    rw [Nat.succ_mul] at hi
    rw [length_readAt]
    omega⟩

@[simp] lemma length_blocks (n : ℕ) (l : List UInt8) : (blocks n l).length = l.length / n := by
  simp [blocks]

lemma length_flat_div (bs : List (Buffer n)) {tail : List UInt8} (htail : tail.length < n) :
    (flat bs ++ tail).length / n = bs.length := by
  rw [List.length_append, length_flat, Nat.mul_comm, Nat.mul_add_div (by omega),
    Nat.div_eq_of_lt htail, Nat.add_zero]

/-- The blocks of a content are the blocks it is made of. -/
lemma blocks_flat (bs : List (Buffer n)) {tail : List UInt8} (htail : tail.length < n) :
    blocks n (flat bs ++ tail) = bs := by
  apply List.ext_getElem
  · rw [length_blocks, length_flat_div bs htail]
  · intro i hi hi'
    have hread := readAt_flat bs tail hi'
    cases hb : bs[i] with
    | mk bytes hbytes =>
      rw [hb] at hread
      simp only [blocks, List.getElem_ofFn, hread]

/-- Every content consists of blocks and a tail that is shorter than a block. -/
lemma exists_flat (hn : 0 < n) (l : List UInt8) :
    ∃ (bs : List (Buffer n)) (tail : List UInt8), l = flat bs ++ tail ∧ tail.length < n := by
  induction hl : l.length using Nat.strong_induction_on generalizing l with
  | _ k ih =>
    rcases Nat.lt_or_ge l.length n with hlt | hge
    · exact ⟨[], l, rfl, hlt⟩
    · obtain ⟨bs, tail, heq, htail⟩ := ih (l.drop n).length (by simp; omega) (l.drop n) rfl
      refine ⟨⟨l.take n, by simpa using hge⟩ :: bs, tail, ?_, htail⟩
      rw [flat_cons, List.append_assoc, ← heq, List.take_append_drop]

/-- What lies behind the last block of a content. -/
def ragged (n : ℕ) (l : List UInt8) : List UInt8 := l.drop (l.length / n * n)

lemma ragged_flat (bs : List (Buffer n)) {tail : List UInt8} (htail : tail.length < n) :
    ragged n (flat bs ++ tail) = tail := by
  rw [ragged, length_flat_div bs htail, ← length_flat bs, List.drop_left]

end Blocks

end CsLab
