/-
A file and the system calls on it.

`File` is one open file with its offset.  A call either does all that was asked or fails
with `-1` and no effect; which calls fail is up to the environment, so the file carries
the whole pattern of failures, by the number of the call.  A file is `Healthy` if none
fails.  Each call has one lemma that says what it does, and one that a healthy file stays
healthy.
-/
import CsLab.Lib.Blocks
import CsLab.Lib.Prog

namespace CsLab

open Blocks Prog

/-- An open file. -/
structure File where
  /-- The content of the file. -/
  bytes : List UInt8
  /-- The file offset. -/
  pos : ℕ
  /-- Whether the call with a number fails. -/
  fails : ℕ → Bool
  /-- How many calls were made. -/
  calls : ℕ

/-- Code that works on one file. -/
abbrev FileM : Type → Type := StateM File

namespace File

/-- A file with this content at offset `0`, and a failure pattern for all calls. -/
def start (bytes : List UInt8) (fails : ℕ → Bool) : File := ⟨bytes, 0, fails, 0⟩

/-- The file after a call was counted. -/
def called (f : File) : File := { f with calls := f.calls + 1 }

/-- `open` of the file, which gives it the descriptor `fd` or fails with a negative one;
`close` does nothing to it -/
def openFile (fd : ℤ) : FileM ℤ := fun f => (fd, if fd < 0 then f else { f with pos := 0 })

/-- `lseek(fd, offset, SEEK_SET)` -/
def lseekSet (offset : ℕ) : FileM ℤ := fun f =>
  if f.fails f.calls then (-1, f.called) else (offset, { f.called with pos := offset })

/-- `lseek(fd, 0, SEEK_END)` -/
def lseekEnd : FileM ℤ := fun f =>
  if f.fails f.calls then (-1, f.called)
  else (f.bytes.length, { f.called with pos := f.bytes.length })

/-- `read(fd, buf, len)`, with the bytes that go to the buffer -/
def read (len : ℕ) : FileM (ℤ × List UInt8) := fun f =>
  if f.fails f.calls then ((-1, []), f.called)
  else
    let data := readAt f.bytes f.pos len
    ((data.length, data), { f.called with pos := f.pos + data.length })

/-- `write(fd, src, length)` -/
def write (src : List UInt8) : FileM ℤ := fun f =>
  if f.fails f.calls then (-1, f.called)
  else (src.length,
    { f.called with bytes := writeAt f.bytes f.pos src, pos := f.pos + src.length })

/-- `pread(fd, buf, len, offset)`, with the bytes that go to the buffer; a negative
offset is refused -/
def pread (len : ℕ) (offset : ℤ) : FileM (ℤ × List UInt8) := fun f =>
  if f.fails f.calls ∨ offset < 0 then ((-1, []), f.called)
  else
    let data := readAt f.bytes offset.toNat len
    ((data.length, data), f.called)

/-- `pwrite(fd, src, length, offset)`; a negative offset is refused -/
def pwrite (src : List UInt8) (offset : ℤ) : FileM ℤ := fun f =>
  if f.fails f.calls ∨ offset < 0 then (-1, f.called)
  else (src.length, { f.called with bytes := writeAt f.bytes offset.toNat src })

/-- No call fails. -/
def Healthy (f : File) : Prop := ∀ i, f.fails i = false

/-- The files differ at most in the offset and in how many calls were made. -/
structure Same (f f' : File) : Prop where
  bytes : f'.bytes = f.bytes
  fails : f'.fails = f.fails

lemma Same.rfl {f : File} : Same f f := ⟨Eq.refl _, Eq.refl _⟩

lemma Same.trans {f f' f'' : File} (h : Same f f') (h' : Same f' f'') : Same f f'' :=
  ⟨h'.bytes.trans h.bytes, h'.fails.trans h.fails⟩

lemma Same.called (f : File) : Same f f.called := ⟨Eq.refl _, Eq.refl _⟩

lemma Same.healthy {f f' : File} (h : Same f f') : Healthy f' ↔ Healthy f := by
  rw [Healthy, Healthy, h.fails]

lemma not_healthy_of_fails {f : File} {i : ℕ} (h : f.fails i = true) : ¬ Healthy f := fun hf => by
  simp [hf i] at h

lemma openFile_spec (fd : ℤ) (f : File) :
    (openFile fd f).1 = fd ∧ Same f (openFile fd f).2 := by
  refine ⟨rfl, ?_⟩
  rw [openFile]
  split
  · exact .rfl
  · exact ⟨rfl, rfl⟩

lemma lseekSet_spec (offset : ℕ) (f : File) :
    Same f (lseekSet offset f).2 ∧
      (((lseekSet offset f).1 = offset ∧ (lseekSet offset f).2.pos = offset) ∨
        ((lseekSet offset f).1 = -1 ∧ ¬ Healthy f)) := by
  rw [lseekSet]
  split
  · next h => exact ⟨.called f, Or.inr ⟨rfl, not_healthy_of_fails h⟩⟩
  · exact ⟨⟨rfl, rfl⟩, Or.inl ⟨rfl, rfl⟩⟩

lemma lseekEnd_spec (f : File) :
    Same f (lseekEnd f).2 ∧
      (((lseekEnd f).1 = f.bytes.length ∧ (lseekEnd f).2.pos = f.bytes.length) ∨
        ((lseekEnd f).1 = -1 ∧ ¬ Healthy f)) := by
  rw [lseekEnd]
  split
  · next h => exact ⟨.called f, Or.inr ⟨rfl, not_healthy_of_fails h⟩⟩
  · exact ⟨⟨rfl, rfl⟩, Or.inl ⟨rfl, rfl⟩⟩

lemma read_spec (len : ℕ) (f : File) :
    Same f (read len f).2 ∧
      ((read len f).1 = (((readAt f.bytes f.pos len).length : ℤ), readAt f.bytes f.pos len) ∨
        ((read len f).1 = (-1, []) ∧ ¬ Healthy f)) := by
  rw [read]
  split
  · next h => exact ⟨.called f, Or.inr ⟨rfl, not_healthy_of_fails h⟩⟩
  · exact ⟨⟨rfl, rfl⟩, Or.inl rfl⟩

lemma write_spec (src : List UInt8) (f : File) :
    ((write src f).1 = src.length ∧ (write src f).2.bytes = writeAt f.bytes f.pos src) ∨
      ((write src f).1 = -1 ∧ (write src f).2.bytes = f.bytes ∧ ¬ Healthy f) := by
  rw [write]
  split
  · next h => exact Or.inr ⟨rfl, rfl, not_healthy_of_fails h⟩
  · exact Or.inl ⟨rfl, rfl⟩

lemma write_fst (src : List UInt8) (f : File) :
    (write src f).1 = if f.fails f.calls then -1 else (src.length : ℤ) := by
  rw [write]
  split <;> rfl

lemma pread_spec (len : ℕ) {offset : ℤ} (hoff : 0 ≤ offset) (f : File) :
    Same f (pread len offset f).2 ∧
      ((pread len offset f).1 =
          (((readAt f.bytes offset.toNat len).length : ℤ), readAt f.bytes offset.toNat len) ∨
        ((pread len offset f).1 = (-1, []) ∧ ¬ Healthy f)) := by
  rw [pread]
  split
  · next h => exact ⟨.called f, Or.inr ⟨rfl, not_healthy_of_fails (h.resolve_right (by omega))⟩⟩
  · exact ⟨.called f, Or.inl rfl⟩

lemma pwrite_spec (src : List UInt8) {offset : ℤ} (hoff : 0 ≤ offset) (f : File) :
    ((pwrite src offset f).1 = src.length ∧
        (pwrite src offset f).2.bytes = writeAt f.bytes offset.toNat src) ∨
      ((pwrite src offset f).1 = -1 ∧ (pwrite src offset f).2.bytes = f.bytes ∧
        ¬ Healthy f) := by
  rw [pwrite]
  split
  · next h => exact Or.inr ⟨rfl, rfl, not_healthy_of_fails (h.resolve_right (by omega))⟩
  · exact Or.inl ⟨rfl, rfl⟩

/-! ### Which calls fail is not changed by a call -/

lemma keeps_lseekSet (offset : ℕ) : Keeps Healthy (lseekSet offset) :=
  fun f hf => (lseekSet_spec offset f).1.healthy.mpr hf

lemma keeps_lseekEnd : Keeps Healthy lseekEnd :=
  fun f hf => (lseekEnd_spec f).1.healthy.mpr hf

lemma keeps_read (len : ℕ) : Keeps Healthy (read len) :=
  fun f hf => (read_spec len f).1.healthy.mpr hf

lemma keeps_write (src : List UInt8) : Keeps Healthy (write src) := by
  intro f hf
  rw [write]
  split <;> exact hf

lemma keeps_pwrite (src : List UInt8) (offset : ℤ) : Keeps Healthy (pwrite src offset) := by
  intro f hf
  rw [pwrite]
  split <;> exact hf

end File

end CsLab
