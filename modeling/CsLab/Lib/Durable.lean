/-
A file on a disk that may lose what was not synced.

`write` changes what the file reads as, but what a crash leaves of the file may be older: every
byte of it is one that the file had at some time since the last `fsync` (`Survives`).  The
environment decides by the number of the call what becomes of a call (`Fate`): it may fail,
transfer a part of the bytes only, or not come back because the machine crashes.

`Allows A` says which bytes may stand where, whatever a crash leaves, and `Spans n` that the
file is `n` bytes long, whatever a crash leaves.
-/
import CsLab.Lib.Blocks

namespace CsLab

open Blocks

namespace Durable

/-- What becomes of a system call. -/
inductive Fate
  | done
  /-- Only the first `n` bytes are transferred. -/
  | short (n : ℕ)
  | fails
  /-- The machine crashes when the first `n` bytes are transferred. -/
  | crash (n : ℕ)
deriving DecidableEq, Repr

/-- Why a program does not go on. -/
inductive Stop
  | exit
  | crash
deriving DecidableEq, Repr

/-- An open file on a disk. -/
structure Disk where
  /-- What the file reads as. -/
  bytes : List UInt8
  /-- What the file read as before, back to the last `fsync`. -/
  past : List (List UInt8)
  /-- The file offset. -/
  pos : ℕ
  /-- What becomes of the call with a number. -/
  fate : ℕ → Fate
  /-- How many calls were made. -/
  calls : ℕ

/-- A program that works on one file; it may stop early. -/
abbrev DiskM : Type → Type := EStateM Stop Disk

namespace Disk

/-- The file with this content on the disk. -/
def start (bytes : List UInt8) (fate : ℕ → Fate) : Disk := ⟨bytes, [], 0, fate, 0⟩

/-- What the file has been since the last `fsync`. -/
def versions (d : Disk) : List (List UInt8) := d.bytes :: d.past

/-- The file after a call was counted. -/
def called (d : Disk) : Disk := { d with calls := d.calls + 1 }

/-- The bytes `part` are transferred to the file. -/
def put (d : Disk) (part : List UInt8) : Disk :=
  if part = [] then d
  else { d with
    bytes := writeAt d.bytes d.pos part
    past := d.versions
    pos := d.pos + part.length }

/-- What a crash may leave of the file. -/
structure Survives (d : Disk) (l : List UInt8) : Prop where
  longer : ∃ v ∈ d.versions, v.length ≤ l.length
  shorter : ∃ v ∈ d.versions, l.length ≤ v.length
  byte : ∀ i, ∃ v ∈ d.versions, l.getD i 0 = v.getD i 0

end Disk

open Disk

/-- `exit(1)` -/
def exit : DiskM Unit := throw .exit

/-- `lseek(fd, offset, SEEK_SET)`; a negative offset is refused -/
def lseekSet (offset : ℤ) : DiskM ℤ := fun d =>
  match d.fate d.calls with
  | .crash _ => .error .crash d.called
  | .fails => .ok (-1) d.called
  | _ => if offset < 0 then .ok (-1) d.called else .ok offset { d.called with pos := offset.toNat }

/-- `write(fd, src, length)` -/
def write (src : List UInt8) : DiskM ℤ := fun d =>
  match d.fate d.calls with
  | .done => .ok src.length (d.called.put src)
  | .short n => .ok (src.take n).length (d.called.put (src.take n))
  | .fails => .ok (-1) d.called
  | .crash n => .error .crash (d.called.put (src.take n))

/-- `read(fd, buf, len)`, with the bytes that go to the buffer -/
def read (len : ℕ) : DiskM (ℤ × List UInt8) := fun d =>
  let transfer (len : ℕ) :=
    let data := readAt d.bytes d.pos len
    .ok ((data.length : ℤ), data) { d.called with pos := d.pos + data.length }
  match d.fate d.calls with
  | .done => transfer len
  | .short n => transfer (min n len)
  | .fails => .ok (-1, []) d.called
  | .crash _ => .error .crash d.called

/-- `fsync(fd)` -/
def fsync : DiskM ℤ := fun d =>
  match d.fate d.calls with
  | .done => .ok 0 { d.called with past := [] }
  | .crash _ => .error .crash d.called
  | _ => .ok (-1) d.called

section Calls

variable {α β : Type}

@[simp] lemma run_bind (x : DiskM α) (f : α → DiskM β) (d : Disk) :
    (x >>= f) d = match x d with
      | .ok a d' => f a d'
      | .error e d' => .error e d' := by
  simp only [bind, EStateM.bind]
  cases x d <;> rfl

@[simp] lemma run_pure (a : α) (d : Disk) : (pure a : DiskM α) d = .ok a d := (rfl)

@[simp] lemma run_ite (c : Prop) [Decidable c] (x y : DiskM α) (d : Disk) :
    (if c then x else y : DiskM α) d = if c then x d else y d := by
  split <;> rfl

@[simp] lemma run_exit (d : Disk) : exit d = .error .exit d := (rfl)

/-- The files differ at most in the offset and in how many calls were made. -/
structure Same (d d' : Disk) : Prop where
  bytes : d'.bytes = d.bytes
  past : d'.past = d.past
  fate : d'.fate = d.fate

lemma Same.rfl {d : Disk} : Same d d := ⟨Eq.refl _, Eq.refl _, Eq.refl _⟩

lemma Same.trans {d d' d'' : Disk} (h : Same d d') (h' : Same d' d'') : Same d d'' :=
  ⟨h'.bytes.trans h.bytes, h'.past.trans h.past, h'.fate.trans h.fate⟩

lemma Same.called (d : Disk) : Same d d.called := ⟨Eq.refl _, Eq.refl _, Eq.refl _⟩

lemma Same.versions {d d' : Disk} (h : Same d d') : d'.versions = d.versions := by
  rw [Disk.versions, Disk.versions, h.bytes, h.past]

lemma versions_put (d : Disk) {part : List UInt8} (h : part ≠ []) :
    (d.put part).versions = writeAt d.bytes d.pos part :: d.versions := by
  rw [put, if_neg h]
  rfl

/-- Every outcome of `lseek`. -/
lemma lseekSet_cases (offset : ℤ) (d : Disk) :
    (∃ d', lseekSet offset d = .error .crash d' ∧ Same d d') ∨
    (∃ d', lseekSet offset d = .ok (-1) d' ∧ Same d d') ∨
    (0 ≤ offset ∧ ∃ d', lseekSet offset d = .ok offset d' ∧ Same d d' ∧
      d'.pos = offset.toNat ∧ d'.calls = d.calls + 1) := by
  simp only [lseekSet]
  split
  · exact .inl ⟨_, rfl, .called d⟩
  · exact .inr (.inl ⟨_, rfl, .called d⟩)
  · split
    · exact .inr (.inl ⟨_, rfl, .called d⟩)
    · exact .inr (.inr ⟨by omega, _, rfl, ⟨rfl, rfl, rfl⟩, rfl, rfl⟩)

/-- Every outcome of `write`: some of the bytes are in the file, and if the call returns, then
those that it says. -/
lemma write_cases (src : List UInt8) (d : Disk) :
    (∃ n, write src d = .error .crash (d.called.put (src.take n))) ∨
    (write src d = .ok (-1) d.called) ∨
    (∃ n, write src d = .ok (src.take n).length (d.called.put (src.take n))) := by
  simp only [write]
  split
  · exact .inr (.inr ⟨src.length, by rw [List.take_length]⟩)
  · exact .inr (.inr ⟨_, rfl⟩)
  · exact .inr (.inl rfl)
  · exact .inl ⟨_, rfl⟩

/-- Every outcome of `fsync`. -/
lemma fsync_cases (d : Disk) :
    (∃ d', fsync d = .error .crash d' ∧ Same d d') ∨
    (∃ d', fsync d = .ok (-1) d' ∧ Same d d') ∨
    (∃ d', fsync d = .ok 0 d' ∧ d'.bytes = d.bytes ∧ d'.past = [] ∧ d'.fate = d.fate) := by
  simp only [fsync]
  split
  · exact .inr (.inr ⟨_, rfl, rfl, rfl, rfl⟩)
  · exact .inl ⟨_, rfl, .called d⟩
  · exact .inr (.inl ⟨_, rfl, .called d⟩)

/-- Every outcome of `read`. -/
lemma read_cases (len : ℕ) (d : Disk) :
    (∃ d', read len d = .error .crash d' ∧ Same d d') ∨
    (∃ d', read len d = .ok (-1, []) d' ∧ Same d d') ∨
    (∃ d' n, read len d =
        .ok (((readAt d.bytes d.pos n).length : ℤ), readAt d.bytes d.pos n) d' ∧ Same d d' ∧
      n ≤ len ∧ (d.fate d.calls = .done → n = len)) := by
  simp only [read]
  split
  · exact .inr (.inr ⟨_, len, rfl, ⟨rfl, rfl, rfl⟩, le_rfl, fun _ => rfl⟩)
  · next h =>
    refine .inr (.inr ⟨_, _, rfl, ⟨rfl, rfl, rfl⟩, min_le_right _ _, fun hdone => ?_⟩)
    rw [h] at hdone
    cases hdone
  · exact .inr (.inl ⟨_, rfl, .called d⟩)
  · exact .inl ⟨_, rfl, .called d⟩

end Calls

/-! ### What a crash may leave -/

/-- Every byte that the file had since the last `fsync` is allowed where it stood. -/
def Allows (A : ℕ → UInt8 → Prop) (d : Disk) : Prop := ∀ v ∈ d.versions, ∀ i, A i (v.getD i 0)

/-- The file had at least `n` bytes since the last `fsync`. -/
def Spans (n : ℕ) (d : Disk) : Prop := ∀ v ∈ d.versions, n ≤ v.length

section Allows

variable {A B : ℕ → UInt8 → Prop} {d d' : Disk} {n : ℕ} {l part : List UInt8}

lemma Allows.mono (h : Allows A d) (hAB : ∀ i b, A i b → B i b) : Allows B d :=
  fun v hv i => hAB i _ (h v hv i)

lemma Allows.same (h : Allows A d) (hsame : Same d d') : Allows A d' := by
  rw [Allows, hsame.versions]
  exact h

lemma Allows.writeAt (h : Allows A d) (hpart : ∀ k < part.length, A (d.pos + k) (part.getD k 0))
    (i : ℕ) : A i ((writeAt d.bytes d.pos part).getD i 0) := by
  rw [getD_writeAt]
  split
  · next hi =>
    have hk := hpart (i - d.pos) (by omega)
    rwa [Nat.add_sub_cancel' hi.1] at hk
  · exact h _ (List.mem_cons_self ..) i

lemma Allows.put (h : Allows A d)
    (hpart : ∀ k < part.length, A (d.pos + k) (part.getD k 0)) : Allows A (d.put part) := by
  by_cases hnil : part = []
  · rwa [Disk.put, if_pos hnil]
  · rw [Allows, versions_put d hnil, List.forall_mem_cons]
    exact ⟨h.writeAt hpart, h⟩

/-- A crash may leave the file as it reads. -/
lemma survives_bytes (d : Disk) : Survives d d.bytes :=
  ⟨⟨_, List.mem_cons_self .., le_rfl⟩, ⟨_, List.mem_cons_self .., le_rfl⟩,
    fun _ => ⟨_, List.mem_cons_self .., rfl⟩⟩

/-- What a crash leaves is allowed. -/
lemma Allows.survives (h : Allows A d) (hl : Survives d l) (i : ℕ) : A i (l.getD i 0) := by
  obtain ⟨v, hv, hbyte⟩ := hl.byte i
  rw [hbyte]
  exact h v hv i

lemma Spans.same (h : Spans n d) (hsame : Same d d') : Spans n d' := by
  rw [Spans, hsame.versions]
  exact h

lemma Spans.put (h : Spans n d) (part : List UInt8) : Spans n (d.put part) := by
  by_cases hnil : part = []
  · rwa [Disk.put, if_pos hnil]
  · rw [Spans, versions_put d hnil, List.forall_mem_cons, length_writeAt]
    exact ⟨(h _ (List.mem_cons_self ..)).trans (le_max_left _ _), h⟩

lemma Spans.survives (h : Spans n d) (hl : Survives d l) : n ≤ l.length := by
  obtain ⟨v, hv, hle⟩ := hl.longer
  exact (h v hv).trans hle

/-- On the disk there is one version only. -/
lemma mem_versions_synced (hpast : d.past = []) {v : List UInt8} :
    v ∈ d.versions ↔ v = d.bytes := by
  rw [versions, hpast, List.mem_singleton]

end Allows

end Durable

end CsLab
