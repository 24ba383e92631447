/-
A program with several handles on one heap file.

Each `HeapFile` has a descriptor of its own, with an offset of its own, and is opened and closed
at any time, also again.  The calls do not overlap, and none of their calls on the file fails.
Then it does not matter which handle makes a call: the file is that of a program with one handle
that makes the same calls (`one_handle`).

`heap_open` does not look at what the handle holds, so a handle that is open, and is opened again,
loses its descriptor.  Nothing else can happen to the descriptors (`no_leak_iff`).
-/
import CsLab.Lib.Ledger
import CsLab.Lib.Log
import CsLab.MiniDb.HeapRuns

namespace CsLab

namespace MiniDb

namespace Handles

open File Prog Ledger

/-- The handles of the program, and what the kernel keeps for it. -/
structure State where
  /-- The content of the file. -/
  bytes : List UInt8
  /-- A handle is `none` before it was opened for the first time. -/
  heaps : ℕ → Option HeapFile
  /-- The offset of an open descriptor. -/
  offset : ℤ → Option ℕ
  /-- Which descriptors were opened and closed, oldest first. -/
  ops : List (Op ℤ)

/-- The calls of the heap file on an open handle. -/
def Access : HeapCall → Prop
  | .reopen _ => False
  | _ => True

/-- What a call returns when the handle is closed. -/
def refusal : HeapCall → HeapRet
  | .insert _ rid => .insert (-1) rid
  | .get _ buffer => .get (-1) buffer
  | .delete _ => .delete (-1)
  | .pageCount => .pageCount 0
  | .reopen _ => .reopen (-1)

/-- What the program does, and what it gets. -/
inductive Event where
  /-- `heap_open(&heaps[h])`, where `open` returns `fd` -/
  | opened (h : ℕ) (fd ret : ℤ)
  /-- `heap_close(&heaps[h])` -/
  | closed (h : ℕ)
  /-- a call with the handle `h`, which has the descriptor `fd` -/
  | called (h : ℕ) (fd : ℤ) (c : HeapCall) (ret : HeapRet)

namespace State

/-- The file as it is seen through a descriptor; calls on one that is not open fail. -/
def file (s : State) (fd : ℤ) : File :=
  ⟨s.bytes, (s.offset fd).getD 0, fun _ => (s.offset fd).isNone, 0⟩

def opened (s : State) (h : ℕ) (fd : ℤ) : ℤ × State :=
  let out := heapOpen (some ((s.heaps h).getD ⟨-1⟩)) (some "test_heap.db") fd (s.file fd)
  (out.1.1, { s with
    heaps := Function.update s.heaps h out.1.2
    offset := if fd < 0 then s.offset else Function.update s.offset fd (some out.2.pos)
    ops := if fd < 0 then s.ops else s.ops ++ [.acquire fd] })

/-- `heap_close` closes the descriptor if it is not negative. -/
def closed (s : State) (h : ℕ) (heap : HeapFile) : State :=
  let out := heapClose (some heap) (s.file heap.fd)
  { s with
    heaps := Function.update s.heaps h out.1
    offset := if 0 ≤ heap.fd then Function.update s.offset heap.fd none else s.offset
    ops := if 0 ≤ heap.fd then s.ops ++ [.release heap.fd] else s.ops }

def called (s : State) (heap : HeapFile) (c : HeapCall) : HeapRet × State :=
  let out := c.exec ⟨heap, s.file heap.fd⟩
  (out.1, { s with
    bytes := out.2.file.bytes
    offset := Function.update s.offset heap.fd
      ((s.offset heap.fd).map fun _ => out.2.file.pos) })

/-- The handle has a descriptor. -/
def HasFd (s : State) (h : ℕ) (fd : ℤ) : Prop := 0 ≤ fd ∧ s.heaps h = some ⟨fd⟩

end State

/-- The program does something.  A handle is opened before anything else is done with it, and
`open` returns a number that is not in use. -/
inductive Step : State → Event → State → Prop
  | opened (h : ℕ) (fd : ℤ) {s : State} (hfd : fd < 0 ∨ s.offset fd = none) :
      Step s (.opened h fd (s.opened h fd).1) (s.opened h fd).2
  | closed (h : ℕ) {heap : HeapFile} {s : State} (hheap : s.heaps h = some heap) :
      Step s (.closed h) (s.closed h heap)
  | called (h : ℕ) {heap : HeapFile} (c : HeapCall) {s : State} (hheap : s.heaps h = some heap)
      (hc : Access c) (hroom : Roomy (s.file heap.fd)) :
      Step s (.called h heap.fd c (s.called heap c).1) (s.called heap c).2

/-- The file is empty, and no handle was opened yet. -/
def start : State := ⟨[], fun _ => none, fun _ => none, []⟩

section Calls

variable {heap : HeapFile} {f : File} {fd : ℤ}

lemma heapOpen_run (heap : HeapFile) (filename : String) (fd : ℤ) (f : File) :
    heapOpen (some heap) (some filename) fd f =
      ((if fd < 0 then -1 else 0, some ⟨fd⟩), (openFile fd f).2) := by
  simp only [heapOpen, run_bind, run_ite, (openFile_spec fd f).1]
  split <;> rfl

lemma heapClose_run (heap : HeapFile) (f : File) :
    heapClose (some heap) f = (some ⟨if 0 ≤ heap.fd then -1 else heap.fd⟩, f) := by
  simp only [heapClose, run_ite]
  split <;> rfl

/-- A call with a closed handle does nothing. -/
lemma exec_closed (hfd : heap.fd < 0) {c : HeapCall} (hc : Access c) (f : File) :
    c.exec ⟨heap, f⟩ = (refusal c, ⟨heap, f⟩) := by
  have hcount : heapPageCount (some heap) f = (0, f) := by
    simp only [heapPageCount, run_ite, if_pos hfd, run_pure]
  cases c with
  | insert record rid =>
    have halloc : pageAllocate heap.fd f = (-1, f) := by
      simp only [pageAllocate, run_ite, if_pos hfd, run_pure]
    have hexec : heapInsert (some heap) record rid f = ((-1, rid), f) := by
      cases record with
      | none => rfl
      | some r =>
        cases rid with
        | none => rfl
        | some rid =>
          simp only [heapInsert, run_bind, run_ite, hcount, heapInsertLoop, run_pure, halloc]
          split <;> rfl
    simp only [HeapCall.exec, hexec, refusal]
  | get rid buffer =>
    have hexec : heapGet (some heap) rid buffer f = ((-1, buffer), f) := by
      cases buffer with
      | none => rfl
      | some buffer =>
        simp only [heapGet, run_bind, run_ite, hcount, run_pure]
        split
        · rfl
        · exact if_pos (Nat.zero_le _)
    simp only [HeapCall.exec, hexec, refusal]
  | delete rid =>
    have hexec : heapDelete (some heap) rid f = (-1, f) := by
      simp only [heapDelete, run_ite, if_pos hfd, run_pure]
    simp only [HeapCall.exec, hexec, refusal]
  | pageCount => simp only [HeapCall.exec, hcount, refusal]
  | reopen fd => exact hc.elim

end Calls

/-! ### The descriptors -/

/-- The handles have different descriptors, and all of them are open. -/
structure Inv (s : State) : Prop where
  is_open : ∀ h fd, s.HasFd h fd → s.offset fd ≠ none
  inj : ∀ h h' fd, s.HasFd h fd → s.HasFd h' fd → h = h'
  nonneg : ∀ fd, s.offset fd ≠ none → 0 ≤ fd
  balanced : Balanced ∅ s.ops
  held : ∀ fd, fd ∈ held ∅ s.ops ↔ s.offset fd ≠ none

section Descriptors

variable {s s' : State} {e : Event} {es : List Event} {h h' : ℕ} {fd fd' : ℤ} {heap : HeapFile}
  {c : HeapCall}

namespace State

lemma hasFd_opened : (s.opened h fd).2.HasFd h' fd' ↔
    if h' = h then 0 ≤ fd' ∧ fd' = fd else s.HasFd h' fd' := by
  simp only [opened, HasFd, heapOpen_run, Function.update_apply]
  split <;> simp [eq_comm]

lemma hasFd_closed : (s.closed h heap).HasFd h' fd' ↔ h' ≠ h ∧ s.HasFd h' fd' := by
  simp only [closed, HasFd, heapClose_run, Function.update_apply]
  split
  · next heq =>
    refine iff_of_false ?_ fun hne => hne.1 heq
    rintro ⟨hpos, hfd⟩
    rw [Option.some.injEq, HeapFile.mk.injEq] at hfd
    split at hfd <;> omega
  · next hne => simp [hne]

lemma hasFd_called : (s.called heap c).2.HasFd h fd ↔ s.HasFd h fd := Iff.rfl

lemma offset_opened : (s.opened h fd).2.offset fd' ≠ none ↔
    (fd' = fd ∧ 0 ≤ fd) ∨ s.offset fd' ≠ none := by
  simp only [opened]
  split
  · next hneg => simp [not_le.mpr hneg]
  · next hpos =>
    rw [Function.update_apply]
    split
    · next heq => simp [heq, not_lt.mp hpos]
    · next hne => simp [hne]

lemma offset_closed : (s.closed h heap).offset fd' ≠ none ↔
    ¬ (fd' = heap.fd ∧ 0 ≤ heap.fd) ∧ s.offset fd' ≠ none := by
  simp only [closed]
  split
  · next hpos =>
    rw [Function.update_apply]
    split
    · next heq => simp [heq, hpos]
    · next hne => simp [hne]
  · next hneg => simp [hneg]

lemma offset_called : (s.called heap c).2.offset fd' ≠ none ↔ s.offset fd' ≠ none := by
  simp only [called, Function.update_apply]
  split
  · next heq => simp [heq]
  · rfl

end State

lemma inv_start : Inv start := by
  constructor <;> simp [start, State.HasFd]

lemma Inv.opened (hs : Inv s) (hfd : fd < 0 ∨ s.offset fd = none) : Inv (s.opened h fd).2 := by
  have hother : ∀ h', ¬ s.HasFd h' fd := fun h' hhas => by
    have hopen := hs.is_open h' fd hhas
    exact hfd.elim (fun hneg => absurd hhas.1 (not_le.mpr hneg)) fun hnone => hopen hnone
  refine ⟨fun h' fd' hhas => ?_, fun h₁ h₂ fd' h₁has h₂has => ?_, fun fd' hopen => ?_, ?_,
    fun fd' => ?_⟩
  · rw [State.hasFd_opened] at hhas
    rw [State.offset_opened]
    split at hhas
    · exact .inl ⟨hhas.2, hhas.2 ▸ hhas.1⟩
    · exact .inr (hs.is_open h' fd' hhas)
  · rw [State.hasFd_opened] at h₁has h₂has
    split at h₁has <;> split at h₂has
    · next h₁eq h₂eq => rw [h₁eq, h₂eq]
    · exact absurd (h₁has.2 ▸ h₂has) (hother h₂)
    · exact absurd (h₂has.2 ▸ h₁has) (hother h₁)
    · exact hs.inj h₁ h₂ fd' h₁has h₂has
  · rw [State.offset_opened] at hopen
    rcases hopen with ⟨rfl, hpos⟩ | hopen
    · exact hpos
    · exact hs.nonneg fd' hopen
  · simp only [State.opened]
    split
    · exact hs.balanced
    · next hpos =>
      rw [balanced_append, balanced_singleton]
      refine ⟨hs.balanced, fun hmem => ?_⟩
      exact (hs.held fd).mp hmem (hfd.resolve_left hpos)
  · rw [State.offset_opened, ← hs.held]
    simp only [State.opened]
    split
    · next hneg => simp [not_le.mpr hneg]
    · next hpos => simp [not_lt.mp hpos]

lemma Inv.closed (hs : Inv s) (hheap : s.heaps h = some heap) : Inv (s.closed h heap) := by
  refine ⟨fun h' fd' hhas => ?_, fun h₁ h₂ fd' h₁has h₂has => ?_, fun fd' hopen => ?_, ?_,
    fun fd' => ?_⟩
  · rw [State.hasFd_closed] at hhas
    rw [State.offset_closed]
    refine ⟨?_, hs.is_open h' fd' hhas.2⟩
    rintro ⟨rfl, hpos⟩
    exact hhas.1 (hs.inj h' h heap.fd hhas.2 ⟨hpos, hheap⟩)
  · rw [State.hasFd_closed] at h₁has h₂has
    exact hs.inj h₁ h₂ fd' h₁has.2 h₂has.2
  · rw [State.offset_closed] at hopen
    exact hs.nonneg fd' hopen.2
  · simp only [State.closed]
    split
    · next hpos =>
      rw [balanced_append, balanced_singleton]
      exact ⟨hs.balanced, (hs.held heap.fd).mpr (hs.is_open h heap.fd ⟨hpos, hheap⟩)⟩
    · exact hs.balanced
  · rw [State.offset_closed, ← hs.held]
    simp only [State.closed]
    split
    · next hpos => simp [hpos]
    · next hneg => simp [hneg]

lemma Inv.called (hs : Inv s) : Inv (s.called heap c).2 := by
  refine ⟨fun h' fd' hhas => ?_, hs.inj, fun fd' hopen => ?_, hs.balanced, fun fd' => ?_⟩
  · rw [State.offset_called]
    exact hs.is_open h' fd' hhas
  · rw [State.offset_called] at hopen
    exact hs.nonneg fd' hopen
  · rw [State.offset_called]
    exact hs.held fd'

lemma Inv.step (hs : Inv s) (hstep : Step s e s') : Inv s' := by
  cases hstep with
  | opened h fd hfd => exact hs.opened hfd
  | closed h hheap => exact hs.closed hheap
  | called h c => exact hs.called

lemma inv_of_run (hrun : Run Step start es s) : Inv s :=
  hrun.invariant (fun _ _ _ => Inv.step) inv_start

lemma Step.unique (s : State) (e : Event) (s₁ s₂ : State) (h₁ : Step s e s₁) (h₂ : Step s e s₂) :
    s₁ = s₂ := by
  cases h₁ with
  | opened h fd => cases h₂; rfl
  | closed h hheap =>
    cases h₂ with
    | closed _ hheap' =>
      rw [hheap] at hheap'
      cases hheap'
      rfl
  | called h c hheap =>
    generalize he : Event.called .. = e at h₂
    cases h₂ with
    | opened => cases he
    | closed => cases he
    | called h' c' hheap' =>
      injection he with hh hfd hc
      subst hh hc
      rw [hheap] at hheap'
      cases hheap'
      rfl

/-- A handle is only opened while it has no descriptor. -/
def FreshOpen (s : State) : Event → Prop
  | .opened h _ _ => ∀ fd, ¬ s.HasFd h fd
  | _ => True

/-- Every open descriptor is that of a handle. -/
def Kept (s : State) : Prop := ∀ fd, s.offset fd ≠ none → ∃ h, s.HasFd h fd

/-- A step keeps the descriptors exactly if it opens no handle that has one; what is lost stays
lost. -/
lemma Inv.kept_step_iff (hs : Inv s) (hstep : Step s e s') : Kept s' ↔ Kept s ∧ FreshOpen s e := by
  cases hstep with
  | opened h fd hfd =>
    simp only [Kept, FreshOpen, State.offset_opened, State.hasFd_opened]
    constructor
    · intro hkept
      have hfresh : ∀ fd', ¬ s.HasFd h fd' := by
        intro fd' hhas
        have hopen := hs.is_open h fd' hhas
        obtain ⟨h', hh'⟩ := hkept fd' (.inr hopen)
        split at hh'
        -- the number of the new descriptor was not in use
        · obtain ⟨hpos, rfl⟩ := hh'
          exact hopen (hfd.resolve_left (not_lt.mpr hpos))
        · next hne => exact hne (hs.inj h' h fd' hh' hhas)
      refine ⟨fun fd' hopen => ?_, hfresh⟩
      obtain ⟨h', hh'⟩ := hkept fd' (.inr hopen)
      split at hh'
      · obtain ⟨hpos, rfl⟩ := hh'
        exact absurd (hfd.resolve_left (not_lt.mpr hpos)) hopen
      · exact ⟨h', hh'⟩
    · rintro ⟨hkept, hfresh⟩ fd' (⟨rfl, hpos⟩ | hopen)
      · exact ⟨h, by rw [if_pos rfl]; exact ⟨hpos, rfl⟩⟩
      · obtain ⟨h', hh'⟩ := hkept fd' hopen
        refine ⟨h', ?_⟩
        rwa [if_neg]
        rintro rfl
        exact hfresh fd' hh'
  | @closed h heap _ hheap =>
    simp only [Kept, FreshOpen, State.offset_closed, State.hasFd_closed, and_true]
    constructor
    · intro hkept fd' hopen
      by_cases heq : fd' = heap.fd ∧ 0 ≤ heap.fd
      · obtain ⟨rfl, hpos⟩ := heq
        exact ⟨h, hpos, hheap⟩
      · obtain ⟨h', hh'⟩ := hkept fd' ⟨heq, hopen⟩
        exact ⟨h', hh'.2⟩
    · rintro hkept fd' ⟨hne, hopen⟩
      obtain ⟨h', hh'⟩ := hkept fd' hopen
      refine ⟨h', ?_, hh'⟩
      rintro rfl
      have hheap' := hh'.2
      rw [hheap, Option.some.injEq] at hheap'
      exact hne ⟨by rw [hheap'], by rw [hheap']; exact hh'.1⟩
  | called h c =>
    simp only [Kept, FreshOpen, State.offset_called, State.hasFd_called, and_true]

/-- **Descriptors are only lost by opening an open handle**: in every run no descriptor is closed
that is not open, the handles have different descriptors, all of them open, and every open
descriptor is that of a handle exactly if no handle was opened while it had one. -/
theorem no_leak_iff (hrun : Run Step start es s) :
    Balanced ∅ s.ops ∧
      (∀ h h' fd, s.HasFd h fd → s.HasFd h' fd → h = h') ∧
      (∀ h fd, s.HasFd h fd → fd ∈ Ledger.held ∅ s.ops) ∧
      ((∀ fd ∈ Ledger.held ∅ s.ops, ∃ h, s.HasFd h fd) ↔ Run.Steps Step start FreshOpen es) := by
  have hinv := inv_of_run hrun
  have hkept : Kept s ↔ Run.Steps Step start FreshOpen es := by
    refine hrun.history (I := fun es s => Kept s ↔ Run.Steps Step start FreshOpen es)
      (iff_of_true (by simp [Kept, start]) Run.steps_nil) ?_
    intro es s₁ e s₂ hrun₁ ih hstep
    rw [(inv_of_run hrun₁).kept_step_iff hstep, Run.steps_append_singleton Step.unique hrun₁, ih]
  refine ⟨hinv.balanced, hinv.inj, fun h fd hhas => (hinv.held fd).mpr (hinv.is_open h fd hhas), ?_⟩
  rw [← hkept, Kept]
  simp only [hinv.held]

/-! ### The file -/

/-- The call, if it was made with an open handle. -/
def through : Event → Option HeapEvent
  | .called _ fd c ret => if 0 ≤ fd then some (c, ret) else none
  | _ => none

/-- What the run was for the file. -/
structure Seen (fd₀ : ℕ) (es : List Event) (s : State) : Prop where
  one : ∃ s' ps, Run HeapStep (freshHeap fd₀) (es.filterMap through) s' ∧ Healthy s'.file ∧
    Stores s' ps [] ∧ s'.file.bytes = s.bytes
  refused : ∀ h fd c ret, .called h fd c ret ∈ es → fd < 0 → ret = refusal c

lemma Seen.quiet {fd₀ : ℕ} {s' : State} (hs : Seen fd₀ es s) (hbytes : s'.bytes = s.bytes)
    (hcall : ∀ h fd c ret, e = .called h fd c ret → fd < 0 ∧ ret = refusal c) :
    Seen fd₀ (es ++ [e]) s' := by
  have hnone : through e = none := by
    cases e with
    | called h fd c ret => exact if_neg (not_le.mpr (hcall h fd c ret rfl).1)
    | _ => rfl
  refine ⟨?_, fun h fd c ret hmem hfd => ?_⟩
  · rw [Log.filterMap_append_singleton, hnone, Option.toList_none, List.append_nil, hbytes]
    exact hs.one
  · rcases List.mem_append.mp hmem with hmem | hmem
    · exact hs.refused h fd c ret hmem hfd
    · exact (hcall h fd c ret (List.mem_singleton.mp hmem).symm).2

lemma Seen.step {fd₀ : ℕ} (hs : Seen fd₀ es s) (hinv : Inv s) (hstep : Step s e s') :
    Seen fd₀ (es ++ [e]) s' := by
  cases hstep with
  | opened h fd => exact hs.quiet rfl (by simp)
  | closed h => exact hs.quiet rfl (by simp)
  | @called h heap c _ hheap hc hroom =>
    rcases lt_or_ge heap.fd 0 with hneg | hpos
    · have hexec := exec_closed hneg hc (s.file heap.fd)
      refine hs.quiet ?_ ?_
      · simp only [State.called, hexec]
        rfl
      · rintro h' fd c' ret ⟨⟩
        refine ⟨hneg, ?_⟩
        simp only [State.called, hexec]
    · obtain ⟨s', ps, hrun, hhealthy', hstores', hbytes⟩ := hs.one
      -- the two calls see the same pages, each at its own offset
      have hopen : s.offset heap.fd ≠ none := hinv.is_open h heap.fd ⟨hpos, hheap⟩
      have hhealthy : Healthy (s.file heap.fd) := by
        intro i
        simpa [State.file, Option.ne_none_iff_isSome] using hopen
      have hstores : Stores ⟨heap, s.file heap.fd⟩ ps [] :=
        ⟨hpos, ⟨hbytes.symm.trans hstores'.holds.bytes, hstores'.holds.tail_lt⟩,
          hstores'.wellFormed⟩
      have hroom' : Roomy s'.file := by
        rw [Roomy, hbytes]
        exact hroom
      obtain ⟨hret, -, tail, htail, hafter⟩ := exec_healthy hstores hhealthy hroom c (.inl rfl)
      have hstep' := HeapStep.call c hroom'
      obtain ⟨hret', hhealthy'', hafter'⟩ := exec_step hstores' hhealthy' hstep'
      rw [List.length_nil, List.length_eq_zero_iff] at htail
      subst htail
      refine ⟨⟨(c.exec s').2, (pageStep c ps).2, ?_, hhealthy'', hafter', ?_⟩, ?_⟩
      · have hthrough : through (.called h heap.fd c (s.called heap c).1) =
            some (c, (c.exec s').1) := by
          rw [through, if_pos hpos]
          exact congrArg (fun ret => some (c, ret)) (hret.trans hret'.symm)
        rw [Log.filterMap_append_singleton, hthrough]
        exact hrun.append (.single hstep')
      · exact hafter'.holds.bytes.trans hafter.holds.bytes.symm
      · intro h' fd' c' ret hmem hfd'
        rcases List.mem_append.mp hmem with hmem | hmem
        · exact hs.refused h' fd' c' ret hmem hfd'
        · rw [List.mem_singleton] at hmem
          cases hmem
          omega

/-- **Several handles are one**: in every run the file is that of a program with one handle which
makes the calls that were made with open handles, in the same order and with the same
results; and a call with a closed handle is refused. -/
theorem one_handle (hrun : Run Step start es s) (fd₀ : ℕ) :
    (∃ s', Run HeapStep (freshHeap fd₀) (es.filterMap through) s' ∧ s'.file.bytes = s.bytes) ∧
      ∀ h fd c ret, .called h fd c ret ∈ es → fd < 0 → ret = refusal c := by
  have hseen : Seen fd₀ es s := by
    refine hrun.history ⟨⟨freshHeap fd₀, [], .nil _, fun _ => rfl, stores_freshHeap fd₀, rfl⟩, ?_⟩
      fun es s₁ e s₂ hrun₁ hs hstep => hs.step (inv_of_run hrun₁) hstep
    simp
  obtain ⟨s', ps, hrun', -, -, hbytes⟩ := hseen.one
  exact ⟨⟨s', hrun', hbytes⟩, hseen.refused⟩

end Descriptors

/-- Two handles are opened and the first one closed; the second one makes a call then. -/
def twoHandles (ret : HeapRet) : List Event :=
  [.opened 0 3 0, .opened 1 4 0, .closed 0,
    .called 1 4 (.insert (some (record 25 1 (by decide))) (some ⟨0, 0⟩)) ret]

lemma exists_twoHandles_run : ∃ ret s, Run Step start (twoHandles ret) s := by
  refine ⟨_, _, .cons (.opened 0 3 (.inr rfl)) (.cons (.opened 1 4 (.inr rfl))
    (.cons (.closed 0 rfl) (.single (.called 1 _ rfl trivial ?_))))⟩
  simp [Roomy, State.file, State.closed, State.opened, start]

/-- The first handle is opened twice. -/
def openedTwice : List Event := [.opened 0 3 0, .opened 0 4 0]

lemma exists_openedTwice_run : ∃ s, Run Step start openedTwice s ∧
    s.ops = [.acquire 3, .acquire 4] ∧ ∀ h, ¬ s.HasFd h 3 := by
  refine ⟨_, .cons (.opened 0 3 (.inr rfl)) (.single (.opened 0 4 (.inr rfl))), rfl, fun h => ?_⟩
  simp only [State.hasFd_opened]
  split
  · omega
  · simp [start, State.HasFd]

theorem one_handle_two : ∃ ret s s', Run Step start (twoHandles ret) s ∧
    Run HeapStep (freshHeap 5) ((twoHandles ret).filterMap through) s' ∧
      s'.file.bytes = s.bytes := by
  obtain ⟨ret, s, hrun⟩ := exists_twoHandles_run
  obtain ⟨⟨s', hrun', hbytes⟩, -⟩ := one_handle hrun 5
  exact ⟨ret, s, s', hrun, hrun', hbytes⟩

theorem no_leak_iff_twice : ¬ Run.Steps Step start FreshOpen openedTwice := by
  obtain ⟨s, hrun, hops, hlost⟩ := exists_openedTwice_run
  obtain ⟨-, -, -, hleak⟩ := no_leak_iff hrun
  rw [← hleak, hops]
  intro hkept
  obtain ⟨h, hhas⟩ := hkept 3 (by simp)
  exact hlost h hhas

end Handles

end MiniDb

end CsLab
