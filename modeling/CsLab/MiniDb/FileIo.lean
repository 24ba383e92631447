/-
Pages that survive a crash (`mini-db/01-file-io/file_io.c`).

`page_write` seeks, writes and syncs, and ends the process if a call fails; `page_read` does not
look at how many bytes it has read.  The processes that use them come one after the other, each
may end in the middle of a call, and the machine may crash at any time.

What a page may be made of is `mayHold`: the page of the last `page_write` that came back, and
those of the calls after it that did not.  Whatever happens, every byte of the page is a byte of
one of them (`page_bytes`), so a page whose last `page_write` came back is that page
(`page_durable`).
-/
import CsLab.Lib.Durable
import CsLab.Lib.Run
import CsLab.MiniDb.DiskManager

namespace CsLab

namespace MiniDb

namespace FileIo

open Blocks Durable
open DiskManager (padded get_padded plainPage get_plainPage)

/-- `page_write` -/
def pageWrite (pageId : ℤ) (data : Page) : DiskM Unit := do
  let offset := pageId * pageSize
  if (← lseekSet offset) = -1 then exit
  let written ← write data.bytes
  if written ≠ pageSize then exit
  if (← fsync) = -1 then exit

/-- `page_read`, with the buffer that it leaves -/
def pageRead (pageId : ℤ) (buffer : Page) : DiskM Page := do
  let offset := pageId * pageSize
  if (← lseekSet offset) = -1 then exit
  let (bytes, data) ← read pageSize
  if bytes < 0 then exit
  return buffer.blit 0 data

/-! ### What they do -/

lemma toNat_mul_pageSize {pageId : ℤ} (h : 0 ≤ pageId * (pageSize : ℕ)) :
    0 ≤ pageId ∧ (pageId * (pageSize : ℕ)).toNat = pageId.toNat * pageSize := by
  simp only [pageSize] at h ⊢
  omega

/-- Every outcome of `page_write`: if it does not come back, then at most the first bytes of the
page are in the file. -/
lemma pageWrite_cases (pageId : ℤ) (data : Page) (d : Disk) :
    (∃ stop d', pageWrite pageId data d = .error stop d' ∧ (Same d d' ∨
      0 ≤ pageId ∧ ∃ d₁ n, Same d d₁ ∧ d₁.pos = pageId.toNat * pageSize ∧
        Same (d₁.put (data.bytes.take n)) d')) ∨
    (0 ≤ pageId ∧ ∃ d', pageWrite pageId data d = .ok () d' ∧ d'.past = [] ∧
      d'.bytes = writeAt d.bytes (pageId.toNat * pageSize) data.bytes) := by
  simp only [pageWrite, run_bind, run_ite, run_exit, run_pure]
  obtain ⟨d₁, hseek, hsame⟩ | ⟨d₁, hseek, hsame⟩ | ⟨hoff, d₁, hseek, hsame, hpos, -⟩ :=
    lseekSet_cases (pageId * (pageSize : ℕ)) d
  · simp only [hseek]
    exact .inl ⟨_, d₁, rfl, .inl hsame⟩
  · simp only [hseek, if_true]
    exact .inl ⟨_, d₁, rfl, .inl hsame⟩
  obtain ⟨hid, hnat⟩ := toNat_mul_pageSize hoff
  have hcalled : Same d d₁.called := hsame.trans (.called d₁)
  have hcpos : d₁.called.pos = pageId.toNat * pageSize := hpos.trans hnat
  simp only [hseek]
  rw [if_neg (by omega)]
  obtain ⟨n, hwrite⟩ | hwrite | ⟨n, hwrite⟩ := write_cases data.bytes d₁
  · simp only [hwrite]
    exact .inl ⟨_, _, rfl, .inr ⟨hid, d₁.called, n, hcalled, hcpos, .rfl⟩⟩
  · simp only [hwrite]
    rw [if_pos (by omega)]
    exact .inl ⟨_, _, rfl, .inl hcalled⟩
  simp only [hwrite]
  by_cases hfull : (data.bytes.take n).length = pageSize
  · have htake : data.bytes.take n = data.bytes := by
      refine List.take_of_length_le ?_
      rw [List.length_take] at hfull
      rw [data.length_bytes]
      omega
    rw [htake, if_neg (by rw [data.length_bytes]; exact not_not.mpr rfl)]
    obtain ⟨d₂, hsync, hsame₂⟩ | ⟨d₂, hsync, hsame₂⟩ | ⟨d₂, hsync, hbytes, hpast, -⟩ :=
      fsync_cases (d₁.called.put data.bytes)
    · simp only [hsync]
      refine .inl ⟨_, d₂, rfl, .inr ⟨hid, d₁.called, n, hcalled, hcpos, ?_⟩⟩
      rwa [htake]
    · simp only [hsync, if_true]
      refine .inl ⟨_, d₂, rfl, .inr ⟨hid, d₁.called, n, hcalled, hcpos, ?_⟩⟩
      rwa [htake]
    · simp only [hsync]
      refine .inr ⟨hid, d₂, rfl, hpast, ?_⟩
      have hnil : data.bytes ≠ [] := List.ne_nil_of_length_pos (by simp [pageSize])
      rw [hbytes, Disk.put, if_neg hnil, hcpos, hcalled.bytes]
  · rw [if_pos (by exact_mod_cast hfull)]
    exact .inl ⟨_, _, rfl, .inr ⟨hid, d₁.called, n, hcalled, hcpos, .rfl⟩⟩

/-- Every outcome of `page_read`: if it comes back, then some of the bytes of the page are in
the buffer, all that the file has if the call of `read` is not cut short. -/
lemma pageRead_cases (pageId : ℤ) (buffer : Page) (d : Disk) :
    (∃ stop d', pageRead pageId buffer d = .error stop d' ∧ Same d d') ∨
    (0 ≤ pageId ∧ ∃ d' n, Same d d' ∧ n ≤ pageSize ∧
      (d.fate (d.calls + 1) = .done → n = pageSize) ∧
      pageRead pageId buffer d =
        .ok (buffer.blit 0 (readAt d.bytes (pageId.toNat * pageSize) n)) d') := by
  simp only [pageRead, run_bind, run_ite, run_exit, run_pure]
  obtain ⟨d₁, hseek, hsame⟩ | ⟨d₁, hseek, hsame⟩ | ⟨hoff, d₁, hseek, hsame, hpos, hcalls⟩ :=
    lseekSet_cases (pageId * (pageSize : ℕ)) d
  · simp only [hseek]
    exact .inl ⟨_, d₁, rfl, hsame⟩
  · simp only [hseek, if_true]
    exact .inl ⟨_, d₁, rfl, hsame⟩
  obtain ⟨hid, hnat⟩ := toNat_mul_pageSize hoff
  simp only [hseek]
  rw [if_neg (by omega)]
  obtain ⟨d₂, hread, hsame₂⟩ | ⟨d₂, hread, hsame₂⟩ | ⟨d₂, n, hread, hsame₂, hn, hfull⟩ :=
    read_cases pageSize d₁
  · simp only [hread]
    exact .inl ⟨_, d₂, rfl, hsame.trans hsame₂⟩
  · simp only [hread]
    rw [if_pos (by omega)]
    exact .inl ⟨_, d₂, rfl, hsame.trans hsame₂⟩
  · rw [hpos, hnat, hsame.bytes] at hread
    rw [hsame.fate, hcalls] at hfull
    simp only [hread]
    rw [if_neg (by omega)]
    exact .inr ⟨hid, d₂, n, hsame.trans hsame₂, hn, hfull, rfl⟩

/-- If nothing goes wrong, `page_write` comes back. -/
lemma pageWrite_done {d : Disk} (h : ∀ i, d.fate i = .done) (p : ℕ) (data : Page) :
    ∃ d', pageWrite p data d = .ok () d' ∧ d'.fate = d.fate := by
  have hoff : ¬ (p : ℤ) * (pageSize : ℕ) < 0 := not_lt.mpr (DiskManager.offset_nonneg p)
  have hne : (p : ℤ) * (pageSize : ℕ) ≠ -1 := by omega
  have hnil : data.bytes ≠ [] := List.ne_nil_of_length_pos (by simp [pageSize])
  simp only [pageWrite, run_bind, run_ite, run_exit, run_pure, lseekSet, h, hoff, hne, write,
    Disk.called, Disk.put, hnil, data.length_bytes, if_false, ne_eq, not_true_eq_false, fsync]
  exact ⟨_, rfl, rfl⟩

/-- If nothing goes wrong, `page_read` comes back. -/
lemma pageRead_done {d : Disk} (h : ∀ i, d.fate i = .done) (p : ℕ) (buffer : Page) :
    ∃ page d', pageRead p buffer d = .ok page d' := by
  have hoff : ¬ (p : ℤ) * (pageSize : ℕ) < 0 := not_lt.mpr (DiskManager.offset_nonneg p)
  have hne : (p : ℤ) * (pageSize : ℕ) ≠ -1 := by omega
  simp only [pageRead, run_bind, run_ite, run_exit, run_pure, lseekSet, h, hoff, hne,
    Durable.read, Disk.called, if_false]
  rw [if_neg (by omega)]
  exact ⟨_, _, rfl⟩

/-! ### Processes and crashes -/

/-- A call of one of the two functions. -/
inductive FileCall where
  | write (pageId : ℤ) (data : Page)
  | read (pageId : ℤ) (buffer : Page)

/-- Make one call. -/
def FileCall.exec : FileCall → DiskM Unit
  | .write pageId data => pageWrite pageId data
  | .read pageId buffer => do
    let _ ← pageRead pageId buffer

/-- The file, and why there is no process that works on it. -/
structure Machine where
  disk : Disk
  stopped : Option Stop

/-- The machine after a call. -/
def Machine.after : EStateM.Result Stop Disk Unit → Machine
  | .ok _ d => ⟨d, none⟩
  | .error stop d => ⟨d, some stop⟩

/-- What happens to the file: a call, which comes back or not, the start of a process that
opens the file, and a crash. -/
inductive FileEvent where
  | call (c : FileCall) (back : Bool)
  | start
  | crash

/-- One event.  After a crash in the middle of a call there is only the crash. -/
inductive FileStep : Machine → FileEvent → Machine → Prop
  | call (c : FileCall) {m : Machine} (hup : m.stopped = none) :
      FileStep m (.call c ((Machine.after (c.exec m.disk)).stopped = none))
        (.after (c.exec m.disk))
  | start {m : Machine} (hup : m.stopped ≠ some .crash) :
      FileStep m .start ⟨{ m.disk with pos := 0 }, none⟩
  | crash {m : Machine} {l : List UInt8} (hl : m.disk.Survives l) :
      FileStep m .crash ⟨{ m.disk with bytes := l, past := [], pos := 0 }, some .exit⟩

/-- The machine before the first process, with the content of the file. -/
def Machine.init (bytes : List UInt8) (fate : ℕ → Fate) : Machine :=
  ⟨Disk.start bytes fate, some .exit⟩

/-- What the page `p` may be made of after one more event. -/
def mayHoldAfter (p : ℕ) (pages : List Page) : FileEvent → List Page
  | .call (.write pageId data) back =>
    if pageId = p then if back then [data] else data :: pages else pages
  | _ => pages

/-- What the page `p` may be made of after the events `es`, if the file was `bytes`. -/
def mayHold (bytes : List UInt8) (es : List FileEvent) (p : ℕ) : List Page :=
  es.foldl (mayHoldAfter p) [padded bytes p]

/-- A `page_write` of the page `p` has come back. -/
def Returned (es : List FileEvent) (p : ℕ) : Prop :=
  ∃ data, FileEvent.call (.write p data) true ∈ es

/-- The last `page_write` of the page `p` was with `data`, and it came back. -/
def LastWrite (es : List FileEvent) (p : ℕ) (data : Page) : Prop :=
  ∃ es₁ es₂, es = es₁ ++ .call (.write p data) true :: es₂ ∧
    ∀ c back, FileEvent.call c back ∈ es₂ → ∀ data', c ≠ .write p data'

/-- A byte of one of the pages, at its place in the file. -/
def PageByte (pages : ℕ → List Page) (i : ℕ) (b : UInt8) : Prop :=
  ∃ page ∈ pages (i / pageSize), page.get (i % pageSize) = b

/-- What is known of the file after the events `es`. -/
structure Holds (bytes : List UInt8) (es : List FileEvent) (d : Disk) : Prop where
  allows : Allows (PageByte (mayHold bytes es)) d
  spans : ∀ p, Returned es p → Spans ((p + 1) * pageSize) d

section Runs

variable {bytes : List UInt8} {fate : ℕ → Fate} {es : List FileEvent} {e : FileEvent}
variable {m m' : Machine} {d d' : Disk} {p : ℕ}

lemma mayHold_append (bytes : List UInt8) (es : List FileEvent) (e : FileEvent) (p : ℕ) :
    mayHold bytes (es ++ [e]) p = mayHoldAfter p (mayHold bytes es p) e := by
  rw [mayHold, List.foldl_append]
  rfl

lemma PageByte.of_lt {pages : ℕ → List Page} {i : ℕ} (hi : i < pageSize) {b : UInt8}
    (h : PageByte pages (p * pageSize + i) b) : ∃ page ∈ pages p, page.get i = b := by
  have hdiv : (p * pageSize + i) / pageSize = p := by
    simp only [pageSize] at hi ⊢
    omega
  have hmod : (p * pageSize + i) % pageSize = i := by
    simp only [pageSize] at hi ⊢
    omega
  rwa [PageByte, hdiv, hmod] at h

lemma PageByte.page {pages : ℕ → List Page} {data : Page} (hdata : data ∈ pages p) {k : ℕ}
    (hk : k < pageSize) : PageByte pages (p * pageSize + k) (data.get k) := by
  have hdiv : (p * pageSize + k) / pageSize = p := by
    simp only [pageSize] at hk ⊢
    omega
  have hmod : (p * pageSize + k) % pageSize = k := by
    simp only [pageSize] at hk ⊢
    omega
  rw [PageByte, hdiv, hmod]
  exact ⟨data, hdata, rfl⟩

lemma allows_start (bytes : List UInt8) (fate : ℕ → Fate) :
    Allows (PageByte (mayHold bytes [])) (Disk.start bytes fate) := by
  intro v hv i
  rw [List.mem_singleton.mp hv]
  refine ⟨padded bytes (i / pageSize), List.mem_singleton_self _, ?_⟩
  rw [get_padded bytes _ (Nat.mod_lt _ (by simp [pageSize])), Nat.mul_comm, Nat.div_add_mod]
  rfl

/-- An event after which each page may be made of more than before. -/
lemma Holds.more (h : Holds bytes es d) (hsame : Same d d')
    (hret : ∀ q data, e ≠ .call (.write q data) true) : Holds bytes (es ++ [e]) d' := by
  refine ⟨(h.allows.same hsame).mono fun i b ⟨page, hpage, hb⟩ => ⟨page, ?_, hb⟩, ?_⟩
  · rw [mayHold_append]
    cases e with
    | call c back =>
      cases c with
      | write pageId data =>
        cases back with
        | true => exact absurd rfl (hret pageId data)
        | false =>
          simp only [mayHoldAfter]
          split
          · exact List.mem_cons_of_mem _ hpage
          · exact hpage
      | read pageId buffer => exact hpage
    | start => exact hpage
    | crash => exact hpage
  · rintro q ⟨data, hmem⟩
    rcases List.mem_append.mp hmem with hmem | hmem
    · exact (h.spans q ⟨data, hmem⟩).same hsame
    · exact absurd (List.mem_singleton.mp hmem).symm (hret q data)

/-- Some bytes of a page are written. -/
lemma Holds.put (h : Holds bytes es d) {data : Page} (hdata : data ∈ mayHold bytes es p)
    (hpos : d.pos = p * pageSize) (n : ℕ) : Holds bytes es (d.put (data.bytes.take n)) := by
  refine ⟨h.allows.put fun k hk => ?_, fun q hq => (h.spans q hq).put _⟩
  rw [List.length_take, data.length_bytes] at hk
  have hget : (data.bytes.take n).getD k 0 = data.get k := by
    rw [Buffer.get, List.getD_eq_getElem?_getD, List.getD_eq_getElem?_getD,
      List.getElem?_take_of_lt (by omega)]
  rw [hpos, hget]
  exact .page hdata (by omega)

/-- A page is written and synced. -/
lemma Holds.synced (h : Holds bytes es d) (data : Page) (hpast : d'.past = [])
    (hbytes : d'.bytes = writeAt d.bytes (p * pageSize) data.bytes) :
    Holds bytes (es ++ [.call (.write p data) true]) d' := by
  have hlen : d'.bytes.length = max d.bytes.length ((p + 1) * pageSize) := by
    rw [hbytes, length_writeAt, data.length_bytes, Nat.succ_mul]
  refine ⟨fun v hv i => ?_, fun q hq v hv => ?_⟩
  · rw [(mem_versions_synced hpast).mp hv, hbytes, getD_writeAt, data.length_bytes]
    by_cases hi : i / pageSize = p
    · have hin : p * pageSize ≤ i ∧ i < p * pageSize + pageSize := by
        simp only [pageSize] at hi ⊢
        omega
      have hmod : i % pageSize = i - p * pageSize := by
        simp only [pageSize] at hi ⊢
        omega
      rw [if_pos hin, PageByte, hi, hmod, mayHold_append]
      exact ⟨data, by simp [mayHoldAfter], rfl⟩
    · have hout : ¬ (p * pageSize ≤ i ∧ i < p * pageSize + pageSize) := by
        simp only [pageSize] at hi ⊢
        omega
      have hne : ¬ ((p : ℤ) = (i / pageSize : ℕ)) := by omega
      rw [if_neg hout, PageByte, mayHold_append, mayHoldAfter, if_neg hne]
      exact h.allows _ (List.mem_cons_self ..) i
  · rw [(mem_versions_synced hpast).mp hv, hlen]
    obtain ⟨data', hmem⟩ := hq
    rcases List.mem_append.mp hmem with hmem | hmem
    · exact (h.spans q ⟨data', hmem⟩ _ (List.mem_cons_self ..)).trans (le_max_left _ _)
    · have hqp : q = p := by
        have heq := List.mem_singleton.mp hmem
        injection heq with hcall
        injection hcall with hid
        exact_mod_cast hid
      rw [hqp]
      exact le_max_right _ _

/-- Every event keeps what is known of the file. -/
lemma Holds.step (h : Holds bytes es m.disk) (hstep : FileStep m e m') :
    Holds bytes (es ++ [e]) m'.disk := by
  cases hstep with
  | call c hup =>
    cases c with
    | write pageId data =>
      obtain ⟨stop, d', heq, hsame | ⟨hid, d₁, n, hsame₁, hpos, hsame⟩⟩ |
        ⟨hid, d', heq, hpast, hbytes⟩ := pageWrite_cases pageId data m.disk
      · simp only [FileCall.exec, heq, Machine.after, reduceCtorEq, decide_false]
        exact h.more hsame (by simp)
      · simp only [FileCall.exec, heq, Machine.after, reduceCtorEq, decide_false]
        have hmore : Holds bytes (es ++ [.call (.write pageId data) false]) d₁ :=
          h.more hsame₁ (by simp)
        have hdata : data ∈
            mayHold bytes (es ++ [.call (.write pageId data) false]) pageId.toNat := by
          rw [mayHold_append, mayHoldAfter, if_pos (Int.toNat_of_nonneg hid).symm]
          exact List.mem_cons_self ..
        have hput := hmore.put hdata hpos n
        exact ⟨hput.allows.same hsame, fun q hq => (hput.spans q hq).same hsame⟩
      · simp only [FileCall.exec, heq, Machine.after, decide_true]
        obtain ⟨q, rfl⟩ := Int.eq_ofNat_of_zero_le hid
        exact h.synced data hpast hbytes
    | read pageId buffer =>
      have hsame : Same m.disk (Machine.after ((FileCall.read pageId buffer).exec m.disk)).disk := by
        obtain ⟨stop, d', heq, hsame⟩ | ⟨-, d', n, hsame, -, -, heq⟩ :=
          pageRead_cases pageId buffer m.disk
        · simpa [FileCall.exec, heq, Machine.after] using hsame
        · simpa [FileCall.exec, heq, Machine.after] using hsame
      exact h.more hsame (by simp)
  | start hup => exact h.more ⟨rfl, rfl, rfl⟩ (by simp)
  | @crash _ l hl =>
    have hcrash : Holds bytes es { m.disk with bytes := l, past := [], pos := 0 } := by
      refine ⟨fun v hv i => ?_, fun q hq v hv => ?_⟩
      · rw [List.mem_singleton.mp hv]
        exact h.allows.survives hl i
      · rw [List.mem_singleton.mp hv]
        exact (h.spans q hq).survives hl
    exact hcrash.more .rfl (by simp)

lemma holds_of_run (hrun : Run FileStep (.init bytes fate) es m) : Holds bytes es m.disk := by
  refine Run.history (I := fun es m => Holds bytes es m.disk) ?_ ?_ hrun
  · refine ⟨allows_start bytes fate, ?_⟩
    rintro p ⟨data, hmem⟩
    cases hmem
  · intro es₁ m₁ e m₂ _ h hstep
    exact h.step hstep

lemma LastWrite.returned {data : Page} (h : LastWrite es p data) : Returned es p := by
  obtain ⟨es₁, es₂, rfl, -⟩ := h
  exact ⟨data, by simp⟩

/-- After the last write the page may only be made of what was written. -/
lemma LastWrite.mayHold_eq {data : Page} (h : LastWrite es p data) :
    mayHold bytes es p = [data] := by
  obtain ⟨es₁, es₂, rfl, hlast⟩ := h
  have hrest : ∀ pages, es₂.foldl (mayHoldAfter p) pages = pages := by
    induction es₂ with
    | nil => exact fun _ => rfl
    | cons e es₂ ih =>
      intro pages
      have hkeep : mayHoldAfter p pages e = pages := by
        cases e with
        | call c back =>
          cases c with
          | write pageId data' =>
            refine if_neg fun hid => hlast (.write pageId data') back (List.mem_cons_self ..) data' ?_
            rw [hid]
          | read pageId buffer => rfl
        | start => rfl
        | crash => rfl
      rw [List.foldl_cons, hkeep]
      exact ih (fun c back hmem => hlast c back (List.mem_cons_of_mem _ hmem)) pages
  rw [mayHold, List.foldl_append, List.foldl_cons, hrest]
  simp [mayHoldAfter]

/-- **No byte comes from nowhere**: whatever calls, exits and crashes there were, each byte that
`page_read` leaves in the buffer is one that was in it, or a byte at this place of the page of
the last `page_write` that came back or of one after it that did not. -/
theorem page_bytes (hrun : Run FileStep (.init bytes fate) es m) (p : ℕ) (buffer page : Page)
    (hread : pageRead p buffer m.disk = .ok page d') :
    ∀ i < pageSize, page.get i = buffer.get i ∨
      ∃ page' ∈ mayHold bytes es p, page.get i = page'.get i := by
  intro i hi
  obtain ⟨stop, d₁, heq, -⟩ | ⟨-, d₁, n, -, hn, -, heq⟩ := pageRead_cases p buffer m.disk
  · rw [heq] at hread
    cases hread
  rw [heq] at hread
  injection hread with hpage
  rw [← hpage, Int.toNat_natCast]
  by_cases hin : i < (readAt m.disk.bytes (p * pageSize) n).length
  · right
    rw [Buffer.get_blit_of_mem _ (Nat.zero_le i) (by omega) hi, Nat.sub_zero]
    rw [length_readAt] at hin
    rw [getD_readAt _ (by omega)]
    obtain ⟨page', hmem, hget⟩ :=
      ((holds_of_run hrun).allows _ (List.mem_cons_self ..) (p * pageSize + i)).of_lt hi
    exact ⟨page', hmem, hget.symm⟩
  · left
    rw [Buffer.get_blit_of_not_mem _ (by omega)]

/-- **A page that was written survives**: if the last `page_write` of a page came back, then
the page is what was written, whatever calls, exits and crashes there were in front of it and
behind it; and a `page_read` that is not cut short gives it. -/
theorem page_durable {data : Page} (hrun : Run FileStep (.init bytes fate) es m)
    (hlast : LastWrite es p data) :
    readAt m.disk.bytes (p * pageSize) pageSize = data.bytes ∧
    ∀ (buffer page : Page) (d' : Disk), pageRead p buffer m.disk = .ok page d' →
      (∃ n, page = buffer.blit 0 (data.bytes.take n)) ∧
      (m.disk.fate (m.disk.calls + 1) = .done → page = data) := by
  have hholds := holds_of_run hrun
  have hlen := hholds.spans p hlast.returned _ (List.mem_cons_self ..)
  have hpage : readAt m.disk.bytes (p * pageSize) pageSize = data.bytes := by
    have hfull : (readAt m.disk.bytes (p * pageSize) pageSize).length = pageSize := by
      rw [length_readAt]
      simp only [pageSize] at hlen ⊢
      omega
    have heq : (⟨_, hfull⟩ : Page) = data := by
      ext i hi
      rw [Buffer.get, getD_readAt _ hi]
      obtain ⟨page', hmem, hget⟩ :=
        (hholds.allows _ (List.mem_cons_self ..) (p * pageSize + i)).of_lt hi
      rw [hlast.mayHold_eq, List.mem_singleton] at hmem
      rw [← hget, hmem]
    exact congrArg Buffer.bytes heq
  refine ⟨hpage, fun buffer page d' hread => ?_⟩
  obtain ⟨stop, d₁, heq, -⟩ | ⟨-, d₁, n, -, hn, hfull, heq⟩ := pageRead_cases p buffer m.disk
  · rw [heq] at hread
    cases hread
  rw [heq, Int.toNat_natCast] at hread
  injection hread with hread
  have htake : readAt m.disk.bytes (p * pageSize) n = data.bytes.take n := by
    rw [← hpage, readAt, readAt, List.take_take, min_eq_left hn]
  rw [htake] at hread
  refine ⟨⟨n, hread.symm⟩, fun hdone => ?_⟩
  rw [hfull hdone, List.take_of_length_le (by simp), Buffer.blit_zero_bytes] at hread
  exact hread.symm

end Runs

/-- A page is written, and the machine crashes when the process has come back from that. -/
def crashEvents (data : Page) : List FileEvent := [.start, .call (.write 2 data) true, .crash]

lemma exists_crashRun (bytes : List UInt8) (data : Page) :
    ∃ m, Run FileStep (.init bytes fun _ => .done) (crashEvents data) m ∧
      ∀ i, m.disk.fate i = .done := by
  obtain ⟨d, hwrite, hfate⟩ := pageWrite_done (d := Disk.start bytes fun _ => .done)
    (fun _ => rfl) 2 data
  have hstep := FileStep.call (.write 2 data) (m := ⟨Disk.start bytes fun _ => .done, none⟩) rfl
  simp only [FileCall.exec, Nat.cast_ofNat] at hstep hwrite
  simp only [hwrite, Machine.after, decide_true] at hstep
  have hstart : FileStep (.init bytes fun _ => .done) .start
      ⟨Disk.start bytes fun _ => .done, none⟩ := .start (by simp [Machine.init])
  exact ⟨_, .cons hstart (.cons hstep (.single (.crash (survives_bytes d)))),
    fun i => congrFun hfate i⟩

lemma lastWrite_crashEvents (data : Page) : LastWrite (crashEvents data) 2 data :=
  ⟨[.start], [.crash], by simp [crashEvents], by simp⟩

theorem page_bytes_crash : ∃ m page d',
    Run FileStep (.init [] fun _ => .done) (crashEvents (plainPage 7)) m ∧
    pageRead (2 : ℕ) (plainPage 9) m.disk = .ok page d' ∧
    ∀ i < pageSize, page.get i = 9 ∨ page.get i = 7 := by
  obtain ⟨m, hrun, hfate⟩ := exists_crashRun [] (plainPage 7)
  obtain ⟨page, d', hread⟩ := pageRead_done hfate (2 : ℕ) (plainPage 9)
  refine ⟨m, page, d', hrun, hread, fun i hi => ?_⟩
  rcases page_bytes hrun 2 _ page hread i hi with hold | ⟨page', hpage, hnew⟩
  · exact .inl (hold.trans (get_plainPage 9 hi))
  · rw [(lastWrite_crashEvents _).mayHold_eq, List.mem_singleton] at hpage
    subst hpage
    exact .inr (hnew.trans (get_plainPage 7 hi))

theorem page_durable_crash : ∃ m,
    Run FileStep (.init [1, 2, 3] fun _ => .done) (crashEvents (plainPage 7)) m ∧
    readAt m.disk.bytes (2 * pageSize) pageSize = (plainPage 7).bytes ∧
    ∃ d', pageRead (2 : ℕ) (plainPage 9) m.disk = .ok (plainPage 7) d' := by
  obtain ⟨m, hrun, hfate⟩ := exists_crashRun [1, 2, 3] (plainPage 7)
  obtain ⟨hbytes, hpage⟩ := page_durable hrun (lastWrite_crashEvents _)
  obtain ⟨page, d', hread⟩ := pageRead_done hfate (2 : ℕ) (plainPage 9)
  obtain rfl := (hpage _ page d' hread).2 (hfate _)
  exact ⟨m, hrun, hbytes, d', hread⟩

end FileIo

end MiniDb

end CsLab
