/-
The heap file when the process is killed.

Calls on the file may fail in any pattern, and the process may be killed between any two of
them; then a new process opens the file again.  The bytes that were written stay in the file.
Whatever happens, each call of the heap file is atomic: one that returned did what it says, and
one that was killed did all of it or nothing (`killed_atomic`).  A record is not lost unless
somebody deletes it (`acknowledged_kept`).
-/
import CsLab.Lib.Crash
import CsLab.MiniDb.Faithful
import CsLab.MiniDb.HeapFaults

namespace CsLab

namespace MiniDb

open File Blocks Prog
open SlotAlloc (update getD_update)

/-- The process will be killed after `k` more calls on the file: those behind them have no
effect any more. -/
def HeapState.dying (s : HeapState) (k : ℕ) : HeapState :=
  { s with file := { s.file with fails := fun i => s.file.fails i || s.file.calls + k ≤ i } }

/-- A new process has opened the file with the descriptor `fd`. -/
def HeapState.restarted (s : HeapState) (fd : ℕ) (fails : ℕ → Bool) : HeapState :=
  let out := heapOpen (some s.heap) (some "test_heap.db") fd (File.start s.file.bytes fails)
  ⟨out.1.2.getD s.heap, out.2⟩

/-- A call that returns, or one in which the process is killed. -/
abbrev KillEvent : Type := Crash.Event HeapCall HeapRet

def KillEvent.call : KillEvent → HeapCall
  | .returned c _ => c
  | .killed c => c

/-- One call, while the file has fewer than 2^31 pages. -/
inductive KillStep : HeapState → KillEvent → HeapState → Prop
  | returned (c : HeapCall) {s : HeapState} (hroom : Roomy s.file) :
      KillStep s (.returned c (c.exec s).1) (c.exec s).2
  | killed (c : HeapCall) (k fd : ℕ) (fails : ℕ → Bool) {s : HeapState} (hroom : Roomy s.file) :
      KillStep s (.killed c) ((c.exec (s.dying k)).2.restarted fd fails)

/-- A call that does no harm to the bytes of other records. -/
def SafeKillStep (s : HeapState) (e : KillEvent) (s' : HeapState) : Prop :=
  KillStep s e s' ∧ SafeCall (blocks pageSize s.file.bytes) e.call

/-- Records under their RIDs, as far as they are looked at. -/
abbrev Table (β : Type) : Type := RID → Option β

variable {β : Type}

/-- What a call does to the records, of which `view` shows something. -/
inductive Does (view : List UInt8 → β) (t : Table β) : HeapCall → HeapRet → Table β → Prop
  | insert {r : Area} {rid₀ rid : RID} (hr : r.length ≠ 0) (hfree : t rid = none) :
      Does view t (.insert (some r) (some rid₀)) (.insert 0 (some rid))
        (Function.update t rid (some (view r.bytes)))
  | delete {rid : RID} (hlive : t rid ≠ none) :
      Does view t (.delete rid) (.delete 0) (Function.update t rid none)
  | get {rid : RID} {buffer : Area} {rec : List UInt8} (hrec : t rid = some (view rec))
      (hle : rec.length ≤ buffer.length) :
      Does view t (.get rid (some buffer)) (.get rec.length (some (buffer.fill rec))) t
  | pageCount (n : ℕ) : Does view t .pageCount (.pageCount n) t
  | reopen (fd : ℕ) : Does view t (.reopen fd) (.reopen 0) t
  | refuse {c : HeapCall} {ret : HeapRet} (hret : ret.value = -1) : Does view t c ret t

/-- The records in the pages, as `view` shows them. -/
def table (view : List UInt8 → β) (ps : List Page) : Table β :=
  fun rid => (lookup ps rid).map view

/-- After an insert `view` shows the new record, and the others as before. -/
def Shows (view : List UInt8 → β) (p : Page) (r : Area) : Prop :=
  ∀ i, (recordAt (inserted p r) i).map view =
    if i = insertSlot p then some (view r.bytes) else (recordAt p i).map view

/-- `view` shows the records of all pages rightly after the call. -/
def ShowsCall (view : List UInt8 → β) (ps : List Page) : HeapCall → Prop
  | .insert (some r) (some _) => r.length ≤ 4086 →
    ∀ p, p = targetPage ps r ∨ p = emptyPage → Accepts p r → Shows view p r
  | _ => True

section Table

variable {view : List UInt8 → β} {s : HeapState} {ps ps' : List Page} {p : Page} {r : Area}

lemma restarted_eq (s : HeapState) (fd : ℕ) (fails : ℕ → Bool) :
    s.restarted fd fails = ⟨⟨fd⟩, File.start s.file.bytes fails⟩ := by
  simp only [HeapState.restarted, heapOpen, run_bind, run_ite,
    (openFile_spec (fd : ℤ) (File.start s.file.bytes fails)).1]
  rw [if_neg (by omega), openFile, if_neg (by omega)]
  rfl

lemma Stores.dying (h : Stores s ps []) (k : ℕ) : Stores (s.dying k) ps [] :=
  ⟨h.fd_nonneg, ⟨h.holds.bytes, h.holds.tail_lt⟩, h.wellFormed⟩

lemma Stores.restarted (h : Stores s ps []) (fd : ℕ) (fails : ℕ → Bool) :
    Stores (s.restarted fd fails) ps [] := by
  rw [restarted_eq]
  exact ⟨Int.natCast_nonneg fd, ⟨h.holds.bytes, h.holds.tail_lt⟩, h.wellFormed⟩

/-- The lengths are always shown rightly. -/
lemma shows_length (hp : WellFormed p) (hacc : Accepts p r) : Shows List.length p r := by
  obtain ⟨q, hq, hplaced⟩ := hacc.placed hp
  intro i
  rw [← (wellFormed_inserted hp r).recordLen_eq, ← hp.recordLen_eq]
  exact recordLen_insert hq hplaced hacc.1 i

/-- The bytes are shown rightly if the insert was safe. -/
lemma shows_bytes (hp : WellFormed p) (hacc : Accepts p r) (hsafe : InsertSafe p r.length) :
    Shows id p r := by
  obtain ⟨q, hq, hplaced⟩ := hacc.placed hp
  have hrec := (recordAt_insert_iff hp hq hacc.2 hplaced hacc.1).mpr hsafe
  intro i
  simp only [Option.map_id, id_eq]
  exact hrec i

lemma insertSafe_emptyPage {n : ℕ} (hmax : n ≤ 4086) : InsertSafe emptyPage n := by
  intro hgap
  rw [freeStart_emptyPage, freeEnd_emptyPage] at hgap
  have hneeded : neededSpace emptyPage n ≤ n + 4 := by
    rw [neededSpace]
    split <;> omega
  omega

lemma table_append_emptyPage (view : List UInt8 → β) (ps : List Page) :
    table view (ps ++ [emptyPage]) = table view ps := by
  ext1 rid
  rw [table, table, lookup_append_emptyPage]

/-- An insert into the page `q`, which may be a new one. -/
def insertAt (ps : List Page) (q : ℕ) (r : Area) : List Page :=
  update ps q (inserted (ps.getD q emptyPage) r)

lemma wellFormed_insertAt (hwf : ∀ p ∈ ps, WellFormed p) (q : ℕ) (r : Area) :
    ∀ p ∈ insertAt ps q r, WellFormed p := by
  have hq := wellFormed_inserted (wellFormed_getD hwf q) r
  simp only [insertAt, update]
  split
  · exact fun p hp => (List.mem_or_eq_of_mem_set hp).elim (hwf p) fun h => h ▸ hq
  · exact wellFormed_append hwf hq

lemma table_insertAt {q : ℕ} (hq : q ≤ ps.length) (hshow : Shows view (ps.getD q emptyPage) r) :
    table view (insertAt ps q r) = Function.update (table view ps)
      ⟨q, insertSlot (ps.getD q emptyPage)⟩ (some (view r.bytes)) := by
  ext1 rid
  rw [Function.update_apply, table, table, lookup_eq_getD, lookup_eq_getD, insertAt,
    getD_update hq]
  by_cases hpage : rid.pageId = q
  · rw [if_pos hpage, hshow, hpage]
    exact if_congr (by simp [rid_eq_iff, hpage]) rfl rfl
  · rw [if_neg hpage, if_neg fun h => hpage (by rw [h])]

/-- The next RID of a page is not in use. -/
lemma table_insertSlot (view : List UInt8 → β) (ps : List Page) (q : ℕ) :
    table view ps ⟨q, insertSlot (ps.getD q emptyPage)⟩ = none := by
  have hnone := recordLen_insertSlot (ps.getD q emptyPage)
  rw [recordLen_eq_none, ← recordAt_eq_none] at hnone
  rw [table, lookup_eq_getD, hnone]
  rfl

lemma does_insertAt {q : ℕ} (hq : q ≤ ps.length) (hr : r.length ≠ 0)
    (hshow : Shows view (ps.getD q emptyPage) r) (rid : RID) :
    Does view (table view ps) (.insert (some r) (some rid))
      (.insert 0 (some ⟨q, insertSlot (ps.getD q emptyPage)⟩)) (table view (insertAt ps q r)) := by
  rw [table_insertAt hq hshow]
  exact .insert hr (table_insertSlot view ps q)

/-- The call does something to the table, and its pages stay well formed. -/
def HeapCall.Works (c : HeapCall) (view : List UInt8 → β) (s : HeapState) (ps : List Page) :
    Prop :=
  ∃ ps', Stores (c.exec s).2 ps' [] ∧ ps'.length ≤ ps.length + 1 ∧
    Does view (table view ps) c (c.exec s).1 (table view ps')

/-- A call that leaves the pages alone. -/
lemma works_same (h : Stores s ps []) {c : HeapCall} (hfd : 0 ≤ (c.exec s).2.heap.fd)
    (hbytes : (c.exec s).2.file.bytes = s.file.bytes)
    (hdoes : Does view (table view ps) c (c.exec s).1 (table view ps)) : c.Works view s ps :=
  ⟨ps, ⟨hfd, ⟨hbytes.trans h.holds.bytes, h.holds.tail_lt⟩, h.wellFormed⟩, Nat.le_succ _, hdoes⟩

lemma insert_works (h : Stores s ps []) (hlen : ps.length < 2 ^ 31) {record : Option Area}
    {rid : Option RID} (hshow : ShowsCall view ps (.insert record rid)) :
    (HeapCall.insert record rid).Works view s ps := by
  by_cases hno : ∀ r, record = some r → rid ≠ none → 4086 < r.length
  · have hexec := heapInsert_refuse (some s.heap) hno s.file
    simp only [HeapCall.Works, HeapCall.exec, hexec]
    exact ⟨ps, h, Nat.le_succ _, .refuse rfl⟩
  · push Not at hno
    obtain ⟨r, rfl, hrid, hmax⟩ := hno
    obtain ⟨rid, rfl⟩ := Option.ne_none_iff_exists'.mp hrid
    have hout := heapInsert_spec h.fd_nonneg h.wellFormed hlen hmax rid h.holds
    have htail := h.holds.tail_lt
    simp only [HeapCall.Works, HeapCall.exec] at hout ⊢
    generalize heapInsert (some s.heap) (some r) (some rid) s.file = out at hout ⊢
    obtain ⟨ret, f'⟩ := out
    obtain ⟨bytes, pos, fails, calls⟩ := f'
    cases hout with
    | @stored q p hq hacc hfirst =>
      obtain ⟨hpage, htarget⟩ := pageFor_of_first hq hacc hfirst
      have hget : ps.getD q emptyPage = p := by rw [← hpage, ← htarget, targetPage]
      have hlt : q < ps.length := (List.getElem?_eq_some_iff.mp hq).1
      have hset : ps.set q (inserted p r) = insertAt ps q r := by
        rw [insertAt, update, if_pos hlt, hget]
      have hdoes := does_insertAt hlt.le hacc.1 (hget ▸ hshow hmax p (.inl htarget.symm) hacc) rid
      rw [hget, ← hset] at hdoes
      exact ⟨ps.set q (inserted p r),
        ⟨h.fd_nonneg, ⟨rfl, htail⟩, hset ▸ wellFormed_insertAt h.wellFormed q r⟩, by simp, hdoes⟩
    | grown hr =>
      have hacc := accepts_emptyPage hr hmax
      have hget : ps.getD ps.length emptyPage = emptyPage := List.getD_eq_default _ _ le_rfl
      have hadd : ps ++ [inserted emptyPage r] = insertAt ps ps.length r := by
        rw [insertAt, update, if_neg (Nat.lt_irrefl _), hget]
      have hdoes := does_insertAt le_rfl hr (hget ▸ hshow hmax emptyPage (.inr rfl) hacc) rid
      rw [hget, insertSlot_emptyPage, ← hadd] at hdoes
      exact ⟨ps ++ [inserted emptyPage r], ⟨h.fd_nonneg, ⟨by simp, htail⟩,
        wellFormed_append h.wellFormed (wellFormed_inserted wellFormed_emptyPage r)⟩, by simp,
        hdoes⟩
    | allocated =>
      refine ⟨ps ++ [emptyPage], ⟨h.fd_nonneg, ⟨by simp, htail⟩,
        wellFormed_append h.wellFormed wellFormed_emptyPage⟩, by simp, ?_⟩
      rw [table_append_emptyPage]
      exact .refuse rfl
    | failed => exact ⟨ps, ⟨h.fd_nonneg, ⟨rfl, htail⟩, h.wellFormed⟩, Nat.le_succ _, .refuse rfl⟩

lemma get_works (h : Stores s ps []) (rid : RID) (buffer : Option Area) :
    (HeapCall.get rid buffer).Works view s ps := by
  cases buffer with
  | none =>
    simp only [HeapCall.Works, HeapCall.exec, heapGet_null]
    exact ⟨ps, h, Nat.le_succ _, .refuse rfl⟩
  | some buffer =>
    obtain ⟨hsame, hout⟩ := heapGet_spec h.fd_nonneg h.wellFormed rid buffer h.holds
    refine works_same h h.fd_nonneg hsame.bytes ?_
    rcases hout with ⟨rec, hrec, hle, hret⟩ | ⟨hret, -⟩
    · simp only [HeapCall.exec, hret]
      exact .get (by rw [table, hrec, Option.map_some]) hle
    · simp only [HeapCall.exec, hret]
      exact .refuse rfl

lemma delete_works (h : Stores s ps []) (rid : RID) : (HeapCall.delete rid).Works view s ps := by
  obtain ⟨p, hp, hlive, hret, hbytes⟩ | ⟨hret, hbytes, -⟩ :=
    heapDelete_spec h.fd_nonneg h.wellFormed rid h.holds
  · have hsome : lookup ps rid ≠ none := by
      rw [lookup_of_page hp, ne_eq, recordAt_eq_none]
      omega
    have hset : ps.set rid.pageId (deleted p rid.slotId) = deletePages ps rid := by
      obtain ⟨hlt, rfl⟩ := List.getElem?_eq_some_iff.mp hp
      rw [deletePages, List.getD_eq_getElem _ _ hlt]
    have htable : table view (deletePages ps rid) = Function.update (table view ps) rid none := by
      ext1 rid'
      rw [Function.update_apply, table, table, lookup_deletePages h.wellFormed hsome]
      split <;> rfl
    refine ⟨deletePages ps rid, ⟨h.fd_nonneg, ⟨hset ▸ hbytes, h.holds.tail_lt⟩,
      wellFormed_deletePages h.wellFormed hsome⟩, by simp [deletePages], ?_⟩
    rw [htable]
    simp only [HeapCall.exec, hret]
    exact .delete fun hnone => hsome (Option.map_eq_none_iff.mp hnone)
  · refine works_same h h.fd_nonneg hbytes ?_
    simp only [HeapCall.exec, hret]
    exact .refuse rfl

/-- Every call works, whatever fails. -/
lemma exec_works (h : Stores s ps []) (hlen : ps.length < 2 ^ 31) (c : HeapCall)
    (hshow : ShowsCall view ps c) : c.Works view s ps := by
  cases c with
  | insert record rid => exact insert_works h hlen hshow
  | get rid buffer => exact get_works h rid buffer
  | delete rid => exact delete_works h rid
  | pageCount =>
    obtain ⟨hsame, -⟩ := heapPageCount_spec h.holds h.fd_nonneg
    exact works_same h h.fd_nonneg hsame.bytes (.pageCount _)
  | reopen fd =>
    obtain ⟨-, hsame⟩ := openFile_spec (fd : ℤ) s.file
    have hexec := exec_reopen h.fd_nonneg fd
    refine works_same h ?_ ?_ ?_ <;> rw [hexec]
    · exact Int.natCast_nonneg fd
    · exact hsame.bytes
    · exact .reopen fd

end Table

/-! ### Runs -/

section Runs

variable {view : List UInt8 → β} {s s' : HeapState} {ps : List Page} {e : KillEvent}
  {es : List KillEvent} {fd : ℕ} {fails : ℕ → Bool}

lemma showsCall_length (hwf : ∀ p ∈ ps, WellFormed p) (c : HeapCall) :
    ShowsCall List.length ps c := by
  unfold ShowsCall
  split
  · rintro - p (rfl | rfl) hacc
    · exact shows_length (wellFormed_getD hwf _) hacc
    · exact shows_length wellFormed_emptyPage hacc
  · trivial

lemma showsCall_bytes (hwf : ∀ p ∈ ps, WellFormed p) {c : HeapCall} (hsafe : SafeCall ps c) :
    ShowsCall id ps c := by
  unfold ShowsCall
  split
  · rintro hmax p (rfl | rfl) hacc
    · exact shows_bytes (wellFormed_getD hwf _) hacc (hsafe hacc.1 hmax)
    · exact shows_bytes wellFormed_emptyPage hacc (insertSafe_emptyPage hmax)
  · trivial

/-- A step is a step of the table, in which a killed call is atomic. -/
lemma killStep_atomic (h : Stores s ps []) (hstep : KillStep s e s')
    (hshow : ShowsCall view ps e.call) :
    ∃ ps', Stores s' ps' [] ∧ ps'.length ≤ 2 ^ 31 ∧
      Crash.Atomically (Does view) (table view ps) e (table view ps') := by
  cases hstep with
  | returned c hroom =>
    have hlen := h.length_lt hroom
    obtain ⟨ps', hstores, hle, hdoes⟩ := exec_works h hlen c hshow
    exact ⟨ps', hstores, by omega, hdoes⟩
  | killed c k fd fails hroom =>
    -- the calls on the file that were not made any more are calls that fail
    have hlen := h.length_lt hroom
    obtain ⟨ps', hstores, hle, hdoes⟩ := exec_works (h.dying k) hlen c hshow
    exact ⟨ps', hstores.restarted fd fails, by omega, .inr ⟨_, hdoes⟩⟩

/-- A run is a run of the table, if `view` shows the records rightly in each step. -/
lemma exists_table_run (view : List UInt8 → β) {step : HeapState → KillEvent → HeapState → Prop}
    (hstep : ∀ s e s' ps, Stores s ps [] → step s e s' →
      KillStep s e s' ∧ ShowsCall view ps e.call)
    (hrun : Run step (faultyHeap fd fails) es s) :
    ∃ ps, Stores s ps [] ∧ ps.length ≤ 2 ^ 31 ∧
      Run (Crash.Atomically (Does view)) (fun _ => none) es (table view ps) := by
  have hsim : ∀ s e s' t, (∃ ps, Stores s ps [] ∧ ps.length ≤ 2 ^ 31 ∧ table view ps = t) →
      step s e s' → ∃ t', Crash.Atomically (Does view) t e t' ∧
        ∃ ps, Stores s' ps [] ∧ ps.length ≤ 2 ^ 31 ∧ table view ps = t' := by
    rintro s e s' t ⟨ps, hstores, -, rfl⟩ h
    obtain ⟨hkill, hshow⟩ := hstep s e s' ps hstores h
    obtain ⟨ps', hstores', hlen', hdoes⟩ := killStep_atomic hstores hkill hshow
    exact ⟨table view ps', hdoes, ps', hstores', hlen', rfl⟩
  obtain ⟨t, hruns, ps, hstores, hlen, rfl⟩ := Crash.exists_atomic_run hsim
    ⟨[], stores_faultyHeap fd fails, by simp, rfl⟩ hrun
  exact ⟨ps, hstores, hlen, hruns⟩

/-- **Calls are atomic, whatever fails and whenever the process is killed**: after every run the
file consists of well-formed pages, and the lengths of the records in it are those of a table on
which each call that returned did what it returned, and each call that was killed did nothing
or all that it could do. -/
theorem killed_atomic (hrun : Run KillStep (faultyHeap fd fails) es s) :
    (s.file.bytes.length % pageSize = 0 ∧ ∀ p ∈ blocks pageSize s.file.bytes, WellFormed p) ∧
      ∃ t, Run (Crash.Atomically (Does List.length)) (fun _ => none) es t ∧
        ∀ rid, lookupLen (blocks pageSize s.file.bytes) rid = t rid := by
  obtain ⟨ps, hstores, -, hruns⟩ := exists_table_run List.length
    (fun s e s' ps h hstep => ⟨hstep, showsCall_length h.wellFormed e.call⟩) hrun
  rw [hstores.holds.blocks_eq]
  refine ⟨⟨?_, hstores.wellFormed⟩, table List.length ps, hruns, lookupLen_eq hstores.wellFormed⟩
  rw [hstores.holds.bytes, List.append_nil, length_flat, Nat.mul_mod_left]

/-! ### What was acknowledged -/

/-- A record stays in the table until it is deleted. -/
lemma kept_of_insert {t t' : Table β} {es₁ es₂ : List KillEvent} {r : Area} {rid₀ rid : RID}
    (hrun : Run (Crash.Atomically (Does view)) t
      (es₁ ++ .returned (.insert (some r) (some rid₀)) (.insert 0 (some rid)) :: es₂) t')
    (hdeleted : .returned (.delete rid) (.delete 0) ∉ es₂) (hkilled : .killed (.delete rid) ∉ es₂) :
    t' rid = some (view r.bytes) := by
  obtain ⟨t₁, -, hrest⟩ := Run.append_inv hrun
  obtain ⟨t₂, hinsert, hlast⟩ := Run.cons_inv hrest
  refine Crash.keeps (I := fun t => t rid = some (view r.bytes)) hlast
    (fun c ret hmem t t' ht hdoes => ?_) ?_
  · cases hdoes with
    | insert hr hfree =>
      -- the RID of a record in the table is not given to another one
      rw [Function.update_of_ne]
      · exact ht
      · rintro rfl
        rw [ht] at hfree
        cases hfree
    | delete hlive =>
      rw [Function.update_of_ne]
      · exact ht
      · rintro rfl
        exact hmem.elim hdeleted hkilled
    | _ => exact ht
  · cases hinsert with
    | insert => exact Function.update_self ..
    | refuse hret => cases hret

/-- **An acknowledged record is not lost**: when `heap_insert` has returned the RID of a record, and
no `heap_delete` of that RID has returned `0` or was killed since, then a process that opens
the file gets a record of the same length for this RID, and the same bytes if no call did harm to
the bytes of other records. -/
theorem acknowledged_kept {es₁ es₂ : List KillEvent} {r : Area} {rid₀ rid : RID}
    (hrun : Run KillStep (faultyHeap fd fails)
      (es₁ ++ .returned (.insert (some r) (some rid₀)) (.insert 0 (some rid)) :: es₂) s)
    (hdeleted : .returned (.delete rid) (.delete 0) ∉ es₂) (hkilled : .killed (.delete rid) ∉ es₂)
    (fd' : ℕ) {buffer : Area} (hle : r.length ≤ buffer.length) :
    ∃ rec : List UInt8, rec.length = r.length ∧
      (heapGet (some (s.restarted fd' fun _ => false).heap) rid (some buffer)
        (s.restarted fd' fun _ => false).file).1 = ((r.length : ℤ), some (buffer.fill rec)) ∧
      (Run SafeKillStep (faultyHeap fd fails)
        (es₁ ++ .returned (.insert (some r) (some rid₀)) (.insert 0 (some rid)) :: es₂) s →
        rec = r.bytes) := by
  obtain ⟨ps, hstores, hlen, hruns⟩ := exists_table_run List.length
    (fun s e s' ps h hstep => ⟨hstep, showsCall_length h.wellFormed e.call⟩) hrun
  have hkept := kept_of_insert hruns hdeleted hkilled
  obtain ⟨rec, hrec, hreclen⟩ := Option.map_eq_some_iff.mp hkept
  have hnew := hstores.restarted fd' fun _ => false
  have hhealthy : Healthy (s.restarted fd' fun _ => false).file := by
    rw [restarted_eq]
    exact fun _ => rfl
  refine ⟨rec, hreclen, ?_, fun hsafe => ?_⟩
  · obtain ⟨-, ⟨rec', hrec', -, hret⟩ | ⟨-, hno⟩⟩ :=
      heapGet_spec hnew.fd_nonneg hnew.wellFormed rid buffer hnew.holds
    · rw [hrec, Option.some.injEq] at hrec'
      rw [hret, ← hrec', hreclen]
      rfl
    · exact absurd (hno hhealthy (by omega) rec hrec) (by rw [hreclen]; exact not_lt.mpr hle)
  · obtain ⟨ps', hstores', -, hruns'⟩ := exists_table_run id
      (fun s e s' ps h hstep => ⟨hstep.1,
        showsCall_bytes h.wellFormed (h.holds.blocks_eq ▸ hstep.2)⟩) hsafe
    have hps : ps' = ps := by rw [← hstores'.holds.blocks_eq, ← hstores.holds.blocks_eq]
    have hbytes := kept_of_insert hruns' hdeleted hkilled
    rw [hps, table, hrec] at hbytes
    exact Option.some.inj hbytes

end Runs

def firstInsert : HeapCall := .insert (some (record 24 1 (by decide))) (some ⟨0, 0⟩)

/-- The process is killed in its first insert; the next one makes the same call, and it is killed
when it deletes another RID. -/
def killedInsert : List KillEvent :=
  [.killed firstInsert, .returned firstInsert (.insert 0 (some ⟨0, 0⟩)), .killed (.delete ⟨0, 1⟩)]

/-- The page was allocated, and the process is killed before it writes the record. -/
def halfInserted : HeapState :=
  (firstInsert.exec ((faultyHeap 3 fun _ => false).dying 3)).2.restarted 5 fun _ => false

lemma halfInserted_file :
    (halfInserted.file.bytes.length, (firstInsert.exec halfInserted).1,
      (firstInsert.exec halfInserted).2.file.bytes.length,
      decide (InsertSafe (targetPage (blocks pageSize halfInserted.file.bytes)
        (record 24 1 (by decide))) 24)) =
      (pageSize, .insert 0 (some ⟨0, 0⟩), pageSize, true) := by decide +kernel

lemma exists_killedInsert_run :
    ∃ s, Run SafeKillStep (faultyHeap 3 fun _ => false) killedInsert s := by
  have hroom : Roomy (faultyHeap 3 fun _ => false).file := by simp [Roomy, faultyHeap, File.start]
  have hfirst : SafeKillStep (faultyHeap 3 fun _ => false) (.killed firstInsert) halfInserted :=
    ⟨.killed firstInsert 3 5 (fun _ => false) hroom, fun _ _ => insertSafe_emptyPage (by decide)⟩
  have hfile := halfInserted_file
  generalize halfInserted = s₁ at hfirst hfile
  simp only [Prod.mk.injEq, decide_eq_true_eq] at hfile
  obtain ⟨hlen, hret, hlen', hsafe⟩ := hfile
  have hroom₁ : Roomy s₁.file := by
    rw [Roomy, hlen]
    simp [pageSize]
  have hsecond : SafeKillStep s₁ (.returned firstInsert (firstInsert.exec s₁).1)
      (firstInsert.exec s₁).2 := ⟨.returned firstInsert hroom₁, fun _ _ => hsafe⟩
  rw [hret] at hsecond
  have hroom₂ : Roomy (firstInsert.exec s₁).2.file := by
    rw [Roomy, hlen']
    simp [pageSize]
  exact ⟨_, .cons hfirst (.cons hsecond
    (.single ⟨.killed (.delete ⟨0, 1⟩) 4 6 (fun _ => false) hroom₂, trivial⟩))⟩

theorem killed_atomic_insert : ∃ s, Run KillStep (faultyHeap 3 fun _ => false) killedInsert s ∧
    s.file.bytes.length % pageSize = 0 ∧
    ∃ t, Run (Crash.Atomically (Does List.length)) (fun _ => none) killedInsert t ∧
      (∀ rid, lookupLen (blocks pageSize s.file.bytes) rid = t rid) ∧ t ⟨0, 0⟩ = some 24 := by
  obtain ⟨s, hrun⟩ := exists_killedInsert_run
  have hkill : Run KillStep _ killedInsert s := hrun.mono fun _ _ _ h => h.1
  obtain ⟨⟨hlen, -⟩, t, htable, hlookup⟩ := killed_atomic hkill
  have htable' : Run (Crash.Atomically (Does List.length)) _ ([.killed firstInsert] ++ _) t :=
    htable
  have hkept := kept_of_insert htable' (by simp) (by simp)
  exact ⟨s, hkill, hlen, t, htable, hlookup, hkept⟩

theorem acknowledged_kept_insert : ∃ s,
    Run SafeKillStep (faultyHeap 3 fun _ => false) killedInsert s ∧
      (heapGet (some (s.restarted 7 fun _ => false).heap) ⟨0, 0⟩ (some (record 24 0 (by decide)))
        (s.restarted 7 fun _ => false).file).1 =
        (24, some ((record 24 0 (by decide)).fill (record 24 1 (by decide)).bytes)) := by
  obtain ⟨s, hrun⟩ := exists_killedInsert_run
  have hkill : Run KillStep _ ([.killed firstInsert] ++ _) s := hrun.mono fun _ _ _ h => h.1
  obtain ⟨rec, -, hget, hbytes⟩ := acknowledged_kept hkill (by simp) (by simp) 7
    (show (record 24 1 (by decide)).length ≤ (record 24 0 (by decide)).length from le_rfl)
  obtain rfl := hbytes hrun
  exact ⟨s, hrun, hget⟩

end MiniDb

end CsLab
