/-
The accesses of the page functions.

No page function checks where it reads and writes, or whether a subtraction or an
assignment keeps its value.  What they do is `Access.Sound` all the same, at every point of
a call on a reachable page: a field that is read or written is one of the header or of the
directory as it is then, and records are copied between the two (`page_calls_sound`).
-/
import CsLab.MiniDb.PageRuns

namespace CsLab

namespace MiniDb

open PageM Prog Extents

/-! ### Sound accesses -/

/-- A field of the header, or of a slot of the directory, which lies above the header. -/
def IsField (p : Page) (off : ℕ) : Prop :=
  off = slotCountField ∨ off = freeStartField ∨ off = freeEndField ∨
    ∃ i < slotCount p, sizeofPageHeader ≤ slotAt i ∧
      (off = offsetField (slotAt i) ∨ off = lengthField (slotAt i))

/-- The bytes lie behind the header and in front of the directory. -/
structure InRecords (p : Page) (off len : ℕ) : Prop where
  header_le : sizeofPageHeader ≤ off
  le_freeEnd : off + len ≤ freeEnd p
  directory : freeEnd p + sizeofSlot * slotCount p = pageSize

/-- The access touches only bytes of the page `p` that it may touch, and loses no bits. -/
def Access.Sound (p : Page) : Access → Prop
  | .load off => off + 2 ≤ pageSize ∧ IsField p off
  | .store off v => off + 2 ≤ pageSize ∧ IsField p off ∧ v < 2 ^ 16
  | .clear => True
  | .copyIn dst len => InRecords p dst len
  | .copyOut src len => InRecords p src len
  | .move dst src len => InRecords p dst len ∧ InRecords p src len
  | .assign v => v < 2 ^ 16
  | .gap freeEnd freeStart => freeStart ≤ freeEnd

/-- All accesses so far were sound, each for the page that it was made to. -/
def Traced (s : PageState) : Prop := ∀ e ∈ s.trace, e.2.Sound e.1

lemma traced_nil (p : Page) : Traced ⟨p, []⟩ := by
  simp [Traced]

lemma isField_slot {p : Page} {i off : ℕ} (hi : i < 1022) (hcount : i < slotCount p)
    (h : off = offsetField (slotAt i) ∨ off = lengthField (slotAt i)) : IsField p off := by
  refine .inr (.inr (.inr ⟨i, hcount, ?_, h⟩))
  simp only [slotAt, sizeofPageHeader]
  omega

lemma WellFormed.inRecords {p : Page} (hp : WellFormed p) {off len : ℕ} (hoff : 6 ≤ off)
    (hle : off + len ≤ freeEnd p) : InRecords p off len :=
  ⟨hoff, hle, by have := hp.end_eq; simp only [sizeofSlot, pageSize]; omega⟩

/-! ### The accesses of the code -/

namespace Traced

variable {s : PageState} {off i v : ℕ}

lemma cons (hs : Traced s) {q : Page} {a : Access} (ha : a.Sound s.page) :
    Traced ⟨q, (s.page, a) :: s.trace⟩ :=
  List.forall_mem_cons.mpr ⟨ha, hs⟩

lemma loadHeader (hs : Traced s)
    (h : off = slotCountField ∨ off = freeStartField ∨ off = freeEndField) :
    Traced (load off s).2 := by
  refine hs.cons ⟨?_, by unfold IsField; tauto⟩
  rcases h with rfl | rfl | rfl <;> decide

lemma loadOffset (hs : Traced s) (hi : i < 1022) (hcount : i < slotCount s.page) :
    Traced (load (offsetField (slotAt i)) s).2 :=
  hs.cons ⟨by simp only [offsetField, slotAt, pageSize]; omega, isField_slot hi hcount (.inl rfl)⟩

lemma loadLength (hs : Traced s) (hi : i < 1022) (hcount : i < slotCount s.page) :
    Traced (load (lengthField (slotAt i)) s).2 :=
  hs.cons ⟨by simp only [lengthField, slotAt, pageSize]; omega, isField_slot hi hcount (.inr rfl)⟩

lemma storeHeader (hs : Traced s)
    (h : off = slotCountField ∨ off = freeStartField ∨ off = freeEndField) (hv : v < 65536) :
    Traced (store off v s).2 := by
  refine hs.cons ⟨?_, by unfold IsField; tauto, hv⟩
  rcases h with rfl | rfl | rfl <;> decide

lemma storeOffset (hs : Traced s) (hi : i < 1022) (hcount : i < slotCount s.page)
    (hv : v < 65536) : Traced (store (offsetField (slotAt i)) v s).2 :=
  hs.cons ⟨by simp only [offsetField, slotAt, pageSize]; omega, isField_slot hi hcount (.inl rfl),
    hv⟩

lemma storeLength (hs : Traced s) (hi : i < 1022) (hcount : i < slotCount s.page)
    (hv : v < 65536) : Traced (store (lengthField (slotAt i)) v s).2 :=
  hs.cons ⟨by simp only [lengthField, slotAt, pageSize]; omega, isField_slot hi hcount (.inr rfl),
    hv⟩

lemma copyIn (hs : Traced s) {dst : ℕ} {src : List UInt8}
    (h : InRecords s.page dst src.length) : Traced (copyIn dst src s).2 :=
  hs.cons h

lemma copyOut (hs : Traced s) {src len : ℕ} (h : InRecords s.page src len) :
    Traced (copyOut src len s).2 :=
  hs.cons h

lemma move (hs : Traced s) {dst src len : ℕ} (hdst : InRecords s.page dst len)
    (hsrc : InRecords s.page src len) : Traced (PageM.move dst src len s).2 :=
  hs.cons ⟨hdst, hsrc⟩

lemma assign (hs : Traced s) (hv : v < 65536) : Traced (assign v s).2 := hs.cons hv

lemma gap (hs : Traced s) {e b : ℕ} (h : b ≤ e) : Traced (gap e b s).2 := hs.cons h

/-- The place of a slot of a page fits in 16 bits. -/
lemma slotOffset (hs : Traced s) (hi : i < 1023) : Traced (slotOffset i s).2 := by
  refine hs.assign ?_
  simp only [pageSize, sizeofSlot]
  omega

end Traced

/-! ### `page_delete` and `page_get` -/

lemma pageDelete_traced (i : ℕ) {s : PageState} (hp : WellFormed s.page) (hs : Traced s) :
    Traced (pageDelete i s).2 := by
  have hcount := hp.slotCount_le
  have hcnt := hs.loadHeader (.inl rfl)
  simp only [pageDelete, run_bind, run_ite, load_slotCount]
  split
  · exact hcnt
  · next hi =>
    rw [ge_iff_le, not_le] at hi
    rw [slotOffset_fst _ (show i < 1023 by omega)]
    have hlen := (hcnt.slotOffset (show i < 1023 by omega)).loadLength (i := i) (by omega)
      (by simpa only [slotOffset_page, load_page] using hi)
    split
    · exact hlen
    · exact hlen.storeLength (by omega) (by simpa only [slotOffset_page, load_page] using hi) (by decide)

lemma pageGet_traced (i : ℕ) (buffer : Option Area) {s : PageState} (hp : WellFormed s.page)
    (hs : Traced s) : Traced (pageGet i buffer s).2 := by
  cases buffer with
  | none => exact hs
  | some buffer =>
    have hcount := hp.slotCount_le
    have hend := hp.end_eq
    have hstart := hp.start_le
    have hcnt := hs.loadHeader (.inl rfl)
    simp only [pageGet, run_bind, run_ite, load_slotCount]
    split
    · exact hcnt
    · next hi =>
      rw [ge_iff_le, not_le] at hi
      simp only [slotOffset_fst _ (show i < 1023 by omega), load_length, load_offset, load_page,
        slotOffset_page]
      have hlength : ∀ {s' : PageState}, Traced s' → s'.page = s.page →
          Traced (load (lengthField (slotAt i)) s').2 :=
        fun hs' hpage => hs'.loadLength (by omega) (hpage ▸ hi)
      have hlen := hlength (hcnt.slotOffset (show i < 1023 by omega))
        (by simp only [slotOffset_page, load_page])
      split
      · exact hlen
      · next hlive =>
        have hin := hp.inside i hi hlive
        have hlen' := hlength hlen (by simp only [slotOffset_page, load_page])
        split
        · exact hlen'
        · have hoff := hlen'.loadOffset (i := i) (by omega)
            (by simpa only [slotOffset_page, load_page] using hi)
          have hlen₂ := hlength hoff (by simp only [slotOffset_page, load_page])
          refine hlength (hlen₂.copyOut ?_)
            (by simp only [slotOffset_page, load_page, copyOut_page])
          simp only [slotOffset_page, load_page]
          exact hp.inRecords hin.1 (by omega)

/-! ### `page_compact` -/

/-- What a turn moves, and where to, follows from the packing of the slots so far. -/
lemma pageCompactTurn_traced {p₀ : Page} (h₀ : WellFormed p₀) {i : ℕ} (hi : i < slotCount p₀)
    {s : PageState} (hpack : Packing p₀ i s.page) (hs : Traced s) :
    Traced (pageCompactTurn i (packedPlace p₀ i) s).2 := by
  have hcount := h₀.slotCount_le
  have hend := h₀.end_eq
  have hstart := h₀.start_le
  have hi' : i < slotCount s.page := hpack.count ▸ hi
  have hlen : s.page.get16 (lengthField (slotAt i)) = slotLen p₀ i := hpack.len i hi
  have hoff : s.page.get16 (offsetField (slotAt i)) = slotOff p₀ i :=
    (hpack.off i hi).trans (if_neg (by omega))
  have hread := (hs.slotOffset (show i < 1023 by omega)).loadLength (i := i) (by omega)
    (by simpa only [slotOffset_page] using hi')
  simp only [pageCompactTurn, run_bind, run_ite, run_pure, load_fst, load_page, slotOffset_page,
    slotOffset_fst _ (show i < 1023 by omega), hlen, hoff]
  by_cases hzero : slotLen p₀ i = 0
  · rw [if_pos hzero]
    exact hread
  · rw [if_neg hzero]
    have hpl := h₀.packedPlace_add_len_le hi
    have hpl6 : 6 ≤ packedPlace p₀ i := Nat.le_add_right _ _
    have hin := h₀.inside i hi hzero
    have hrecords : ∀ off, 6 ≤ off → off + slotLen p₀ i ≤ freeStart p₀ →
        InRecords s.page off (slotLen p₀ i) := fun off hoff hle => by
      refine ⟨hoff, by rw [hpack.fend]; omega, ?_⟩
      rw [hpack.fend, hpack.count]
      simp only [sizeofSlot, pageSize]
      omega
    have hmoved := ((hread.loadOffset (i := i) (by omega)
      (by simpa only [load_page, slotOffset_page] using hi')).move
        (by simpa only [load_page, slotOffset_page] using hrecords _ hpl6 hpl)
        (by simpa only [load_page, slotOffset_page] using hrecords _ hin.1 hin.2)).storeOffset
      (i := i) (v := packedPlace p₀ i) (by omega)
      (by simpa only [move_page, load_page, slotOffset_page, slotCount_blit _ _ hpl6] using hi')
      (by omega)
    -- the length that is read again after the move is the old one
    have hstep := hpack.step h₀ hi hzero
    rw [slotLen, slotOff, hlen, hoff] at hstep
    have hlen' := hstep.len i hi
    rw [slotLen] at hlen'
    simp only [store_page, move_page, load_page, slotOffset_page, hlen']
    refine (hmoved.loadLength (by omega) ?_).assign (by omega)
    simpa only [store_page, move_page, load_page, slotOffset_page, hstep.count] using hi

lemma pageCompactLoop_traced {p₀ : Page} (h₀ : WellFormed p₀) :
    ∀ (fuel i : ℕ) (s : PageState), i ≤ slotCount p₀ → Packing p₀ i s.page → Traced s →
      Traced (pageCompactLoop fuel i (packedPlace p₀ i) s).2 := by
  intro fuel
  induction fuel with
  | zero =>
    intro i s _ _ hs
    exact hs
  | succ fuel ih =>
    intro i s hi hpack hs
    have hload := hs.loadHeader (.inl rfl)
    rw [pageCompactLoop_succ, hpack.count]
    by_cases hlt : i < slotCount p₀
    · obtain ⟨hplace, hturn⟩ := pageCompactTurn_spec h₀ hlt (load slotCountField s).2 hpack
      rw [if_pos hlt, hplace]
      exact ih (i + 1) _ hlt hturn (pageCompactTurn_traced h₀ hlt hpack hload)
    · rw [if_neg hlt]
      exact hload

lemma pageCompact_traced {s : PageState} (hp : WellFormed s.page) (hs : Traced s) :
    Traced (pageCompact s).2 := by
  have hcount := hp.slotCount_le
  have hlive := hp.liveBytes_le
  have hstart := freeStart_lt s.page
  have h6 : ∀ s' : PageState, (assign sizeofPageHeader s').1 = packedPlace s'.page 0 :=
    fun _ => rfl
  have hpack : Packing s.page 0 (assign sizeofPageHeader s).2.page := by
    rw [assign_page]
    exact Packing.refl s.page
  have hplace := (pageCompactLoop_spec hp (2 ^ 16) 0 (assign sizeofPageHeader s).2 (by omega)
    (Nat.zero_le _) hpack).1
  have hloop := pageCompactLoop_traced hp (2 ^ 16) 0 (assign sizeofPageHeader s).2
    (Nat.zero_le _) hpack (hs.assign (by decide))
  simp only [pageCompact, run_bind, h6, hplace]
  exact hloop.storeHeader (.inr (.inl rfl)) (by rw [packedPlace_slotCount]; omega)

/-! ### `page_insert` -/

lemma reusableSlotLoop_traced {p : Page} (hcount : slotCount p ≤ 1022) :
    ∀ (fuel i : ℕ) (s : PageState), s.page = p → Traced s →
      Traced (reusableSlotLoop fuel i s).2 := by
  intro fuel
  induction fuel with
  | zero =>
    intro i s _ hs
    exact hs
  | succ fuel ih =>
    intro i s hpage hs
    have hload := hs.loadHeader (.inl rfl)
    rw [reusableSlotLoop]
    simp only [run_bind, run_ite, load_slotCount]
    split
    · next hlt =>
      have hi : i < 1022 := by
        rw [hpage] at hlt
        omega
      have hi' : i < 1023 := by omega
      rw [slotOffset_fst _ hi']
      have hlen := (hload.slotOffset hi').loadLength (i := i) (by omega)
        (by simpa only [slotOffset_page, load_page] using hlt)
      split
      · exact hlen
      · exact ih (i + 1) _ (by simpa only [load_page, slotOffset_page] using hpage) hlen
    · exact hload

lemma fillSlot_traced {q : Page} {r : Area} (hq : WellFormed q)
    (h : freeStart q + neededSpace q r.length ≤ freeEnd q) {s : PageState}
    (hpage : s.page = opened q r) (hs : Traced s) :
    Traced (placeRecord.fillSlot r (slotAt (insertSlot q)) (insertSlot q) s).2 := by
  obtain ⟨hcount, hend, hstart, hroom⟩ := opened_header hq h
  have hi := insertSlot_lt_slotsAfter q
  rw [← hcount, ← hpage] at hi
  have hslot := insertSlot_lt hq h
  have hoff : 4 ≤ offsetField (slotAt (insertSlot q)) := by
    simp only [offsetField, slotAt]
    omega
  have hlen : 4 ≤ lengthField (slotAt (insertSlot q)) := by
    simp only [lengthField, slotAt]
    omega
  have hoffset := (hs.loadHeader (.inr (.inl rfl))).storeOffset (v := freeStart s.page) hslot
    ((load_page s _).symm ▸ hi) (freeStart_lt _)
  have hlength := hoffset.storeLength (i := insertSlot q) (v := r.length) hslot
    (by simpa only [store_page, load_page, slotCount_put16 _ _ ((show 2 ≤ 4 by omega).trans hoff)]
      using hi)
    r.length_lt_65536
  have hfree : freeStart s.page + r.length < 65536 := by
    rw [hpage, hstart]
    omega
  simp only [placeRecord.fillSlot, run_bind, run_pure, load_freeStart, store_page, load_page,
    freeStart_put16 _ _ (Or.inl hoff), freeStart_put16 _ _ (Or.inl hlen)]
  exact (hlength.loadHeader (.inr (.inl rfl))).storeHeader (.inr (.inl rfl)) hfree

lemma placeRecord_traced {q : Page} {r : Area} (hq : WellFormed q)
    (h : freeStart q + neededSpace q r.length ≤ freeEnd q) {s : PageState} (hpage : s.page = q)
    (hs : Traced s) : Traced (placeRecord r (reusableSlotId (firstDeleted q)) s).2 := by
  subst hpage
  have hcount := hq.slotCount_le
  have hend := hq.end_eq
  have hstart := hq.start_ge
  have hneeded := neededSpace_add s.page r.length
  have hcountb := slotCount_blit s.page r.bytes hq.start_ge
  have hstartb := freeStart_blit s.page r.bytes hq.start_ge
  have hendb := freeEnd_blit s.page r.bytes hq.start_ge
  have hlen : r.length ≤ neededSpace s.page r.length := Nat.le_add_right _ _
  have hroom : freeStart s.page + r.bytes.length ≤ freeEnd s.page :=
    (Nat.add_le_add_left hlen _).trans h
  have hload := hs.loadHeader (.inr (.inl rfl))
  have hcopied : Traced (PageM.copyIn (freeStart s.page) r.bytes (load freeStartField s).2).2 :=
    hload.copyIn ((load_page s _).symm ▸ hq.inRecords hstart hroom)
  cases hd : firstDeleted s.page with
  -- a new slot at the end of the directory
  | none =>
    have hins : insertSlot s.page = slotCount s.page := by rw [insertSlot, hd]; rfl
    have hslot := hins ▸ insertSlot_lt hq h
    have hend' : (2 ^ 64 + freeEnd s.page - sizeofSlot) % 2 ^ 64 = freeEnd s.page - 4 := by
      simp only [sizeofSlot]
      omega
    have hcounted := (hcopied.loadHeader (.inl rfl)).slotOffset
      (i := slotCount s.page) (by omega)
    have hended := (hcounted.loadHeader (.inr (.inr rfl))).storeHeader (v := freeEnd s.page - 4)
      (.inr (.inr rfl)) (by omega)
    have hopened := (hended.loadHeader (.inl rfl)).storeHeader (v := slotCount s.page + 1)
      (.inl rfl) (by omega)
    simp only [placeRecord, reusableSlotId, run_bind, load_freeStart, load_freeEnd, load_slotCount,
      load_page, copyIn_page, ne_eq, not_true_eq_false, if_false, store_page, slotOffset_page,
      hcountb, hendb, hend', slotOffset_fst _ (show slotCount s.page < 1023 by omega),
      slotCount_put16 _ _ (show 2 ≤ freeEndField by simp only [freeEndField]; omega)]
    have hfill := fillSlot_traced hq h
      (by simp only [store_page, load_page, slotOffset_page, copyIn_page, opened, hd]) hopened
    rwa [hins] at hfill
  -- the deleted slot `i`
  | some i =>
    have hins : insertSlot s.page = i := by rw [insertSlot, hd]; rfl
    have hi := (firstDeleted_eq_some.mp hd).1
    have hassign : ∀ s' : PageState, (assign ((i : ℤ) % 2 ^ 16).toNat s').1 = i := by
      intro s'
      rw [assign_fst s' (by omega)]
      omega
    have hslot := (hcopied.assign (v := ((i : ℤ) % 2 ^ 16).toNat) (by omega)).slotOffset
      (i := i) (by omega)
    simp only [placeRecord, reusableSlotId, run_bind, load_freeStart, ne_eq,
      show ¬ (i : ℤ) = -1 by omega, not_false_eq_true, if_true, hassign,
      slotOffset_fst _ (show i < 1023 by omega)]
    have hfill := fillSlot_traced hq h
      (by simp only [slotOffset_page, assign_page, copyIn_page, load_page, opened, hd]) hslot
    rwa [hins] at hfill

/-- The gap is computed of a well-formed page, so it does not wrap. -/
lemma gap_traced {s : PageState} (hp : WellFormed s.page) (hs : Traced s) :
    Traced (gap (freeEnd s.page) (freeStart s.page)
      (load freeStartField (load freeEndField s).2).2).2 :=
  ((hs.loadHeader (.inr (.inr rfl))).loadHeader (.inr (.inl rfl))).gap hp.start_le

lemma pageInsert_traced (record : Option Area) {s : PageState} (hp : WellFormed s.page)
    (hs : Traced s) : Traced (pageInsert record s).2 := by
  by_cases hrec : ∀ r, record = some r → r.length = 0
  · rw [pageInsert_refuse record hrec]
    exact hs
  push Not at hrec
  obtain ⟨r, rfl, hr⟩ := hrec
  have hcount := hp.slotCount_le
  obtain ⟨hid, hpage⟩ := reusableSlotLoop_spec hcount (2 ^ 16) 0 s (by omega) (Nat.zero_le _)
    (by simp) rfl
  have hfound := reusableSlotLoop_traced hcount (2 ^ 16) 0 s rfl hs
  rw [pageInsert, run_ite, if_neg hr, run_bind]
  revert hid hpage hfound
  generalize reusableSlotLoop (2 ^ 16) 0 s = found
  intro hid hpage hfound
  simp only [run_bind, run_ite, hid, neededSpace_eq, load_freeEnd, load_freeStart, load_page]
  rw [← hpage] at hp ⊢
  have hmeasured := gap_traced hp hfound
  have hstate : (gap (freeEnd found.2.page) (freeStart found.2.page)
      (load freeStartField (load freeEndField found.2).2).2).2.page = found.2.page := by
    rw [gap_page, load_page, load_page]
  rw [hp.gap_fst]
  revert hmeasured hstate
  generalize (gap (freeEnd found.2.page) (freeStart found.2.page)
    (load freeStartField (load freeEndField found.2).2).2).2 = s₁
  intro hmeasured hstate
  have hstart := hp.start_le
  -- the gap is wide enough, or the page is compacted and looked at again
  by_cases hasis : freeStart found.2.page + neededSpace found.2.page r.length ≤
      freeEnd found.2.page
  · rw [if_neg (by omega)]
    exact placeRecord_traced hp hasis hstate hmeasured
  · rw [if_pos (by omega)]
    have hprep : Prepared found.2.page r.length (pageCompact s₁).2.page :=
      .compacted (by omega) (pageCompact_spec hp s₁ hstate)
    have hwf := hprep.wellFormed hp
    have hmeasured' := gap_traced hwf (pageCompact_traced (hstate ▸ hp) hmeasured)
    split
    · exact hmeasured'
    · next hfits =>
      have hstart' := hwf.start_le
      rw [hwf.gap_fst] at hfits
      rw [← hprep.firstDeleted_eq]
      refine placeRecord_traced hwf ?_ (by simp only [gap_page, load_page]) hmeasured'
      rw [hprep.neededSpace_eq]
      omega

/-! ### Calls on a reachable page -/

/-- A call of a page function. -/
inductive PageCall where
  | insert (record : Option Area)
  | get (slotId : ℕ) (buffer : Option Area)
  | delete (slotId : ℕ)
  | compact

/-- The accesses of a call, each with the page as it was then. -/
def PageCall.accesses (p : Page) : PageCall → List (Page × Access)
  | .insert record => (pageInsert record ⟨p, []⟩).2.trace
  | .get slotId buffer => (pageGet slotId buffer ⟨p, []⟩).2.trace
  | .delete slotId => (pageDelete slotId ⟨p, []⟩).2.trace
  | .compact => (pageCompact ⟨p, []⟩).2.trace

lemma PageCall.sound {p : Page} (hp : WellFormed p) (call : PageCall) :
    ∀ e ∈ call.accesses p, e.2.Sound e.1 := by
  cases call with
  | insert record => exact pageInsert_traced record hp (traced_nil p)
  | get i buffer => exact pageGet_traced i buffer hp (traced_nil p)
  | delete i => exact pageDelete_traced i hp (traced_nil p)
  | compact => exact pageCompact_traced hp (traced_nil p)

/-- **The page functions stay in bounds and lose no bits**: on every reachable page and with
every argument, every access that they make is sound for the page it is made to. -/
theorem page_calls_sound {p : Page} (hp : Reachable p) (call : PageCall) :
    ∀ e ∈ call.accesses p, e.2.Sound e.1 :=
  call.sound hp.wellFormed

theorem page_calls_sound_reuse :
    ∃ p, Reachable p ∧
      ∀ e ∈ (PageCall.insert (some (record 4000 66 (by decide)))).accesses p, e.2.Sound e.1 :=
  ⟨pageAfter emptyPage [.insert (some (record 100 65 (by decide))), .delete 0], ⟨_, rfl⟩,
    page_calls_sound ⟨_, rfl⟩ _⟩

end MiniDb

end CsLab
