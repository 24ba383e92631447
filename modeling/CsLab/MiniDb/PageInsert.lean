/-
What `page_insert` does.

A record of `n` bytes fits in a page if the live records, the new one and the
directory that it needs fit (`Fits`).  The code looks only at the gap between
`free_start` and `free_end`, and compacts the page once when that is too narrow;
`pageInsert_spec` says that it decides `Fits` nevertheless, and that an accepted record
is placed behind the records of the page or of the compacted page (`Placed`).
-/
import CsLab.MiniDb.PageInvariant

namespace CsLab

namespace MiniDb

open PageM Prog Extents Finset

/-! ### `page_insert` -/

/-- The slot that `page_insert` uses: the first deleted one, or a new one. -/
def insertSlot (p : Page) : ℕ := (firstDeleted p).getD (slotCount p)

/-- The space that a record of `n` bytes needs between `free_start` and `free_end`. -/
def neededSpace (p : Page) (n : ℕ) : ℕ := n + if firstDeleted p = none then 4 else 0

/-- The size of the directory after `page_insert`. -/
def slotsAfter (p : Page) : ℕ := slotCount p + if firstDeleted p = none then 1 else 0

/-- The exact space check: the live records, the new one and the directory that it
needs fit in the page. -/
def Fits (p : Page) (n : ℕ) : Prop := 6 + liveBytes p + n + 4 * slotsAfter p ≤ 4096

instance (p : Page) (n : ℕ) : Decidable (Fits p n) := inferInstanceAs (Decidable (_ ≤ _))

lemma insertSlot_lt_slotsAfter (p : Page) : insertSlot p < slotsAfter p := by
  cases hd : firstDeleted p with
  | none => simp [insertSlot, slotsAfter, hd]
  | some i => simpa [insertSlot, slotsAfter, hd] using (firstDeleted_eq_some.mp hd).1

lemma lt_slotCount_of_ne {p : Page} {j : ℕ} (hj : j < slotsAfter p) (hne : j ≠ insertSlot p) :
    j < slotCount p := by
  cases hd : firstDeleted p with
  | none =>
    simp only [insertSlot, slotsAfter, hd, if_true, Option.getD_none] at hj hne
    omega
  | some i => simpa [slotsAfter, hd] using hj

lemma neededSpace_add (p : Page) (n : ℕ) :
    neededSpace p n + 4 * slotCount p = n + 4 * slotsAfter p := by
  simp only [neededSpace, slotsAfter]
  split <;> omega

/-- `reusable_slot_id`, `-1` for none. -/
def reusableSlotId : Option ℕ → ℤ
  | none => -1
  | some i => i

lemma neededSpace_eq (p : Page) (n : ℕ) :
    n + (if reusableSlotId (firstDeleted p) ≠ -1 then 0 else sizeofSlot) = neededSpace p n := by
  cases hd : firstDeleted p with
  | none => simp [reusableSlotId, neededSpace, hd]
  | some i =>
    have hne : (i : ℤ) ≠ -1 := by omega
    simp [reusableSlotId, neededSpace, hd, hne]

/-- `current_free` of a well-formed page. -/
lemma WellFormed.gap_fst {p : Page} (hp : WellFormed p) (s : PageState) :
    (gap (freeEnd p) (freeStart p) s).1 = freeEnd p - freeStart p :=
  MiniDb.gap_fst s hp.start_le (freeEnd_lt p)

lemma reusableSlotLoop_spec {p : Page} (hcount : slotCount p ≤ 1022) :
    ∀ (fuel i : ℕ) (s : PageState), slotCount p < fuel + i → i ≤ slotCount p →
      (∀ j < i, slotLen p j ≠ 0) → s.page = p →
      (reusableSlotLoop fuel i s).1 = reusableSlotId (firstDeleted p) ∧
        (reusableSlotLoop fuel i s).2.page = p := by
  intro fuel
  induction fuel with
  | zero =>
    intro i s hfuel hi _ _
    omega
  | succ fuel ih =>
    intro i s hfuel hi hlive hs
    have hcnt : s.page.get16 slotCountField = slotCount p := by rw [hs]; rfl
    rw [reusableSlotLoop]
    simp only [run_bind, run_ite, load_fst, hcnt]
    by_cases hlt : i < slotCount p
    · rw [if_pos hlt]
      have hlen : s.page.get16 (lengthField (slotAt i)) = slotLen p i := by rw [hs]; rfl
      simp only [slotOffset_fst _ (show i < 1023 by omega), slotOffset_page, load_page, hlen]
      by_cases hzero : slotLen p i = 0
      · have hfirst : firstDeleted p = some i := firstDeleted_eq_some.mpr ⟨hlt, hzero, hlive⟩
        rw [if_pos hzero, hfirst]
        exact ⟨rfl, by simpa using hs⟩
      · rw [if_neg hzero]
        refine ih (i + 1) _ (by omega) hlt ?_ (by simpa using hs)
        intro j hj
        rcases Nat.eq_or_lt_of_le (Nat.le_of_lt_succ hj) with rfl | hji
        · exact hzero
        · exact hlive j hji
    · rw [if_neg hlt]
      have hfirst : firstDeleted p = none := by
        rw [firstDeleted_eq_none]
        exact fun j hj => hlive j (by omega)
      rw [hfirst]
      exact ⟨rfl, by simpa using hs⟩

/-- What `page_insert` makes of the page `q` when it stores the record there. -/
structure Placed (q : Page) (r : Area) (p : Page) : Prop where
  count : slotCount p = slotsAfter q
  fend : freeEnd p + 4 * slotCount p = 4096
  start : freeStart p = freeStart q + r.length
  len : ∀ j < slotCount p, slotLen p j = if j = insertSlot q then r.length else slotLen q j
  off : ∀ j < slotCount p, slotOff p j = if j = insertSlot q then freeStart q else slotOff q j
  data : ∀ x, 6 ≤ x → x < freeEnd p →
    p.get x = if freeStart q ≤ x ∧ x < freeStart q + r.length then
      r.bytes.getD (x - freeStart q) 0 else q.get x

/-- The page after the slot `i` was pointed to the record at `free_start`. -/
def filled (q : Page) (i : ℕ) (r : Area) : Page :=
  ((q.put16 (offsetField (slotAt i)) (freeStart q)).put16 (lengthField (slotAt i))
    r.length).put16 freeStartField (freeStart q + r.length)

section Filled

variable {q : Page} {i : ℕ} {r : Area}

lemma fillSlot_spec (hi : i < 1022) (s : PageState) :
    (placeRecord.fillSlot r (slotAt i) i s).1 = i ∧
      (placeRecord.fillSlot r (slotAt i) i s).2.page = filled s.page i r := by
  refine ⟨rfl, ?_⟩
  have hstart : freeStart ((s.page.put16 (offsetField (slotAt i)) (freeStart s.page)).put16
      (lengthField (slotAt i)) r.length) = freeStart s.page := by
    rw [freeStart_put16 _ _ (by simp only [lengthField, slotAt]; omega),
      freeStart_put16 _ _ (by simp only [offsetField, slotAt]; omega)]
  simp only [placeRecord.fillSlot, run_bind, run_pure]
  simp only [load_freeStart, load_page, store_page, hstart, filled]

lemma slotCount_filled (hi : i < 1022) : slotCount (filled q i r) = slotCount q := by
  rw [filled, slotCount_put16 _ _ (by simp only [freeStartField]; omega),
    slotCount_put16 _ _ (by simp only [lengthField, slotAt]; omega),
    slotCount_put16 _ _ (by simp only [offsetField, slotAt]; omega)]

lemma freeEnd_filled (hi : i < 1022) : freeEnd (filled q i r) = freeEnd q := by
  rw [filled, freeEnd_put16 _ _ (by simp only [freeStartField]; omega),
    freeEnd_put16 _ _ (by simp only [lengthField, slotAt]; omega),
    freeEnd_put16 _ _ (by simp only [offsetField, slotAt]; omega)]

lemma freeStart_filled (h : freeStart q + r.length ≤ 4096) :
    freeStart (filled q i r) = freeStart q + r.length := by
  rw [filled, freeStart_put16_self]
  omega

lemma slotLen_filled (hi : i < 1022) {j : ℕ} (hj : j < 1022) :
    slotLen (filled q i r) j = if j = i then r.length else slotLen q j := by
  rw [filled, slotLen_put16_header _ _ (by simp only [freeStartField]; omega) hj,
    slotLen_put16_length _ _ (by omega) (by omega), slotLen_put16_offset _ _ (by omega) (by omega),
    Nat.mod_eq_of_lt r.length_lt_65536]
  exact if_congr eq_comm rfl rfl

lemma slotOff_filled (hi : i < 1022) {j : ℕ} (hj : j < 1022) :
    slotOff (filled q i r) j = if j = i then freeStart q else slotOff q j := by
  rw [filled, slotOff_put16_header _ _ (by simp only [freeStartField]; omega) hj,
    slotOff_put16_length _ _ (by omega) (by omega), slotOff_put16_offset _ _ (by omega) (by omega),
    Nat.mod_eq_of_lt (freeStart_lt q)]
  exact if_congr eq_comm rfl rfl

lemma get_filled {x : ℕ} (hx : 6 ≤ x) (hx' : x < slotAt i) :
    (filled q i r).get x = q.get x := by
  rw [filled, Buffer.get_put16_of_ne _ _ (by simp only [freeStartField]; omega),
    Buffer.get_put16_of_ne _ _ (by simp only [lengthField]; omega),
    Buffer.get_put16_of_ne _ _ (by simp only [offsetField]; omega)]

end Filled

/-- The page before its slot is filled in: the record is copied to `free_start`, and a
new slot is taken from the free space. -/
def opened (q : Page) (r : Area) : Page :=
  match firstDeleted q with
  | some _ => q.blit (freeStart q) r.bytes
  | none => ((q.blit (freeStart q) r.bytes).put16 freeEndField (freeEnd q - 4)).put16
      slotCountField (slotCount q + 1)

section Opened

variable {q : Page} {r : Area}

lemma insertSlot_lt (hq : WellFormed q) (h : freeStart q + neededSpace q r.length ≤ freeEnd q) :
    insertSlot q < 1022 := by
  have hcount := hq.slotCount_le
  have hend := hq.end_eq
  have hstart := hq.start_ge
  cases hd : firstDeleted q with
  | none =>
    simp only [insertSlot, neededSpace, hd, Option.getD_none, if_true] at h ⊢
    omega
  | some i =>
    have hi := (firstDeleted_eq_some.mp hd).1
    simp only [insertSlot, hd, Option.getD_some]
    omega

lemma placeRecord_page (hq : WellFormed q) (h : freeStart q + neededSpace q r.length ≤ freeEnd q)
    (s : PageState) (hs : s.page = q) :
    (placeRecord r (reusableSlotId (firstDeleted q)) s).1 = insertSlot q ∧
      (placeRecord r (reusableSlotId (firstDeleted q)) s).2.page =
        filled (opened q r) (insertSlot q) r := by
  subst hs
  have hslot := insertSlot_lt hq h
  have hcount := hq.slotCount_le
  have hend := hq.end_eq
  have hcountb := slotCount_blit s.page r.bytes hq.start_ge
  have hendb := freeEnd_blit s.page r.bytes hq.start_ge
  cases hd : firstDeleted s.page with
  -- a new slot at the end of the directory
  | none =>
    have hins : insertSlot s.page = slotCount s.page := by rw [insertSlot, hd]; rfl
    have hopened : opened s.page r = ((s.page.blit (freeStart s.page) r.bytes).put16 freeEndField
        (freeEnd s.page - 4)).put16 slotCountField (slotCount s.page + 1) := by
      simp only [opened, hd]
    have hend' : (2 ^ 64 + freeEnd s.page - sizeofSlot) % 2 ^ 64 = freeEnd s.page - 4 := by
      simp only [sizeofSlot]
      omega
    rw [hins] at hslot ⊢
    rw [hopened]
    simp only [placeRecord, reusableSlotId, run_bind, load_freeStart, load_freeEnd, load_slotCount,
      load_page, copyIn_page, ne_eq, not_true_eq_false, if_false, store_page, slotOffset_page,
      hcountb, hendb, hend', slotOffset_fst _ (show slotCount s.page < 1023 by omega),
      slotCount_put16 _ _ (show 2 ≤ freeEndField by simp only [freeEndField]; omega)]
    refine ⟨(fillSlot_spec hslot _).1, (fillSlot_spec hslot _).2.trans ?_⟩
    simp only [store_page, load_page, slotOffset_page, copyIn_page]
  -- the deleted slot `i`
  | some i =>
    have hins : insertSlot s.page = i := by rw [insertSlot, hd]; rfl
    have hopened : opened s.page r = s.page.blit (freeStart s.page) r.bytes := by
      simp only [opened, hd]
    rw [hins] at hslot ⊢
    rw [hopened]
    have hne : ¬ (i : ℤ) = -1 := by omega
    have hassign : ∀ s' : PageState, (assign ((i : ℤ) % 2 ^ 16).toNat s').1 = i := by
      intro s'
      rw [assign_fst s' (by omega)]
      omega
    simp only [placeRecord, reusableSlotId, run_bind, load_freeStart, ne_eq, hne,
      not_false_eq_true, if_true, hassign, slotOffset_fst _ (show i < 1023 by omega)]
    refine ⟨(fillSlot_spec hslot _).1, (fillSlot_spec hslot _).2.trans ?_⟩
    simp only [slotOffset_page, assign_page, copyIn_page, load_page]

/-- The header of the opened page, with and without a new slot. -/
lemma opened_header (hq : WellFormed q)
    (h : freeStart q + neededSpace q r.length ≤ freeEnd q) :
    slotCount (opened q r) = slotsAfter q ∧
      freeEnd (opened q r) + 4 * slotCount (opened q r) = 4096 ∧
      freeStart (opened q r) = freeStart q ∧
      freeStart q + r.length ≤ freeEnd (opened q r) := by
  have hcount := hq.slotCount_le
  have hend := hq.end_eq
  have hstart := hq.start_ge
  have hslot := insertSlot_lt hq h
  have hcountb := slotCount_blit q r.bytes hstart
  have hendb := freeEnd_blit q r.bytes hstart
  have hstartb := freeStart_blit q r.bytes hstart
  cases hd : firstDeleted q with
  | none =>
    simp only [insertSlot, slotsAfter, neededSpace, hd, Option.getD_none, if_true] at h hslot ⊢
    simp only [opened, hd]
    rw [freeEnd_put16 _ _ (by simp only [slotCountField]; omega),
      freeStart_put16 _ _ (Or.inr rfl), freeStart_put16 _ _ (by simp only [freeEndField]; omega),
      hstartb, slotCount_put16_self, freeEnd_put16_self]
    omega
  | some i =>
    have hi := (firstDeleted_eq_some.mp hd).1
    simp only [slotsAfter, neededSpace, hd, reduceCtorEq, if_false] at h ⊢
    simp only [opened, hd, hcountb, hendb, hstartb]
    exact ⟨rfl, hend, trivial, by omega⟩

lemma opened_slot (hq : WellFormed q) (h : freeStart q + neededSpace q r.length ≤ freeEnd q)
    {j : ℕ} (hj : j < slotCount q) :
    slotLen (opened q r) j = slotLen q j ∧ slotOff (opened q r) j = slotOff q j := by
  have hend := hq.end_eq
  have hcount := hq.slotCount_le
  have hlenr : r.bytes.length = r.length := rfl
  cases hd : firstDeleted q with
  | none =>
    simp only [neededSpace, hd, if_true] at h
    simp only [opened, hd]
    rw [slotLen_put16_header _ _ (by simp only [slotCountField]; omega) (by omega),
      slotLen_put16_header _ _ (by simp only [freeEndField]; omega) (by omega),
      slotOff_put16_header _ _ (by simp only [slotCountField]; omega) (by omega),
      slotOff_put16_header _ _ (by simp only [freeEndField]; omega) (by omega)]
    exact ⟨slotLen_blit q _ (by omega), slotOff_blit q _ (by omega)⟩
  | some i =>
    simp only [neededSpace, hd, reduceCtorEq, if_false] at h
    simp only [opened, hd]
    exact ⟨slotLen_blit q _ (by omega), slotOff_blit q _ (by omega)⟩

lemma get_opened {x : ℕ} (hx : 6 ≤ x) (hx' : x < 4096) :
    (opened q r).get x = if freeStart q ≤ x ∧ x < freeStart q + r.length then
      r.bytes.getD (x - freeStart q) 0 else q.get x := by
  have hblit : (q.blit (freeStart q) r.bytes).get x =
      if freeStart q ≤ x ∧ x < freeStart q + r.length then r.bytes.getD (x - freeStart q) 0
      else q.get x := by
    rw [Buffer.get_blit]
    exact if_congr (by simp only [pageSize, hx', and_true, Area.length]) rfl rfl
  cases hd : firstDeleted q with
  | none =>
    simp only [opened, hd]
    rw [Buffer.get_put16_of_ne _ _ (by simp only [slotCountField]; omega),
      Buffer.get_put16_of_ne _ _ (by simp only [freeEndField]; omega), hblit]
  | some i =>
    simp only [opened, hd, hblit]

end Opened

lemma placeRecord_spec {q : Page} {r : Area} (hq : WellFormed q)
    (h : freeStart q + neededSpace q r.length ≤ freeEnd q) (s : PageState) (hs : s.page = q) :
    (placeRecord r (reusableSlotId (firstDeleted q)) s).1 = insertSlot q ∧
      Placed q r (placeRecord r (reusableSlotId (firstDeleted q)) s).2.page := by
  obtain ⟨hret, hpage⟩ := placeRecord_page hq h s hs
  obtain ⟨hcount, hend, hstart, hroom⟩ := opened_header hq h
  have hslot := insertSlot_lt hq h
  have hend₀ := hq.end_eq
  have hstart₀ := hq.start_ge
  have hslots : slotsAfter q ≤ slotCount q + 1 := by
    simp only [slotsAfter]
    split <;> omega
  have hcount₀ := hq.slotCount_le
  have hlast := insertSlot_lt_slotsAfter q
  refine ⟨hret, ?_⟩
  rw [hpage]
  constructor
  · rw [slotCount_filled hslot, hcount]
  · rw [slotCount_filled hslot, freeEnd_filled hslot, hend]
  · rw [freeStart_filled (by omega), hstart]
  · intro j hj
    rw [slotCount_filled hslot, hcount] at hj
    have hj' : j < 1022 := by
      by_cases hne : j = insertSlot q
      · omega
      · have := lt_slotCount_of_ne hj hne
        omega
    rw [slotLen_filled hslot (by omega)]
    split
    · rfl
    · next hne => exact (opened_slot hq h (lt_slotCount_of_ne hj hne)).1
  · intro j hj
    rw [slotCount_filled hslot, hcount] at hj
    rw [slotOff_filled hslot (by omega), hstart]
    split
    · rfl
    · next hne => exact (opened_slot hq h (lt_slotCount_of_ne hj hne)).2
  · intro x hx hx'
    rw [freeEnd_filled hslot] at hx'
    rw [get_filled hx (by simp only [slotAt]; omega), get_opened hx (by omega)]

namespace Placed

variable {q p : Page} {r : Area}

lemma start_le (h : Placed q r p) (hfits : freeStart q + neededSpace q r.length ≤ freeEnd q)
    (hq : WellFormed q) : freeStart p ≤ freeEnd p := by
  have hneeded := neededSpace_add q r.length
  have hcount := h.count
  have hend := h.fend
  have hend₀ := hq.end_eq
  rw [h.start]
  omega

lemma wellFormed (h : Placed q r p) (hfits : freeStart q + neededSpace q r.length ≤ freeEnd q)
    (hq : WellFormed q) : WellFormed p where
  end_eq := h.fend
  start_ge := by
    rw [h.start]
    exact hq.start_ge.trans (Nat.le_add_right _ _)
  start_le := h.start_le hfits hq
  inside i hi hlen := by
    rw [h.len i hi] at hlen ⊢
    rw [h.off i hi, h.start]
    have hstart := hq.start_ge
    split at hlen
    · next heq =>
        simp only [heq, if_true]
        omega
    · next hne =>
        simp only [hne, if_false]
        have hi' := lt_slotCount_of_ne (h.count ▸ hi) hne
        have := hq.inside i hi' hlen
        omega
  apart i hi j hj hij hleni hlenj := by
    -- the new record lies behind all the others
    have hold : ∀ k < slotCount p, k ≠ insertSlot q → slotLen q k ≠ 0 →
        slotOff q k + slotLen q k ≤ freeStart q := fun k hk hne hlen =>
      (hq.inside k (lt_slotCount_of_ne (h.count ▸ hk) hne) hlen).2
    rw [h.len i hi] at hleni
    rw [h.len j hj] at hlenj
    rw [Apart, h.len i hi, h.len j hj, h.off i hi, h.off j hj]
    by_cases hin : i = insertSlot q
    · have hjn : j ≠ insertSlot q := fun heq => hij (hin.trans heq.symm)
      rw [if_neg hjn] at hlenj
      rw [if_pos hin, if_pos hin, if_neg hjn, if_neg hjn]
      exact Or.inr (hold j hj hjn hlenj)
    · rw [if_neg hin] at hleni
      rw [if_neg hin, if_neg hin]
      by_cases hjn : j = insertSlot q
      · rw [if_pos hjn, if_pos hjn]
        exact Or.inl (hold i hi hin hleni)
      · rw [if_neg hjn] at hlenj
        rw [if_neg hjn, if_neg hjn]
        exact hq.apart i (lt_slotCount_of_ne (h.count ▸ hi) hin) j
          (lt_slotCount_of_ne (h.count ▸ hj) hjn) hij hleni hlenj

end Placed

/-- The page to which `page_insert` adds a record of `n` bytes: the page itself when the
gap is wide enough, else the compacted page. -/
inductive Prepared (p : Page) (n : ℕ) : Page → Prop
  | asIs (h : freeStart p + neededSpace p n ≤ freeEnd p) : Prepared p n p
  | compacted {q : Page} (h : freeEnd p < freeStart p + neededSpace p n) (hq : Compacted p q) :
      Prepared p n q

namespace Prepared

variable {p q : Page} {n : ℕ}

lemma wellFormed (h : Prepared p n q) (hp : WellFormed p) : WellFormed q := by
  cases h with
  | asIs => exact hp
  | compacted _ hq => exact hq.wellFormed hp

lemma count (h : Prepared p n q) : slotCount q = slotCount p := by
  cases h with
  | asIs => rfl
  | compacted _ hq => exact hq.count

lemma fend (h : Prepared p n q) : freeEnd q = freeEnd p := by
  cases h with
  | asIs => rfl
  | compacted _ hq => exact hq.fend

lemma len (h : Prepared p n q) {i : ℕ} (hi : i < slotCount p) : slotLen q i = slotLen p i := by
  cases h with
  | asIs => rfl
  | compacted _ hq => exact hq.len i hi

lemma firstDeleted_eq (h : Prepared p n q) : firstDeleted q = firstDeleted p := by
  cases h with
  | asIs => rfl
  | compacted _ hq => exact hq.firstDeleted_eq

lemma insertSlot_eq (h : Prepared p n q) : insertSlot q = insertSlot p := by
  rw [insertSlot, insertSlot, h.firstDeleted_eq, h.count]

lemma slotsAfter_eq (h : Prepared p n q) : slotsAfter q = slotsAfter p := by
  rw [slotsAfter, slotsAfter, h.firstDeleted_eq, h.count]

lemma neededSpace_eq (h : Prepared p n q) (k : ℕ) : neededSpace q k = neededSpace p k := by
  rw [neededSpace, neededSpace, h.firstDeleted_eq]

/-- The gap of the prepared page tells exactly whether the record fits. -/
lemma gap_iff_fits (h : Prepared p n q) (hp : WellFormed p) :
    freeStart q + neededSpace q n ≤ freeEnd q ↔ Fits p n := by
  have hneeded := neededSpace_add p n
  have hend := hp.end_eq
  have hlive := hp.liveBytes_le
  rw [h.neededSpace_eq, h.fend, Fits]
  cases h with
  | asIs h => omega
  | compacted h hq =>
    rw [hq.start]
    omega

end Prepared

/-- **What `page_insert` does** with a non-empty record: the page is prepared, and if the
record fits, it is placed there. -/
theorem pageInsert_spec {p : Page} (hp : WellFormed p) {r : Area} (hr : r.length ≠ 0)
    (s : PageState) (hs : s.page = p) :
    ∃ q, Prepared p r.length q ∧
      ((Fits p r.length ∧ (pageInsert (some r) s).1 = insertSlot p ∧
          Placed q r (pageInsert (some r) s).2.page) ∨
        (¬ Fits p r.length ∧ (pageInsert (some r) s).1 = -1 ∧
          (pageInsert (some r) s).2.page = q)) := by
  have hcount := hp.slotCount_le
  have hstart₀ := hp.start_le
  obtain ⟨hid, hpage⟩ := reusableSlotLoop_spec hcount (2 ^ 16) 0 s (by omega) (Nat.zero_le _)
    (by simp) hs
  rw [pageInsert, run_ite, if_neg hr, run_bind]
  revert hid hpage
  generalize reusableSlotLoop (2 ^ 16) 0 s = found
  intro hid hpage
  simp only [run_bind, run_ite, hid, neededSpace_eq, load_freeEnd, load_freeStart,
    load_page, hpage, hp.gap_fst]
  have hstate : (gap (freeEnd p) (freeStart p)
      (load freeStartField (load freeEndField found.2).2).2).2.page = p := by
    rw [gap_page, load_page, load_page, hpage]
  revert hstate
  generalize (gap (freeEnd p) (freeStart p)
    (load freeStartField (load freeEndField found.2).2).2).2 = s₁
  intro hstate
  -- the gap is wide enough, or the page is compacted and looked at again
  by_cases hasis : freeStart p + neededSpace p r.length ≤ freeEnd p
  · rw [if_neg (by omega)]
    have hprep : Prepared p r.length p := .asIs hasis
    exact ⟨p, hprep, Or.inl ⟨(hprep.gap_iff_fits hp).mp hasis, placeRecord_spec hp hasis s₁ hstate⟩⟩
  · rw [if_pos (by omega)]
    have hq := pageCompact_spec hp s₁ hstate
    have hprep : Prepared p r.length (pageCompact s₁).2.page := .compacted (by omega) hq
    have hwf := hprep.wellFormed hp
    refine ⟨_, hprep, ?_⟩
    rw [hwf.gap_fst, ← hprep.neededSpace_eq, ← hprep.firstDeleted_eq, ← hprep.insertSlot_eq,
      ← hprep.gap_iff_fits hp]
    have hstart := hwf.start_le
    by_cases hfits : freeStart (pageCompact s₁).2.page +
        neededSpace (pageCompact s₁).2.page r.length ≤ freeEnd (pageCompact s₁).2.page
    · rw [if_neg (by omega)]
      exact Or.inl ⟨hfits, placeRecord_spec hwf hfits _ (by simp only [gap_page, load_page])⟩
    · rw [if_pos (by omega)]
      exact Or.inr ⟨hfits, rfl, by simp only [run_pure, gap_page, load_page]⟩

/-- An empty or missing record is refused. -/
lemma pageInsert_refuse (record : Option Area) (h : ∀ r, record = some r → r.length = 0)
    (s : PageState) : pageInsert record s = (-1, s) := by
  cases record with
  | none => rfl
  | some r => rw [pageInsert, run_ite, if_pos (h r rfl), run_pure]

end MiniDb

end CsLab
