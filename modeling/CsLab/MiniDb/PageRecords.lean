/-
The records of a page.

`recordAt p i` is the record that the slot `i` of the page `p` stores.  The file says
how the page functions change it.  Lengths are never lost (`recordLen`), but contents
are: `page_compact` moves the records in the order of their slots, and a record that
lies below its new place may be overwritten before it is moved.  The contents of all
records survive exactly when `CompactSafe` holds (`Compacted.recordAt_eq_iff`).
-/
import CsLab.MiniDb.PageInsert

namespace CsLab

namespace MiniDb

open PageM Prog Extents Finset

/-- The record in the slot `i`. -/
def recordAt (p : Page) (i : ℕ) : Option (List UInt8) :=
  if i < slotCount p ∧ slotLen p i ≠ 0 then some (p.slice (slotOff p i) (slotLen p i)) else none

/-- The length of the record in the slot `i`. -/
def recordLen (p : Page) (i : ℕ) : Option ℕ :=
  if i < slotCount p ∧ slotLen p i ≠ 0 then some (slotLen p i) else none

/-- Every byte of a live record that lies below the packed place of the record is the
byte that packing puts there. -/
def CompactSafe (p : Page) : Prop := Safe (slotOff p) (slotLen p) 6 p.get (slotCount p)

instance (p : Page) : Decidable (CompactSafe p) :=
  inferInstanceAs (Decidable (Safe (slotOff p) (slotLen p) 6 p.get (slotCount p)))

section RecordAt

variable {p : Page} {i : ℕ}

lemma recordAt_of_live (hi : i < slotCount p) (hlen : slotLen p i ≠ 0) :
    recordAt p i = some (p.slice (slotOff p i) (slotLen p i)) := if_pos ⟨hi, hlen⟩

lemma recordLen_of_live (hi : i < slotCount p) (hlen : slotLen p i ≠ 0) :
    recordLen p i = some (slotLen p i) := if_pos ⟨hi, hlen⟩

lemma recordLen_eq_none : recordLen p i = none ↔ slotCount p ≤ i ∨ slotLen p i = 0 := by
  simp only [recordLen, ite_eq_right_iff, reduceCtorEq, imp_false]
  omega

lemma recordAt_eq_none : recordAt p i = none ↔ slotCount p ≤ i ∨ slotLen p i = 0 := by
  simp only [recordAt, ite_eq_right_iff, reduceCtorEq, imp_false]
  omega

lemma recordLen_eq_some {n : ℕ} :
    recordLen p i = some n ↔ i < slotCount p ∧ slotLen p i = n ∧ n ≠ 0 := by
  simp only [recordLen]
  split
  · next h =>
      simp only [Option.some.injEq]
      constructor
      · rintro rfl
        exact ⟨h.1, rfl, h.2⟩
      · exact fun h' => h'.2.1
  · next h =>
      simp only [reduceCtorEq, false_iff]
      rintro ⟨hi, rfl, hn⟩
      exact h ⟨hi, hn⟩

lemma WellFormed.slice_length (hp : WellFormed p) (hi : i < slotCount p)
    (hlen : slotLen p i ≠ 0) : (p.slice (slotOff p i) (slotLen p i)).length = slotLen p i := by
  have hin := hp.inside i hi hlen
  have hstart := hp.start_le
  have hend := hp.end_eq
  exact Buffer.length_slice p (by simp only [pageSize]; omega)

/-- The length of a record is what its slot says. -/
lemma WellFormed.recordLen_eq (hp : WellFormed p) (i : ℕ) :
    recordLen p i = (recordAt p i).map List.length := by
  rw [recordLen, recordAt]
  split
  · next h => rw [Option.map_some, hp.slice_length h.1 h.2]
  · rfl

lemma recordAt_emptyPage (i : ℕ) : recordAt emptyPage i = none := by
  simp [recordAt_eq_none, slotCount_emptyPage]

/-- The used slot is not live before the call. -/
lemma recordLen_insertSlot (p : Page) : recordLen p (insertSlot p) = none := by
  rw [recordLen_eq_none]
  cases hd : firstDeleted p with
  | none => simp [insertSlot, hd]
  | some i => exact Or.inr (by simpa [insertSlot, hd] using (firstDeleted_eq_some.mp hd).2.1)

end RecordAt

/-! ### `page_get` -/

/-- `page_get` copies a record that fits in the buffer, and refuses everything else. -/
lemma pageGet_spec {p : Page} (hp : WellFormed p) (i : ℕ) (buffer : Area) (s : PageState)
    (hs : s.page = p) :
    (∃ rec, recordAt p i = some rec ∧ rec.length ≤ buffer.length ∧
        (pageGet i (some buffer) s).1 = ((rec.length : ℤ), some (buffer.fill rec))) ∨
      ((∀ n, recordLen p i = some n → buffer.length < n) ∧
        (pageGet i (some buffer) s).1 = (-1, some buffer)) := by
  subst hs
  have hcount := hp.slotCount_le
  simp only [pageGet, run_bind, run_ite, load_slotCount]
  by_cases hi : i < slotCount s.page
  · have hslot : ∀ s' : PageState, (slotOffset i s').1 = slotAt i :=
      fun s' => slotOffset_fst s' (by omega)
    simp only [hslot, load_length, load_offset, load_page, slotOffset_page, copyOut_fst]
    rw [if_neg (by omega)]
    by_cases hlen : slotLen s.page i = 0
    · rw [if_pos hlen]
      refine Or.inr ⟨fun n hn => ?_, rfl⟩
      rw [recordLen_eq_none.mpr (Or.inr hlen)] at hn
      exact absurd hn (by simp)
    · rw [if_neg hlen]
      by_cases hbuf : buffer.length < slotLen s.page i
      · rw [if_pos hbuf]
        refine Or.inr ⟨fun n hn => ?_, rfl⟩
        rwa [← (recordLen_eq_some.mp hn).2.1]
      · rw [if_neg hbuf]
        refine Or.inl ⟨_, recordAt_of_live hi hlen, ?_, ?_⟩
        · rw [hp.slice_length hi hlen]
          omega
        · rw [hp.slice_length hi hlen]
          simp only [run_pure, copyOut_page, load_page, slotOffset_page]
  · rw [if_pos (by omega)]
    refine Or.inr ⟨fun n hn => ?_, rfl⟩
    rw [recordLen_eq_none.mpr (Or.inl (by omega))] at hn
    exact absurd hn (by simp)

lemma pageGet_of_record {p : Page} (hp : WellFormed p) {i : ℕ} {rec : List UInt8}
    (hrec : recordAt p i = some rec) (buffer : Area) (hlen : rec.length ≤ buffer.length) :
    ((pageGet i (some buffer)).run p).1 = ((rec.length : ℤ), some (buffer.fill rec)) := by
  rw [run_fst]
  rcases pageGet_spec hp i buffer ⟨p, []⟩ rfl with ⟨rec', hrec', -, hget⟩ | ⟨hshort, -⟩
  · rw [hrec] at hrec'
    cases hrec'
    exact hget
  · have hsome : recordLen p i = some rec.length := by
      rw [hp.recordLen_eq, hrec]
      rfl
    exact absurd (hshort _ hsome) (by omega)

lemma take_fill {buffer : Area} {rec : List UInt8} (h : rec.length ≤ buffer.length) :
    (buffer.fill rec).bytes.take rec.length = rec := by
  have hlen : (overlay 0 rec buffer.bytes).length = buffer.bytes.length := length_overlay _ _ _
  have hle : rec.length ≤ buffer.bytes.length := h
  apply List.ext_getElem
  · simp [Area.fill, hle]
  · intro i hi hi'
    have hget := getD_overlay 0 rec buffer.bytes i
    rw [if_pos ⟨Nat.zero_le i, by omega, by omega⟩, Nat.sub_zero, List.getD_eq_getElem _ _ hi',
      List.getD_eq_getElem _ _ (by omega)] at hget
    rw [List.getElem_take]
    exact hget

/-! ### `page_delete` -/

lemma recordAt_delete {p : Page} (hp : WellFormed p) {i : ℕ} (hi : i < slotCount p) (j : ℕ) :
    recordAt (p.put16 (lengthField (slotAt i)) 0) j = if j = i then none else recordAt p j := by
  have hcount := hp.slotCount_le
  have hend := hp.end_eq
  have hstart := hp.start_le
  have hcount' := slotCount_put16 p 0 (show 2 ≤ lengthField (slotAt i) by
    simp only [lengthField, slotAt]; omega)
  by_cases hj : j < slotCount p
  · have hlen := slotLen_delete hp hi hj
    by_cases hji : j = i
    · rw [if_pos hji, recordAt_eq_none]
      exact Or.inr (hlen.trans (if_pos hji))
    · rw [if_neg hji] at hlen ⊢
      rw [recordAt, recordAt, hcount', hlen, slotOff_put16_length _ _ (by omega) (by omega)]
      refine ite_congr rfl (fun hlive => ?_) fun _ => rfl
      have hin := hp.inside j hj hlive.2
      refine congrArg some ((Buffer.slice_congr _ _ (by simp only [pageSize]; omega)
        (by simp only [pageSize]; omega)).mpr fun t ht => ?_)
      exact Buffer.get_put16_of_ne _ _ (by simp only [lengthField, slotAt]; omega)
  · have hnone : recordAt p j = none := recordAt_eq_none.mpr (Or.inl (by omega))
    have hnone' : recordAt (p.put16 (lengthField (slotAt i)) 0) j = none :=
      recordAt_eq_none.mpr (Or.inl (by omega))
    rw [hnone, hnone', ite_self]

/-! ### `page_compact` -/

namespace Compacted

variable {p q : Page}

lemma recordLen_eq (h : Compacted p q) (i : ℕ) : recordLen q i = recordLen p i := by
  rw [recordLen, recordLen, h.count]
  by_cases hi : i < slotCount p
  · rw [h.len i hi]
  · simp only [hi, false_and, if_false]

/-- **Compaction keeps every record** exactly when the layout of the page is safe. -/
theorem recordAt_eq_iff (h : Compacted p q) (hp : WellFormed p) :
    (∀ i, recordAt q i = recordAt p i) ↔ CompactSafe p := by
  have hend := hp.end_eq
  have hstart := hp.start_le
  have hlive := hp.liveBytes_le
  have hslice : ∀ i < slotCount p, slotLen p i ≠ 0 →
      (recordAt q i = recordAt p i ↔ ∀ t < slotLen p i,
        pack (slotOff p) (slotLen p) 6 p.get (slotCount p) (packedPlace p i + t) =
          p.get (slotOff p i + t)) := by
    intro i hi hlen
    have hin := hp.inside i hi hlen
    have hplace := hp.packedPlace_add_len_le hi
    have hplace6 : 6 ≤ packedPlace p i := Nat.le_add_right _ _
    rw [recordAt_of_live hi hlen, recordAt_of_live (h.count ▸ hi) (h.len i hi ▸ hlen), h.off i hi,
      if_pos hlen, h.len i hi, Option.some.injEq,
      Buffer.slice_congr _ _ (by simp only [pageSize]; omega) (by simp only [pageSize]; omega)]
    refine forall₂_congr fun t ht => ?_
    rw [h.data _ (by omega) (by omega)]
  rw [CompactSafe, ← intact_iff_safe]
  constructor
  · intro hrec i hi t ht
    exact (hslice i hi (by omega)).mp (hrec i) t ht
  · intro hint i
    by_cases hlive : i < slotCount p ∧ slotLen p i ≠ 0
    · exact (hslice i hlive.1 hlive.2).mpr (hint i hlive.1)
    · have hnone : recordLen p i = none := if_neg hlive
      have hnone' : recordAt q i = none := by
        rw [recordAt_eq_none, ← recordLen_eq_none, h.recordLen_eq i, hnone]
      rw [hnone', eq_comm, recordAt_eq_none, ← recordLen_eq_none, hnone]

end Compacted

/-! ### `page_insert` -/

namespace Placed

variable {q p : Page} {r : Area}

lemma recordLen_eq (h : Placed q r p) (hr : r.length ≠ 0) (i : ℕ) :
    recordLen p i = if i = insertSlot q then some r.length else recordLen q i := by
  by_cases hi : i = insertSlot q
  · have hlt : i < slotCount p := by
      rw [h.count, hi]
      exact insertSlot_lt_slotsAfter q
    have hlen : slotLen p i = r.length := (h.len i hlt).trans (if_pos hi)
    rw [if_pos hi, recordLen_of_live hlt (hlen ▸ hr), hlen]
  · rw [if_neg hi, recordLen, recordLen]
    by_cases hlt : i < slotCount p
    · have hlt' := lt_slotCount_of_ne (h.count ▸ hlt) hi
      rw [h.len i hlt, if_neg hi]
      simp only [hlt, hlt', true_and]
    · have hle : slotCount q ≤ slotCount p := by
        rw [h.count]
        exact Nat.le_add_right _ _
      simp only [hlt, show ¬ i < slotCount q by omega, false_and, if_false]

/-- The new record is stored, and all others stay. -/
lemma recordAt_eq (h : Placed q r p) (hq : WellFormed q) (hr : r.length ≠ 0)
    (hfits : freeStart q + neededSpace q r.length ≤ freeEnd q) (i : ℕ) :
    recordAt p i = if i = insertSlot q then some r.bytes else recordAt q i := by
  have hlenr : r.bytes.length = r.length := rfl
  have hstart := hq.start_ge
  have hend := h.fend
  have hle := h.start_le hfits hq
  have hstart' := h.start
  by_cases hi : i = insertSlot q
  · have hlt : i < slotCount p := by
      rw [h.count, hi]
      exact insertSlot_lt_slotsAfter q
    have hlen : slotLen p i = r.bytes.length := (h.len i hlt).trans (if_pos hi)
    rw [if_pos hi, recordAt_of_live hlt (by omega), hlen, h.off i hlt, if_pos hi,
      Option.some.injEq, Buffer.slice_eq_iff _ (by simp only [pageSize]; omega)]
    intro t ht
    rw [h.data _ (by omega) (by omega), if_pos (by omega), Nat.add_sub_cancel_left]
  · rw [if_neg hi]
    have hlens := h.recordLen_eq hr i
    rw [if_neg hi] at hlens
    by_cases hlive : i < slotCount q ∧ slotLen q i ≠ 0
    · have hsome := recordLen_of_live hlive.1 hlive.2
      obtain ⟨hlt, hlen, -⟩ := recordLen_eq_some.mp (hlens.trans hsome)
      have hin := hq.inside i hlive.1 hlive.2
      rw [recordAt_of_live hlive.1 hlive.2, recordAt_of_live hlt (hlen ▸ hlive.2), hlen,
        h.off i hlt, if_neg hi, Option.some.injEq,
        Buffer.slice_congr _ _ (by simp only [pageSize]; omega) (by simp only [pageSize]; omega)]
      intro t ht
      rw [h.data _ (by omega) (by omega), if_neg (by omega)]
    · have hnone : recordLen q i = none := if_neg hlive
      have hnone' := hlens.trans hnone
      rw [recordLen_eq_none, ← recordAt_eq_none] at hnone hnone'
      rw [hnone, hnone']

end Placed

lemma Prepared.recordLen_eq {p q : Page} {n : ℕ} (h : Prepared p n q) (i : ℕ) :
    recordLen q i = recordLen p i := by
  cases h with
  | asIs => rfl
  | compacted _ hq => exact hq.recordLen_eq i

/-- A record of `n` bytes can be added without harm: if the page is compacted for it, the
compaction is safe. -/
def InsertSafe (p : Page) (n : ℕ) : Prop :=
  freeEnd p < freeStart p + neededSpace p n → CompactSafe p

instance (p : Page) (n : ℕ) : Decidable (InsertSafe p n) :=
  inferInstanceAs (Decidable (_ → _))

lemma Prepared.recordAt_eq_iff {p q : Page} {n : ℕ} (h : Prepared p n q) (hp : WellFormed p) :
    (∀ i, recordAt q i = recordAt p i) ↔ InsertSafe p n := by
  cases h with
  | asIs h =>
    simp only [InsertSafe, implies_true, true_iff]
    omega
  | compacted h hq =>
    rw [hq.recordAt_eq_iff hp, InsertSafe]
    exact ⟨fun hsafe _ => hsafe, fun hsafe => hsafe h⟩

/-- The lengths after a successful `page_insert`. -/
lemma recordLen_insert {p q p' : Page} {r : Area} (hq : Prepared p r.length q)
    (hplaced : Placed q r p') (hr : r.length ≠ 0) (i : ℕ) :
    recordLen p' i = if i = insertSlot p then some r.length else recordLen p i := by
  rw [hplaced.recordLen_eq hr, hq.insertSlot_eq, hq.recordLen_eq]

/-- The records after a successful `page_insert` are the old ones and the new one exactly
when the call was safe. -/
lemma recordAt_insert_iff {p q p' : Page} {r : Area} (hp : WellFormed p)
    (hq : Prepared p r.length q) (hfits : Fits p r.length) (hplaced : Placed q r p')
    (hr : r.length ≠ 0) :
    (∀ i, recordAt p' i = if i = insertSlot p then some r.bytes else recordAt p i) ↔
      InsertSafe p r.length := by
  have hrec := hplaced.recordAt_eq (hq.wellFormed hp) hr ((hq.gap_iff_fits hp).mpr hfits)
  rw [← hq.recordAt_eq_iff hp]
  constructor
  · intro h i
    by_cases hi : i = insertSlot p
    · have hnone := recordLen_insertSlot p
      have hnone' := (hq.recordLen_eq (insertSlot p)).trans hnone
      rw [recordLen_eq_none, ← recordAt_eq_none] at hnone hnone'
      rw [hi, hnone, hnone']
    · have hi' := h i
      rw [hrec i, hq.insertSlot_eq, if_neg hi, if_neg hi] at hi'
      exact hi'
  · intro h i
    rw [hrec i, hq.insertSlot_eq, h i]

end MiniDb

end CsLab
