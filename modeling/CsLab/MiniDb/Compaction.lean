/-
What `page_compact` does to the layout of a page, and to its records.

The layout after `page_compact` depends on the lengths of the records only, and a second call
changes nothing (`page_compact_canonical`).  The records are another matter: `page_get` returns
the same before and after exactly when the compaction is safe (`page_compact_faithful_iff`),
which the reuse of slots can break (`page_compact_overlap`).
-/
import Mathlib.Tactic.IntervalCases
import CsLab.MiniDb.SlotDirectory

namespace CsLab

namespace MiniDb

open PageM Extents Finset

/-! ### The packed layout -/

/-- A page is determined by its header, its directory and the bytes between them. -/
lemma WellFormed.ext {p q : Page} (hp : WellFormed p) (hcount : slotCount q = slotCount p)
    (hstart : freeStart q = freeStart p) (hend : freeEnd q = freeEnd p)
    (hoff : ∀ i < slotCount p, slotOff q i = slotOff p i)
    (hlen : ∀ i < slotCount p, slotLen q i = slotLen p i)
    (hdata : ∀ x, 6 ≤ x → x < freeEnd p → q.get x = p.get x) : q = p := by
  have hend₀ := hp.end_eq
  apply Buffer.ext
  intro x hx
  rw [show pageSize = 4096 from rfl] at hx
  rcases Nat.lt_or_ge x 6 with hlt | hge
  · obtain ⟨h0, h1⟩ := Buffer.get_eq_of_get16_eq hcount
    obtain ⟨h2, h3⟩ := Buffer.get_eq_of_get16_eq hstart
    obtain ⟨h4, h5⟩ := Buffer.get_eq_of_get16_eq hend
    interval_cases x <;> assumption
  rcases Nat.lt_or_ge x (freeEnd p) with hlt | hge'
  · exact hdata x hge hlt
  -- the byte belongs to the slot `i`
  obtain ⟨i, hi, hxi⟩ : ∃ i < slotCount p, slotAt i ≤ x ∧ x < slotAt i + 4 :=
    ⟨(4095 - x) / 4, by omega, by simp only [slotAt]; omega⟩
  obtain ⟨h0, h1⟩ := Buffer.get_eq_of_get16_eq (hoff i hi)
  obtain ⟨h2, h3⟩ := Buffer.get_eq_of_get16_eq (hlen i hi)
  obtain rfl | rfl | rfl | rfl : x = slotAt i ∨ x = slotAt i + 1 ∨ x = slotAt i + 2 ∨
      x = slotAt i + 3 := by omega
  · exact h0
  · exact h1
  · exact h2
  · exact h3

lemma sum_liveSlots_lt {p : Page} {i : ℕ} (hi : i < slotCount p) :
    ∑ k ∈ liveSlots p with k < i, slotLen p k = ∑ k ∈ range i, slotLen p k := by
  have hlower : (liveSlots p).filter (· < i) = (range i).filter fun k => slotLen p k ≠ 0 := by
    ext k
    simp only [liveSlots, mem_filter, mem_range]
    omega
  rw [hlower, sum_filter_ne_zero]

namespace Compacted

variable {p q q' : Page}

lemma liveBytes_eq (h : Compacted p q) : liveBytes q = liveBytes p := by
  rw [liveBytes, liveBytes, h.count]
  exact sum_congr rfl fun i hi => h.len i (mem_range.mp hi)

lemma packedPlace_eq (h : Compacted p q) {i : ℕ} (hi : i < slotCount p) :
    packedPlace q i = packedPlace p i := by
  rw [packedPlace, packedPlace, place, place]
  congr 1
  exact sum_congr rfl fun k hk => h.len k ((mem_range.mp hk).trans hi)

/-- The records of a compacted page are in place already. -/
lemma idem (h : Compacted p q) (hp : WellFormed p) (h' : Compacted q q') : q' = q := by
  have hlive : ∀ i < slotCount q, slotLen q i ≠ 0 → slotOff q i = packedPlace q i := by
    intro i hi hlen
    rw [h.count] at hi
    rw [h.off i hi, h.packedPlace_eq hi, if_pos (h.len i hi ▸ hlen)]
  refine (h.wellFormed hp).ext h'.count ?_ h'.fend (fun i hi => ?_) h'.len fun x hx hx' => ?_
  · rw [h'.start, h.start, h.liveBytes_eq]
  · rw [h'.off i hi]
    split
    · next hlen => exact (hlive i hi hlen).symm
    · rfl
  · rw [h'.data x hx hx']
    exact pack_of_packed hlive x

end Compacted

/-- **Compaction is canonical**: afterwards the live records lie one behind the other in the order
of their slots, from the header on, and the free space starts behind the last one; nothing else
in the header or the directory has changed, and a second compaction changes nothing at all. -/
theorem page_compact_canonical {p : Page} (hp : Reachable p) :
    let q := (pageCompact.run p).2
    (∀ i ∈ liveSlots p, slotOff q i = sizeofPageHeader + ∑ k ∈ liveSlots p with k < i, slotLen p k) ∧
      freeStart q = sizeofPageHeader + ∑ i ∈ liveSlots p, slotLen p i ∧
      freeStart q ≤ freeStart p ∧
      slotCount q = slotCount p ∧ freeEnd q = freeEnd p ∧
      (∀ i < slotCount p, slotLen q i = slotLen p i) ∧
      (∀ i ∈ deletedSlots p, slotOff q i = slotOff p i) ∧
      (pageCompact.run q).2 = q := by
  have hwf := hp.wellFormed
  have hq : Compacted p (pageCompact.run p).2 := pageCompact_spec hwf ⟨p, []⟩ rfl
  have hq' : Compacted _ (pageCompact.run (pageCompact.run p).2).2 :=
    pageCompact_spec (hq.wellFormed hwf) ⟨_, []⟩ rfl
  refine ⟨fun i hi => ?_, ?_, ?_, hq.count, hq.fend, hq.len, fun i hi => ?_, hq.idem hwf hq'⟩
  · obtain ⟨hi, hlen⟩ := mem_filter.mp hi
    rw [mem_range] at hi
    rw [hq.off i hi, if_pos hlen, sum_liveSlots_lt hi]
    rfl
  · rw [hq.start, sum_liveSlots]
  · rw [hq.start]
    exact hwf.liveBytes_le
  · obtain ⟨hi, hlen⟩ := mem_filter.mp hi
    rw [hq.off i (mem_range.mp hi), if_neg (by simpa using hlen)]

/-- The slot of the first record is used again for a record behind the second one. -/
def overlapPage : Page :=
  pageAfter emptyPage [.insert (some (record 5 65 (by decide))),
    .insert (some (record 20 66 (by decide))), .delete 0,
    .insert (some (record 30 67 (by decide)))]

lemma reachable_overlapPage : Reachable overlapPage := ⟨_, rfl⟩

theorem page_compact_canonical_overlap :
    let q := (pageCompact.run overlapPage).2
    (∀ i ∈ liveSlots overlapPage, slotOff q i =
        sizeofPageHeader + ∑ k ∈ liveSlots overlapPage with k < i, slotLen overlapPage k) ∧
      freeStart q = sizeofPageHeader + ∑ i ∈ liveSlots overlapPage, slotLen overlapPage i ∧
      freeStart q ≤ freeStart overlapPage ∧
      slotCount q = slotCount overlapPage ∧ freeEnd q = freeEnd overlapPage ∧
      (∀ i < slotCount overlapPage, slotLen q i = slotLen overlapPage i) ∧
      (∀ i ∈ deletedSlots overlapPage, slotOff q i = slotOff overlapPage i) ∧
      (pageCompact.run q).2 = q :=
  page_compact_canonical reachable_overlapPage

/-! ### The records -/

/-- `page_get` of the slot `i` returns the same from both pages, into every buffer. -/
def SameGet (p q : Page) (i : ℕ) : Prop :=
  ∀ buffer, ((pageGet i buffer).run q).1 = ((pageGet i buffer).run p).1

lemma pageGet_of_no_record {p : Page} (hp : WellFormed p) {i : ℕ} (hrec : recordAt p i = none)
    (buffer : Area) : ((pageGet i (some buffer)).run p).1 = (-1, some buffer) := by
  rw [run_fst]
  rcases pageGet_spec hp i buffer ⟨p, []⟩ rfl with ⟨rec, hrec', -⟩ | ⟨-, hget⟩
  · rw [hrec] at hrec'
    cases hrec'
  · exact hget

lemma WellFormed.length_record_le {p : Page} (hp : WellFormed p) {i : ℕ} {rec : List UInt8}
    (hrec : recordAt p i = some rec) : rec.length ≤ 4096 := by
  have hlen : recordLen p i = some rec.length := by
    rw [hp.recordLen_eq, hrec]
    rfl
  obtain ⟨hi, hlen, hne⟩ := recordLen_eq_some.mp hlen
  have hin := hp.inside i hi (hlen ▸ hne)
  have hstart := hp.start_le
  have hend := hp.end_eq
  omega

/-- What `page_get` returns into a buffer of the size of a page. -/
lemma pageGet_wide {p : Page} (hp : WellFormed p) (i : ℕ) {buffer : Area}
    (hbuf : buffer.length = 4096) :
    ((pageGet i (some buffer)).run p).1 =
      (recordAt p i).elim (-1, some buffer) fun rec =>
        ((rec.length : ℤ), some (buffer.fill rec)) := by
  cases hrec : recordAt p i with
  | none => exact pageGet_of_no_record hp hrec buffer
  | some rec => exact pageGet_of_record hp hrec buffer (hbuf ▸ hp.length_record_le hrec)

/-- A buffer of the size of a page shows the record. -/
lemma sameGet_iff {p q : Page} (hp : WellFormed p) (hq : WellFormed q) (i : ℕ) :
    SameGet p q i ↔ recordAt q i = recordAt p i := by
  constructor
  · intro h
    obtain ⟨buffer, hbuf⟩ : ∃ buffer : Area, buffer.length = 4096 :=
      ⟨record 4096 0 (by decide), length_record ..⟩
    have hget := h (some buffer)
    rw [pageGet_wide hp i hbuf, pageGet_wide hq i hbuf] at hget
    cases hrec : recordAt p i with
    | none =>
      cases hrec' : recordAt q i with
      | none => rfl
      | some rec' => simp [hrec, hrec'] at hget
    | some rec =>
      cases hrec' : recordAt q i with
      | none => simp [hrec, hrec'] at hget
      | some rec' =>
        rw [hrec, hrec'] at hget
        obtain ⟨hlen, hfill⟩ := Prod.mk.inj hget
        have htake : (buffer.fill rec).bytes.take rec.length = rec :=
          take_fill (hbuf ▸ hp.length_record_le hrec)
        have htake' : (buffer.fill rec').bytes.take rec'.length = rec' :=
          take_fill (hbuf ▸ hq.length_record_le hrec')
        rw [Option.some.inj hfill, Nat.cast_inj.mp hlen, htake] at htake'
        rw [htake']
  · intro h buffer
    cases buffer with
    | none => rfl
    | some buffer =>
      rw [run_fst, run_fst]
      rcases pageGet_spec hp i buffer ⟨p, []⟩ rfl with ⟨rec, hrec, hle, hget⟩ | ⟨hshort, hget⟩
      · rw [hget]
        exact pageGet_of_record hq (h.trans hrec) buffer hle
      · rcases pageGet_spec hq i buffer ⟨q, []⟩ rfl with ⟨rec, hrec, hle, -⟩ | ⟨-, hget'⟩
        · have hlen : recordLen p i = some rec.length := by
            rw [hp.recordLen_eq, ← h, hrec]
            rfl
          exact absurd (hshort _ hlen) (by omega)
        · rw [hget, hget']

/-- An empty or missing record leaves the page; any other may have it compacted. -/
lemma sameGet_insert_iff {p : Page} (hp : WellFormed p) (r : Area) :
    (∀ i : ℕ, (i : ℤ) ≠ ((pageInsert (some r)).run p).1 →
        SameGet p ((pageInsert (some r)).run p).2 i) ↔
      (r.length ≠ 0 → InsertSafe p r.length) := by
  dsimp only [PageM.run]
  by_cases hr : r.length = 0
  · rw [pageInsert_refuse (some r) (by rintro _ ⟨⟩; exact hr)]
    exact ⟨fun _ hne => absurd hr hne, fun _ i _ buffer => rfl⟩
  simp only [ne_eq, hr, not_false_eq_true, forall_const]
  obtain ⟨q, hq, ⟨hfits, hret, hplaced⟩ | ⟨-, hret, hpage⟩⟩ := pageInsert_spec hp hr ⟨p, []⟩ rfl
  · have hgap := (hq.gap_iff_fits hp).mpr hfits
    have hwf := hplaced.wellFormed hgap (hq.wellFormed hp)
    have hnew := hplaced.recordAt_eq (hq.wellFormed hp) hr hgap (insertSlot p)
    rw [hq.insertSlot_eq, if_pos rfl] at hnew
    rw [← recordAt_insert_iff hp hq hfits hplaced hr, hret]
    constructor
    · intro h i
      split
      · next hi => rw [hi, hnew]
      · next hi => exact (sameGet_iff hp hwf i).mp (h i (by exact_mod_cast hi))
    · intro h i hi
      rw [sameGet_iff hp hwf, h i, if_neg (by exact_mod_cast hi)]
  · rw [hret, hpage, ← hq.recordAt_eq_iff hp]
    constructor
    · exact fun h i => (sameGet_iff hp (hq.wellFormed hp) i).mp (h i (by omega))
    · exact fun h i _ => (sameGet_iff hp (hq.wellFormed hp) i).mpr (h i)

/-- **When compaction keeps the records.**  From a reachable page, `page_get` returns the same after
`page_compact` as before, for every slot, if and only if the compaction is safe; and after
`page_insert`, for every slot but the one it returns, if and only if no unsafe compaction was
needed to make room for the record. -/
theorem page_compact_faithful_iff {p : Page} (hp : Reachable p) :
    ((∀ i, SameGet p (pageCompact.run p).2 i) ↔ CompactSafe p) ∧
      ∀ record : Option Area,
        (∀ i : ℕ, (i : ℤ) ≠ ((pageInsert record).run p).1 →
            SameGet p ((pageInsert record).run p).2 i) ↔
          ∀ r, record = some r → r.length ≠ 0 → InsertSafe p r.length := by
  have hwf := hp.wellFormed
  refine ⟨?_, fun record => ?_⟩
  · have hq : Compacted p (pageCompact.run p).2 := pageCompact_spec hwf ⟨p, []⟩ rfl
    rw [← hq.recordAt_eq_iff hwf]
    exact forall_congr' fun i => sameGet_iff hwf (hq.wellFormed hwf) i
  · cases record with
    | none => exact ⟨fun _ r hr => (Option.some_ne_none r hr.symm).elim, fun _ i _ buffer => rfl⟩
    | some r => simpa using sameGet_insert_iff hwf r

theorem page_compact_faithful_iff_overlap :
    ((∀ i, SameGet overlapPage (pageCompact.run overlapPage).2 i) ↔ CompactSafe overlapPage) ∧
      ∀ record : Option Area,
        (∀ i : ℕ, (i : ℤ) ≠ ((pageInsert record).run overlapPage).1 →
            SameGet overlapPage ((pageInsert record).run overlapPage).2 i) ↔
          ∀ r, record = some r → r.length ≠ 0 → InsertSafe overlapPage r.length :=
  page_compact_faithful_iff reachable_overlapPage

set_option maxRecDepth 10000 in
lemma pageGet_overlapPage :
    ((pageGet 1 (some (record 20 0 (by decide)))).run (pageCompact.run overlapPage).2).1 ≠
      ((pageGet 1 (some (record 20 0 (by decide)))).run overlapPage).1 := by
  decide +kernel

/-- **Compaction can change a record**: the bytes of the first slot are moved over those of the
second one. -/
theorem page_compact_overlap : ¬ ∀ p, Reachable p → ∀ i, SameGet p (pageCompact.run p).2 i :=
  fun h => pageGet_overlapPage (h overlapPage reachable_overlapPage 1 _)

end MiniDb

end CsLab
