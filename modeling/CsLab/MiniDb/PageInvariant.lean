/-
The representation invariant of a slotted page.

`WellFormed` says where the directory, the records and the free space of a page lie.
The file has the effect of `page_init`, `page_delete` and `page_compact` on a
well-formed page, one specification for each of them.  For `page_compact` that is
`Compacted`: the records lie one behind the other in the order of their slots, and
the bytes of the page are those of `Extents.pack`, the moves in the order of the
slots.
-/
import CsLab.Lib.Extents
import CsLab.MiniDb.PageView

namespace CsLab

namespace MiniDb

open PageM Prog Extents Finset

/-- The representation invariant of a slotted page: the directory ends the page, the
free space lies in front of it, and the live records lie between the header and the
free space without overlapping. -/
structure WellFormed (p : Page) : Prop where
  end_eq : freeEnd p + 4 * slotCount p = 4096
  start_ge : 6 ≤ freeStart p
  start_le : freeStart p ≤ freeEnd p
  inside : ∀ i < slotCount p, slotLen p i ≠ 0 →
    6 ≤ slotOff p i ∧ slotOff p i + slotLen p i ≤ freeStart p
  apart : ∀ i < slotCount p, ∀ j < slotCount p, i ≠ j → slotLen p i ≠ 0 → slotLen p j ≠ 0 →
    Apart (slotOff p) (slotLen p) i j

/-- The number of bytes that the live records take. -/
def liveBytes (p : Page) : ℕ := ∑ i ∈ range (slotCount p), slotLen p i

/-- Where `page_compact` puts the record of the slot `i`. -/
def packedPlace (p : Page) (i : ℕ) : ℕ := place 6 (slotLen p) i

lemma packedPlace_slotCount (p : Page) : packedPlace p (slotCount p) = 6 + liveBytes p := rfl

namespace WellFormed

variable {p : Page}

lemma slotCount_le (h : WellFormed p) : slotCount p ≤ 1022 := by
  have := h.end_eq
  have := h.start_ge
  have := h.start_le
  omega

/-- The live records fit in front of `free_start`. -/
lemma liveBytes_le (h : WellFormed p) : 6 + liveBytes p ≤ freeStart p :=
  sum_len_le h.start_ge h.inside h.apart

lemma packedPlace_add_len_le (h : WellFormed p) {i : ℕ} (hi : i < slotCount p) :
    packedPlace p i + slotLen p i ≤ freeStart p :=
  (place_add_len_le 6 (slotLen p) hi).trans h.liveBytes_le

end WellFormed

/-! ### `page_init` -/

/-- The image that `page_init` produces. -/
def emptyPage : Page := (pageInit.run (Buffer.zero pageSize)).2

lemma pageInit_run (p : Page) : (pageInit.run p).2 = emptyPage := rfl

lemma slotCount_emptyPage : slotCount emptyPage = 0 := by decide +kernel

lemma freeStart_emptyPage : freeStart emptyPage = 6 := by decide +kernel

lemma freeEnd_emptyPage : freeEnd emptyPage = 4096 := by decide +kernel

lemma wellFormed_emptyPage : WellFormed emptyPage where
  end_eq := by rw [freeEnd_emptyPage, slotCount_emptyPage]
  start_ge := by rw [freeStart_emptyPage]
  start_le := by rw [freeStart_emptyPage, freeEnd_emptyPage]; omega
  inside := by simp [slotCount_emptyPage]
  apart := by simp [slotCount_emptyPage]

lemma liveBytes_emptyPage : liveBytes emptyPage = 0 := by
  simp [liveBytes, slotCount_emptyPage]

/-! ### `page_delete` -/

/-- `page_delete` succeeds on a live slot, and then only sets its length to `0`. -/
lemma pageDelete_spec {p : Page} (hp : WellFormed p) (i : ℕ) (s : PageState) (hs : s.page = p) :
    (i < slotCount p ∧ slotLen p i ≠ 0 ∧ (pageDelete i s).1 = 0 ∧
        (pageDelete i s).2.page = p.put16 (lengthField (slotAt i)) 0) ∨
      ((slotCount p ≤ i ∨ slotLen p i = 0) ∧ (pageDelete i s).1 = -1 ∧
        (pageDelete i s).2.page = p) := by
  subst hs
  have hcount := hp.slotCount_le
  by_cases hi : i < slotCount s.page
  · have hslot : ∀ s' : PageState, (slotOffset i s').1 = slotAt i :=
      fun s' => slotOffset_fst s' (by omega)
    have hi' : ¬ s.page.get16 slotCountField ≤ i := by
      simpa [slotCount] using hi
    by_cases hlen : slotLen s.page i = 0
    · right
      have hlen' : s.page.get16 (lengthField (slotAt i)) = 0 := hlen
      refine ⟨Or.inr hlen, ?_, ?_⟩ <;>
        simp [pageDelete, hi', hslot, hlen']
    · left
      have hlen' : ¬ s.page.get16 (lengthField (slotAt i)) = 0 := hlen
      refine ⟨hi, hlen, ?_, ?_⟩ <;>
        simp [pageDelete, hi', hslot, hlen']
  · right
    have hi' : s.page.get16 slotCountField ≤ i := by
      simpa [slotCount] using hi
    refine ⟨Or.inl (by omega), ?_, ?_⟩ <;>
      simp [pageDelete, hi']

section Delete

variable {p : Page} {i : ℕ}

/-- The directory after a slot was deleted. -/
lemma slotLen_delete (hp : WellFormed p) (hi : i < slotCount p) {j : ℕ} (hj : j < slotCount p) :
    slotLen (p.put16 (lengthField (slotAt i)) 0) j = if j = i then 0 else slotLen p j := by
  have hcount := hp.slotCount_le
  rw [slotLen_put16_length _ _ (by omega) (by omega)]
  exact if_congr eq_comm rfl rfl

lemma wellFormed_delete (hp : WellFormed p) (hi : i < slotCount p) :
    WellFormed (p.put16 (lengthField (slotAt i)) 0) := by
  have hcount := hp.slotCount_le
  have hfield : 6 ≤ lengthField (slotAt i) := by
    simp only [lengthField, slotAt]
    omega
  have hcount' := slotCount_put16 p 0 (show 2 ≤ lengthField (slotAt i) by omega)
  have hstart' := freeStart_put16 p 0 (show 4 ≤ lengthField (slotAt i) ∨ _ from Or.inl (by omega))
  have hend' := freeEnd_put16 p 0 (show 6 ≤ lengthField (slotAt i) ∨ _ from Or.inl hfield)
  have hoff : ∀ j < slotCount p, slotOff (p.put16 (lengthField (slotAt i)) 0) j = slotOff p j :=
    fun j hj => slotOff_put16_length p 0 (by omega) (by omega)
  have hlive : ∀ j < slotCount p, slotLen (p.put16 (lengthField (slotAt i)) 0) j ≠ 0 →
      slotLen (p.put16 (lengthField (slotAt i)) 0) j = slotLen p j := by
    intro j hj hne
    rw [slotLen_delete hp hi hj] at hne ⊢
    split at hne
    · exact absurd rfl hne
    · next hji => rw [if_neg hji]
  constructor
  · rw [hend', hcount', hp.end_eq]
  · rw [hstart']
    exact hp.start_ge
  · rw [hstart', hend']
    exact hp.start_le
  · intro j hj hne
    rw [hcount'] at hj
    have hlen := hlive j hj hne
    rw [hoff j hj, hlen, hstart']
    exact hp.inside j hj (hlen ▸ hne)
  · intro j hj k hk hjk hnej hnek
    rw [hcount'] at hj hk
    have hlenj := hlive j hj hnej
    have hlenk := hlive k hk hnek
    rw [Apart, hoff j hj, hoff k hk, hlenj, hlenk]
    exact hp.apart j hj k hk hjk (hlenj ▸ hnej) (hlenk ▸ hnek)

end Delete

/-! ### `page_compact` -/

/-- The loop invariant of `page_compact`: `p` is the page `p₀` with the records of the
slots below `i` moved to their packed places, one after another. -/
structure Packing (p₀ : Page) (i : ℕ) (p : Page) : Prop where
  count : slotCount p = slotCount p₀
  fend : freeEnd p = freeEnd p₀
  len : ∀ j < slotCount p₀, slotLen p j = slotLen p₀ j
  off : ∀ j < slotCount p₀,
    slotOff p j = if j < i ∧ slotLen p₀ j ≠ 0 then packedPlace p₀ j else slotOff p₀ j
  data : ∀ x, 6 ≤ x → x < freeEnd p₀ →
    p.get x = pack (slotOff p₀) (slotLen p₀) 6 p₀.get i x

namespace Packing

variable {p₀ p : Page} {i : ℕ}

lemma refl (p : Page) : Packing p 0 p :=
  ⟨rfl, rfl, fun _ _ => rfl, fun _ _ => by simp, fun _ _ _ => rfl⟩

/-- A deleted slot is skipped. -/
lemma skip (h : Packing p₀ i p) (hlen : slotLen p₀ i = 0) : Packing p₀ (i + 1) p where
  count := h.count
  fend := h.fend
  len := h.len
  off j hj := by
    rw [h.off j hj]
    refine if_congr ?_ rfl rfl
    constructor
    · rintro ⟨hji, hne⟩
      exact ⟨by omega, hne⟩
    · rintro ⟨hji, hne⟩
      have hjne : j ≠ i := fun heq => hne (heq ▸ hlen)
      exact ⟨by omega, hne⟩
  data x hx hx' := by
    rw [h.data x hx hx', pack, Extents.move, if_neg (by omega)]

/-- The slot `i` is moved: `memmove`, then the new offset is stored. -/
lemma step (h₀ : WellFormed p₀) (h : Packing p₀ i p) (hi : i < slotCount p₀)
    (hlen : slotLen p₀ i ≠ 0) :
    Packing p₀ (i + 1)
      ((p.blit (packedPlace p₀ i) (p.slice (slotOff p i) (slotLen p i))).put16
        (offsetField (slotAt i)) (packedPlace p₀ i)) := by
  have hcount := h₀.slotCount_le
  have hend := h₀.end_eq
  have hstart := h₀.start_le
  have hplace := h₀.packedPlace_add_len_le hi
  have hplace6 : 6 ≤ packedPlace p₀ i := Nat.le_add_right _ _
  have hoff : slotOff p i = slotOff p₀ i := by
    rw [h.off i hi, if_neg (by omega)]
  have hin := h₀.inside i hi hlen
  have hslice : (p.slice (slotOff p i) (slotLen p i)).length = slotLen p₀ i := by
    rw [h.len i hi, hoff]
    exact Buffer.length_slice p (by simp only [pageSize]; omega)
  have hfield : 6 ≤ offsetField (slotAt i) := by
    simp only [offsetField, slotAt]
    omega
  constructor
  · rw [slotCount_put16 _ _ (by omega), slotCount_blit p _ hplace6, h.count]
  · rw [freeEnd_put16 _ _ (Or.inl hfield), freeEnd_blit p _ hplace6, h.fend]
  · intro j hj
    rw [slotLen_put16_offset _ _ (by omega) (by omega), slotLen_blit p _ (by omega), h.len j hj]
  · intro j hj
    rw [slotOff_put16_offset _ _ (by omega) (by omega)]
    by_cases hij : i = j
    · subst hij
      rw [if_pos rfl, if_pos ⟨by omega, hlen⟩]
      omega
    · rw [if_neg hij, slotOff_blit p _ (by omega), h.off j hj]
      exact if_congr (by omega) rfl rfl
  · intro x hx hx'
    have hxfield : x < offsetField (slotAt i) := by
      simp only [offsetField, slotAt]
      omega
    rw [Buffer.get_put16_of_ne _ _ (Or.inl hxfield), pack, Extents.move]
    change _ = if packedPlace p₀ i ≤ x ∧ x < packedPlace p₀ i + slotLen p₀ i then
      pack (slotOff p₀) (slotLen p₀) 6 p₀.get i (slotOff p₀ i + (x - packedPlace p₀ i))
      else pack (slotOff p₀) (slotLen p₀) 6 p₀.get i x
    split
    · next hmem =>
        rw [Buffer.get_blit_of_mem p hmem.1 (by omega) (by simp only [pageSize]; omega),
          Buffer.getD_slice p _ (by rw [h.len i hi]; omega), hoff,
          h.data _ (by omega) (by omega)]
    · next hmem =>
        rw [Buffer.get_blit_of_not_mem p (by omega), h.data x hx hx']

end Packing

/-- One turn of the loop of `page_compact`, for the slot `slotId`. -/
def pageCompactTurn (slotId newFreeStart : ℕ) : PageM ℕ := do
  let slot ← slotOffset slotId
  let length ← load (lengthField slot)
  if length = 0 then
    return newFreeStart
  else
    let oldOffset ← load (offsetField slot)
    move newFreeStart oldOffset length
    store (offsetField slot) newFreeStart
    let length ← load (lengthField slot)
    assign (newFreeStart + length)

/-- The loop makes a turn for the slot `i`, if there is one, and goes on. -/
lemma pageCompactLoop_succ (fuel i place : ℕ) (s : PageState) :
    pageCompactLoop (fuel + 1) i place s =
      if i < slotCount s.page then
        pageCompactLoop fuel (i + 1) (pageCompactTurn i place (load slotCountField s).2).1
          (pageCompactTurn i place (load slotCountField s).2).2
      else (place, (load slotCountField s).2) := by
  simp only [pageCompactLoop, pageCompactTurn, run_bind, run_ite, run_pure, load_slotCount]
  split
  · split <;> rfl
  · rfl

/-- A turn packs one slot more, and returns the place behind its record. -/
lemma pageCompactTurn_spec {p₀ : Page} (h₀ : WellFormed p₀) {i : ℕ} (hi : i < slotCount p₀)
    (s : PageState) (hpack : Packing p₀ i s.page) :
    (pageCompactTurn i (packedPlace p₀ i) s).1 = packedPlace p₀ (i + 1) ∧
      Packing p₀ (i + 1) (pageCompactTurn i (packedPlace p₀ i) s).2.page := by
  have hcount := h₀.slotCount_le
  have hend := h₀.end_eq
  have hstart := h₀.start_le
  have hpl := h₀.packedPlace_add_len_le hi
  have hnext : packedPlace p₀ i + slotLen p₀ i = packedPlace p₀ (i + 1) := by
    rw [packedPlace, packedPlace, place_succ]
  have hlen : s.page.get16 (lengthField (slotAt i)) = slotLen p₀ i := hpack.len i hi
  simp only [pageCompactTurn, run_bind, run_ite, run_pure, load_fst, load_page, slotOffset_page,
    slotOffset_fst _ (show i < 1023 by omega), hlen]
  by_cases hzero : slotLen p₀ i = 0
  · rw [if_pos hzero, ← hnext, hzero, Nat.add_zero]
    exact ⟨rfl, hpack.skip hzero⟩
  · rw [if_neg hzero]
    have hstep := hpack.step h₀ hi hzero
    -- the length that is read again after the move is the old one
    have hlen₀ : slotLen s.page i = slotLen p₀ i := hlen
    have hlen' := hstep.len i hi
    rw [slotLen, slotOff, hlen₀] at hlen'
    simp only [load_page, slotOffset_page, move_page, store_page, hlen', assign_page, hnext,
      assign_fst _ (show packedPlace p₀ (i + 1) < 65536 by omega), true_and]
    simpa only [slotOff, hlen₀] using hstep

/-- The loop of `page_compact` packs the rest of the slots, and returns the place
behind the last record. -/
lemma pageCompactLoop_spec {p₀ : Page} (h₀ : WellFormed p₀) :
    ∀ (fuel i : ℕ) (s : PageState), slotCount p₀ < fuel + i → i ≤ slotCount p₀ →
      Packing p₀ i s.page →
      (pageCompactLoop fuel i (packedPlace p₀ i) s).1 = packedPlace p₀ (slotCount p₀) ∧
        Packing p₀ (slotCount p₀) (pageCompactLoop fuel i (packedPlace p₀ i) s).2.page := by
  intro fuel
  induction fuel with
  | zero =>
    intro i s hfuel hi _
    omega
  | succ fuel ih =>
    intro i s hfuel hi hpack
    rw [pageCompactLoop_succ, hpack.count]
    by_cases hlt : i < slotCount p₀
    · obtain ⟨hplace, hturn⟩ := pageCompactTurn_spec h₀ hlt (load slotCountField s).2 hpack
      rw [if_pos hlt, hplace]
      exact ih (i + 1) _ (by omega) hlt hturn
    · rw [if_neg hlt]
      obtain rfl : i = slotCount p₀ := by omega
      exact ⟨rfl, hpack⟩

/-- What `page_compact` makes of the page `p`. -/
structure Compacted (p q : Page) : Prop where
  count : slotCount q = slotCount p
  fend : freeEnd q = freeEnd p
  start : freeStart q = 6 + liveBytes p
  len : ∀ j < slotCount p, slotLen q j = slotLen p j
  off : ∀ j < slotCount p,
    slotOff q j = if slotLen p j ≠ 0 then packedPlace p j else slotOff p j
  data : ∀ x, 6 ≤ x → x < freeEnd p →
    q.get x = pack (slotOff p) (slotLen p) 6 p.get (slotCount p) x

lemma pageCompact_spec {p : Page} (hp : WellFormed p) (s : PageState) (hs : s.page = p) :
    Compacted p (pageCompact s).2.page := by
  subst hs
  have hcount := hp.slotCount_le
  have hlive := hp.liveBytes_le
  have hstart := hp.start_le
  have hend := hp.end_eq
  have h6 : ∀ s' : PageState, (assign sizeofPageHeader s').1 = packedPlace s'.page 0 :=
    fun _ => rfl
  have hloop := pageCompactLoop_spec hp (2 ^ 16) 0 (assign sizeofPageHeader s).2 (by omega)
    (Nat.zero_le _) (by rw [assign_page]; exact Packing.refl s.page)
  obtain ⟨hplace, hpack⟩ := hloop
  simp only [pageCompact, run_bind, h6, hplace, store_page]
  constructor
  · rw [← hpack.count]
    exact Buffer.get16_put16_of_ne _ _ (by simp only [slotCountField, freeStartField]; omega)
  · rw [← hpack.fend]
    exact Buffer.get16_put16_of_ne _ _ (by simp only [freeEndField, freeStartField]; omega)
  · rw [freeStart_put16_self, packedPlace_slotCount]
    omega
  · intro j hj
    rw [← hpack.len j hj]
    exact slotLen_put16_header _ _ (by simp only [freeStartField]; omega) (by omega)
  · intro j hj
    rw [slotOff_put16_header _ _ (by simp only [freeStartField]; omega) (by omega), hpack.off j hj]
    exact if_congr (by simp only [hj, true_and]) rfl rfl
  · intro x hx hx'
    rw [← hpack.data x hx hx']
    exact Buffer.get_put16_of_ne _ _ (by simp only [freeStartField]; omega)

namespace Compacted

variable {p q : Page}

lemma firstDeleted_eq (h : Compacted p q) : firstDeleted q = firstDeleted p := by
  cases hd : firstDeleted p with
  | none =>
    rw [firstDeleted_eq_none] at hd ⊢
    intro i hi
    rw [h.count] at hi
    rw [h.len i hi]
    exact hd i hi
  | some i =>
    rw [firstDeleted_eq_some] at hd ⊢
    obtain ⟨hi, hlen, hmin⟩ := hd
    refine ⟨h.count ▸ hi, (h.len i hi).trans hlen, fun j hj => ?_⟩
    rw [h.len j (by omega)]
    exact hmin j hj

lemma wellFormed (h : Compacted p q) (hp : WellFormed p) : WellFormed q where
  end_eq := by rw [h.fend, h.count]; exact hp.end_eq
  start_ge := by rw [h.start]; exact Nat.le_add_right _ _
  start_le := by rw [h.start, h.fend]; exact hp.liveBytes_le.trans hp.start_le
  inside i hi hlen := by
    rw [h.count] at hi
    rw [h.len i hi] at hlen ⊢
    rw [h.off i hi, if_pos hlen, h.start]
    exact ⟨Nat.le_add_right _ _, place_add_len_le 6 (slotLen p) hi⟩
  apart i hi j hj hij hleni hlenj := by
    rw [h.count] at hi hj
    rw [h.len i hi] at hleni
    rw [h.len j hj] at hlenj
    rw [Apart, h.len i hi, h.len j hj, h.off i hi, h.off j hj, if_pos hleni, if_pos hlenj]
    rcases Nat.lt_or_gt_of_ne hij with hlt | hlt
    · exact Or.inl (place_add_len_le 6 (slotLen p) hlt)
    · exact Or.inr (place_add_len_le 6 (slotLen p) hlt)

end Compacted

end MiniDb

end CsLab
