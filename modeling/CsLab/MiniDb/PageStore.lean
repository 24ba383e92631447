/-
The heap file as a list of pages.

This is what the functions of the heap file do when no call on the file fails, said without
the file: `pageStep` takes a call and the pages to the value and the new pages.  A record
goes to the first page that takes it.  The lemmas say what a call does to the records that
the pages hold: to their lengths in every case, and to their bytes if `page_insert` did no
harm.
-/
import CsLab.Lib.SlotAlloc
import CsLab.MiniDb.HeapPages

namespace CsLab

namespace MiniDb

open SlotAlloc (update length_update getD_update)

/-- A call of the heap file, on a heap that is open.  `reopen` is `heap_close` and then
`heap_open`, where `open` gives the descriptor `fd`. -/
inductive HeapCall where
  | insert (record : Option Area) (rid : Option RID)
  | get (rid : RID) (buffer : Option Area)
  | delete (rid : RID)
  | pageCount
  | reopen (fd : ℕ)

/-- What a call returns, with what it leaves behind its out-parameter. -/
inductive HeapRet where
  | insert (ret : ℤ) (rid : Option RID)
  | get (ret : ℤ) (buffer : Option Area)
  | delete (ret : ℤ)
  | pageCount (n : ℕ)
  | reopen (ret : ℤ)
deriving DecidableEq

/-! ### The page for a record -/

/-- The first page that takes the record, the number of pages if there is none. -/
def pageFor (ps : List Page) (r : Area) : ℕ := ps.findIdx fun p => Accepts p r

/-- That page before the call; a new one is empty. -/
def targetPage (ps : List Page) (r : Area) : Page := ps.getD (pageFor ps r) emptyPage

/-- The RID that the record gets. -/
def insertRid (ps : List Page) (r : Area) : RID := ⟨pageFor ps r, insertSlot (targetPage ps r)⟩

/-- The pages with the record. -/
def insertPages (ps : List Page) (r : Area) : List Page :=
  update ps (pageFor ps r) (inserted (targetPage ps r) r)

/-- The pages without the record of a RID. -/
def deletePages (ps : List Page) (rid : RID) : List Page :=
  ps.set rid.pageId (deleted (ps.getD rid.pageId emptyPage) rid.slotId)

/-- One call on the pages. -/
def pageStep : HeapCall → List Page → HeapRet × List Page
  | .insert (some r) (some rid), ps =>
    if r.length > 4086 then (.insert (-1) (some rid), ps)
    else if r.length = 0 then (.insert (-1) (some rid), ps ++ [emptyPage])
    else (.insert 0 (some (insertRid ps r)), insertPages ps r)
  | .insert _ rid, ps => (.insert (-1) rid, ps)
  | .get rid (some buffer), ps =>
    match lookup ps rid with
    | some rec =>
      if rec.length ≤ buffer.length then (.get rec.length (some (buffer.fill rec)), ps)
      else (.get (-1) (some buffer), ps)
    | none => (.get (-1) (some buffer), ps)
  | .get _ none, ps => (.get (-1) none, ps)
  | .delete rid, ps =>
    if lookup ps rid = none then (.delete (-1), ps) else (.delete 0, deletePages ps rid)
  | .pageCount, ps => (.pageCount ps.length, ps)
  | .reopen _, ps => (.reopen 0, ps)

/-- What a call can do: its value, and the pages it leaves. -/
inductive PageMove (ps : List Page) : HeapCall → HeapRet → List Page → Prop
  /-- There is no record, no place for its RID, or the record is too long. -/
  | refuse {record : Option Area} {rid : Option RID}
      (hno : ∀ r, record = some r → rid ≠ none → 4086 < r.length) :
      PageMove ps (.insert record rid) (.insert (-1) rid) ps
  /-- An empty record leaves a new page behind. -/
  | leak {r : Area} {rid : RID} (hr : r.length = 0) :
      PageMove ps (.insert (some r) (some rid)) (.insert (-1) (some rid)) (ps ++ [emptyPage])
  | insert {r : Area} {rid : RID} (hr : r.length ≠ 0) (hmax : r.length ≤ 4086) :
      PageMove ps (.insert (some r) (some rid)) (.insert 0 (some (insertRid ps r)))
        (insertPages ps r)
  | get {rid : RID} {buffer : Area} {rec : List UInt8} (hrec : lookup ps rid = some rec)
      (hle : rec.length ≤ buffer.length) :
      PageMove ps (.get rid (some buffer)) (.get rec.length (some (buffer.fill rec))) ps
  /-- There is no record, or no buffer that can hold it. -/
  | miss {rid : RID} {buffer : Option Area}
      (hno : ∀ rec b, lookup ps rid = some rec → buffer = some b → b.length < rec.length) :
      PageMove ps (.get rid buffer) (.get (-1) buffer) ps
  | delete {rid : RID} (hlive : lookup ps rid ≠ none) :
      PageMove ps (.delete rid) (.delete 0) (deletePages ps rid)
  | gone {rid : RID} (hno : lookup ps rid = none) : PageMove ps (.delete rid) (.delete (-1)) ps
  | pageCount : PageMove ps .pageCount (.pageCount ps.length) ps
  | reopen (fd : ℕ) : PageMove ps (.reopen fd) (.reopen 0) ps

lemma PageMove.eq {ps ps' : List Page} {c : HeapCall} {ret : HeapRet} (h : PageMove ps c ret ps') :
    pageStep c ps = (ret, ps') := by
  cases h with
  | @refuse record rid hno =>
    cases record with
    | none => rfl
    | some r =>
      cases rid with
      | none => rfl
      | some rid => exact if_pos (hno r rfl (by simp))
  | leak hr =>
    simp only [pageStep]
    rw [if_neg (by omega), if_pos hr]
  | insert hr hmax =>
    simp only [pageStep]
    rw [if_neg (by omega), if_neg hr]
  | get hrec hle =>
    simp only [pageStep, hrec]
    exact if_pos hle
  | @miss rid buffer hno =>
    cases buffer with
    | none => rfl
    | some buffer =>
      simp only [pageStep]
      split
      · next rec hrec => exact if_neg (not_le.mpr (hno rec buffer hrec rfl))
      · rfl
  | delete hlive => exact if_neg hlive
  | gone hno => exact if_pos hno
  | pageCount => rfl
  | reopen fd => rfl

/-- A call does nothing else. -/
lemma exists_pageMove (c : HeapCall) (ps : List Page) :
    ∃ ret ps', pageStep c ps = (ret, ps') ∧ PageMove ps c ret ps' := by
  suffices h : ∃ ret ps', PageMove ps c ret ps' by
    obtain ⟨ret, ps', hmove⟩ := h
    exact ⟨ret, ps', hmove.eq, hmove⟩
  cases c with
  | insert record rid =>
    by_cases hno : ∀ r, record = some r → rid ≠ none → 4086 < r.length
    · exact ⟨_, _, .refuse hno⟩
    · push Not at hno
      obtain ⟨r, rfl, hrid, hmax⟩ := hno
      obtain ⟨rid, rfl⟩ := Option.ne_none_iff_exists'.mp hrid
      by_cases hr : r.length = 0
      · exact ⟨_, _, .leak hr⟩
      · exact ⟨_, _, .insert hr hmax⟩
  | get rid buffer =>
    by_cases hno : ∀ rec b, lookup ps rid = some rec → buffer = some b → b.length < rec.length
    · exact ⟨_, _, .miss hno⟩
    · push Not at hno
      obtain ⟨rec, b, hrec, rfl, hle⟩ := hno
      exact ⟨_, _, .get hrec hle⟩
  | delete rid =>
    by_cases hno : lookup ps rid = none
    · exact ⟨_, _, .gone hno⟩
    · exact ⟨_, _, .delete hno⟩
  | pageCount => exact ⟨_, _, .pageCount⟩
  | reopen fd => exact ⟨_, _, .reopen fd⟩

section PageFor

variable {ps : List Page} {r : Area}

lemma pageFor_le (ps : List Page) (r : Area) : pageFor ps r ≤ ps.length := List.findIdx_le_length

/-- The page for a record takes it, if it exists, and no page before it does. -/
lemma pageFor_eq_iff {q : ℕ} :
    pageFor ps r = q ↔
      (q < ps.length → Accepts (ps.getD q emptyPage) r) ∧ q ≤ ps.length ∧
        ∀ i < q, ¬ Accepts (ps.getD i emptyPage) r := by
  have hfirst : ∀ i < pageFor ps r, ¬ Accepts (ps.getD i emptyPage) r := by
    intro i hi
    rw [List.getD_eq_getElem _ _ (hi.trans_le (pageFor_le ps r))]
    exact of_decide_eq_false (by simpa using List.not_of_lt_findIdx hi)
  have htakes : pageFor ps r < ps.length → Accepts (targetPage ps r) r := by
    intro hlt
    rw [targetPage, List.getD_eq_getElem _ _ hlt]
    exact of_decide_eq_true (List.findIdx_getElem (w := hlt))
  constructor
  · rintro rfl
    exact ⟨htakes, pageFor_le ps r, hfirst⟩
  · rintro ⟨htake, hle, hno⟩
    rcases Nat.lt_trichotomy (pageFor ps r) q with h | h | h
    · exact absurd (htakes (h.trans_le hle)) (hno _ h)
    · exact h
    · exact absurd (htake (h.trans_le (pageFor_le ps r))) (hfirst _ h)

lemma accepts_targetPage (ps : List Page) (hr : r.length ≠ 0) (hmax : r.length ≤ 4086) :
    Accepts (targetPage ps r) r := by
  rcases Nat.lt_or_ge (pageFor ps r) ps.length with hlt | hge
  · exact (pageFor_eq_iff.mp rfl).1 hlt
  · rw [targetPage, List.getD_eq_default _ _ hge]
    exact accepts_emptyPage hr hmax

lemma getD_mem_or (ps : List Page) (i : ℕ) : ps.getD i emptyPage ∈ ps ∨ ps.getD i emptyPage = emptyPage := by
  rcases Nat.lt_or_ge i ps.length with hlt | hge
  · rw [List.getD_eq_getElem _ _ hlt]
    exact Or.inl (List.getElem_mem hlt)
  · exact Or.inr (List.getD_eq_default _ _ hge)

lemma wellFormed_getD (hwf : ∀ p ∈ ps, WellFormed p) (i : ℕ) :
    WellFormed (ps.getD i emptyPage) := by
  rcases getD_mem_or ps i with h | h
  · exact hwf _ h
  · rw [h]
    exact wellFormed_emptyPage

end PageFor

/-! ### The records in the pages -/

/-- The length of the record that a RID finds. -/
def lookupLen (ps : List Page) (rid : RID) : Option ℕ :=
  recordLen (ps.getD rid.pageId emptyPage) rid.slotId

section Records

variable {ps : List Page} {r : Area} {rid : RID}

lemma lookup_eq_getD (ps : List Page) (rid : RID) :
    lookup ps rid = recordAt (ps.getD rid.pageId emptyPage) rid.slotId := by
  rcases Nat.lt_or_ge rid.pageId ps.length with hlt | hge
  · rw [List.getD_eq_getElem _ _ hlt]
    exact lookup_of_page (List.getElem?_eq_getElem hlt)
  · rw [List.getD_eq_default _ _ hge, lookup_of_ge hge, recordAt_emptyPage]

lemma lookupLen_eq (hwf : ∀ p ∈ ps, WellFormed p) (rid : RID) :
    lookupLen ps rid = (lookup ps rid).map List.length := by
  rw [lookupLen, lookup_eq_getD, (wellFormed_getD hwf _).recordLen_eq]

lemma getD_insertPages (i : ℕ) :
    (insertPages ps r).getD i emptyPage =
      if i = pageFor ps r then inserted (targetPage ps r) r else ps.getD i emptyPage :=
  getD_update (pageFor_le ps r) i emptyPage

lemma getD_deletePages (ps : List Page) (rid : RID) (i : ℕ) :
    (deletePages ps rid).getD i emptyPage =
      if i = rid.pageId ∧ i < ps.length then deleted (ps.getD i emptyPage) rid.slotId
      else ps.getD i emptyPage := by
  rw [deletePages, List.getD_eq_getElem?_getD, List.getElem?_set]
  by_cases heq : rid.pageId = i
  · subst heq
    by_cases hi : rid.pageId < ps.length
    · rw [if_pos rfl, if_pos hi, if_pos ⟨rfl, hi⟩]
      rfl
    · rw [if_pos rfl, if_neg hi, if_neg fun h => hi h.2, List.getD_eq_default _ _ (not_lt.mp hi)]
      rfl
  · rw [if_neg heq, if_neg fun h => heq h.1.symm, List.getD_eq_getElem?_getD]

lemma rid_eq_iff {a b : RID} : a = b ↔ a.pageId = b.pageId ∧ a.slotId = b.slotId := by
  cases a
  cases b
  simp

/-- The record lengths after an insert. -/
lemma lookupLen_insertPages (hwf : ∀ p ∈ ps, WellFormed p) (hr : r.length ≠ 0)
    (hmax : r.length ≤ 4086) (rid : RID) :
    lookupLen (insertPages ps r) rid =
      if rid = insertRid ps r then some r.length else lookupLen ps rid := by
  obtain ⟨q, hq, hplaced⟩ := (accepts_targetPage ps hr hmax).placed (wellFormed_getD hwf _)
  rw [lookupLen, lookupLen, getD_insertPages]
  by_cases hpage : rid.pageId = pageFor ps r
  · rw [if_pos hpage, recordLen_insert hq hplaced hr, hpage]
    exact if_congr (by simp [rid_eq_iff, insertRid, hpage]) rfl rfl
  · rw [if_neg hpage, if_neg fun h => hpage (by rw [h]; rfl)]

/-- The RID that an insert returns is not in use. -/
lemma lookupLen_insertRid (ps : List Page) (r : Area) : lookupLen ps (insertRid ps r) = none :=
  recordLen_insertSlot _

/-- The records after an insert are the old ones and the new one exactly when the page of the
record was safe to insert in. -/
lemma lookup_insertPages_iff (hwf : ∀ p ∈ ps, WellFormed p) (hr : r.length ≠ 0)
    (hmax : r.length ≤ 4086) :
    (∀ rid, lookup (insertPages ps r) rid =
        if rid = insertRid ps r then some r.bytes else lookup ps rid) ↔
      InsertSafe (targetPage ps r) r.length := by
  have hacc := accepts_targetPage ps hr hmax
  have hp : WellFormed (targetPage ps r) := wellFormed_getD hwf _
  obtain ⟨q, hq, hplaced⟩ := hacc.placed hp
  rw [← recordAt_insert_iff hp hq hacc.2 hplaced hr]
  constructor
  · intro h i
    have hi := h ⟨pageFor ps r, i⟩
    rw [lookup_eq_getD, lookup_eq_getD, getD_insertPages, if_pos rfl] at hi
    rw [hi]
    exact if_congr (by simp [rid_eq_iff, insertRid]) rfl rfl
  · intro h rid
    rw [lookup_eq_getD, lookup_eq_getD, getD_insertPages]
    by_cases hpage : rid.pageId = pageFor ps r
    · rw [if_pos hpage, h, hpage]
      exact if_congr (by simp [rid_eq_iff, insertRid, hpage]) rfl rfl
    · rw [if_neg hpage, if_neg fun h => hpage (by rw [h]; rfl)]

lemma lookup_deletePages (hwf : ∀ p ∈ ps, WellFormed p) (hlive : lookup ps rid ≠ none)
    (rid' : RID) :
    lookup (deletePages ps rid) rid' = if rid' = rid then none else lookup ps rid' := by
  have hlt : rid.pageId < ps.length := by
    by_contra hge
    exact hlive (lookup_of_ge (not_lt.mp hge))
  have hslot : rid.slotId < slotCount (ps.getD rid.pageId emptyPage) := by
    by_contra hge
    rw [lookup_eq_getD] at hlive
    exact hlive (recordAt_eq_none.mpr (Or.inl (not_lt.mp hge)))
  rw [lookup_eq_getD, lookup_eq_getD, getD_deletePages]
  by_cases hpage : rid'.pageId = rid.pageId
  · rw [if_pos ⟨hpage, hpage ▸ hlt⟩, hpage, deleted,
      recordAt_delete (wellFormed_getD hwf _) hslot]
    exact if_congr (by simp [rid_eq_iff, hpage]) rfl rfl
  · rw [if_neg fun h => hpage h.1, if_neg fun h => hpage (by rw [h])]

lemma getD_append_emptyPage (ps : List Page) (i : ℕ) :
    (ps ++ [emptyPage]).getD i emptyPage = ps.getD i emptyPage := by
  simp only [List.getD_eq_getElem?_getD, List.getElem?_append]
  split
  · rfl
  · next h =>
      rw [List.getElem?_eq_none (not_lt.mp h)]
      cases i - ps.length <;> rfl

lemma lookup_append_emptyPage (ps : List Page) (rid : RID) :
    lookup (ps ++ [emptyPage]) rid = lookup ps rid := by
  rw [lookup_eq_getD, lookup_eq_getD, getD_append_emptyPage]

end Records

/-- Only an insert into the pages returns `0`, and then its RID was not in use. -/
lemma lookupLen_of_insert {ps : List Page} {record : Option Area} {rid : Option RID} {rid' : RID}
    (h : (pageStep (.insert record rid) ps).1 = .insert 0 (some rid')) :
    lookupLen ps rid' = none := by
  obtain ⟨ret, ps', heq, hmove⟩ := exists_pageMove (.insert record rid) ps
  rw [heq] at h
  cases hmove with
  | refuse => simp at h
  | leak => simp at h
  | @insert r =>
    simp only [HeapRet.insert.injEq, true_and, Option.some.injEq] at h
    exact h ▸ lookupLen_insertRid ps r

lemma pageStep_delete_iff {ps : List Page} {rid : RID} :
    (pageStep (.delete rid) ps).1 = .delete 0 ↔ lookup ps rid ≠ none := by
  simp only [pageStep]
  split
  · next hno => simp [hno]
  · next hlive => simp [hlive]

/-- A call never removes a page, and adds at most one. -/
lemma length_pageStep (c : HeapCall) (ps : List Page) :
    ps.length ≤ (pageStep c ps).2.length ∧ (pageStep c ps).2.length ≤ ps.length + 1 := by
  obtain ⟨ret, ps', heq, hmove⟩ := exists_pageMove c ps
  rw [heq]
  cases hmove with
  | leak => simp
  | @insert r =>
    have hpage := pageFor_le ps r
    rw [insertPages, length_update hpage]
    omega
  | delete => simp [deletePages]
  | _ => exact ⟨le_rfl, Nat.le_succ _⟩

section WellFormed

variable {ps : List Page}

lemma wellFormed_append (hwf : ∀ p ∈ ps, WellFormed p) {q : Page} (hq : WellFormed q) :
    ∀ p ∈ ps ++ [q], WellFormed p := by
  intro p hp
  rcases List.mem_append.mp hp with hp | hp
  · exact hwf p hp
  · rwa [List.mem_singleton.mp hp]

lemma wellFormed_insertPages (hwf : ∀ p ∈ ps, WellFormed p) (r : Area) :
    ∀ p ∈ insertPages ps r, WellFormed p := by
  have hq := wellFormed_inserted (wellFormed_getD hwf (pageFor ps r)) r
  simp only [insertPages, update]
  split
  · exact fun p hp => (List.mem_or_eq_of_mem_set hp).elim (hwf p) fun h => h ▸ hq
  · exact wellFormed_append hwf hq

lemma wellFormed_deletePages (hwf : ∀ p ∈ ps, WellFormed p) {rid : RID}
    (hlive : lookup ps rid ≠ none) : ∀ p ∈ deletePages ps rid, WellFormed p := by
  intro p hp
  rw [ne_eq, lookup_eq_getD, recordAt_eq_none] at hlive
  obtain ⟨i, hi, rfl⟩ := List.getElem_of_mem hp
  have hget := getD_deletePages ps rid i
  rw [List.getD_eq_getElem _ _ hi] at hget
  rw [hget]
  split
  · next h =>
      obtain ⟨rfl, -⟩ := h
      exact wellFormed_delete (wellFormed_getD hwf _) (by omega)
  · exact wellFormed_getD hwf i

/-- Every call keeps the pages well formed. -/
lemma wellFormed_pageStep (hwf : ∀ p ∈ ps, WellFormed p) (c : HeapCall) :
    ∀ p ∈ (pageStep c ps).2, WellFormed p := by
  obtain ⟨ret, ps', heq, hmove⟩ := exists_pageMove c ps
  rw [heq]
  cases hmove with
  | leak => exact wellFormed_append hwf wellFormed_emptyPage
  | insert => exact wellFormed_insertPages hwf _
  | delete hlive => exact wellFormed_deletePages hwf hlive
  | _ => exact hwf

end WellFormed

end MiniDb

end CsLab
