/-
The table of the poll server and its open descriptors.

While the server runs, its table tracks the descriptors it accepted and has not closed
(`Live`), whatever the kernel answers.  Whether each `close` also hits a descriptor that
is open depends on one branch only: a turn of the loop closes the descriptor of its slot
`closeCount` times, which can be twice.
-/
import CsLab.Lib.Log
import CsLab.Network.PollServer

namespace CsLab

namespace Network

lemma mem_clientSlots {i : Slot} : i ∈ clientSlots ↔ i ≠ 0 := by
  simp only [clientSlots, List.mem_map, List.mem_finRange, true_and]
  exact Fin.exists_succ_eq

lemma nodup_clientSlots : clientSlots.Nodup :=
  (List.nodup_finRange maxClients).map (Fin.succ_injective _)

namespace PollServer

open Ledger

variable {s s' : State} {e : Event}

namespace State

/-- The descriptor in a client slot. -/
def table (s : State) (i : Slot) : Option ℤ :=
  if i.val = 0 ∨ (s.fds i).fd = -1 then none else some (s.fds i).fd

lemma table_eq_none {i : Slot} : s.table i = none ↔ i = 0 ∨ (s.fds i).fd = -1 := by
  simp only [table, Fin.val_eq_zero_iff, ite_eq_left_iff, reduceCtorEq, imp_false, not_not]

lemma table_eq_some {i : Slot} {fd : ℤ} :
    s.table i = some fd ↔ i ≠ 0 ∧ fd ≠ -1 ∧ (s.fds i).fd = fd := by
  simp only [table, Fin.val_eq_zero_iff]
  split
  · next h =>
    simp only [reduceCtorEq, false_iff, not_and]
    rintro hi hfd rfl
    exact h.elim hi hfd
  · next h =>
    push Not at h
    constructor
    · rintro ⟨⟩
      exact ⟨h.1, h.2, rfl⟩
    · rintro ⟨-, -, rfl⟩
      rfl

lemma table_setFd (s : State) (i : Slot) (e : Pollfd) :
    (s.setFd i e).table =
      Function.update s.table i (if i = 0 ∨ e.fd = -1 then none else some e.fd) := by
  ext1 j
  by_cases hji : j = i
  · subst hji
    simp [table, setFd]
  · simp [table, setFd, hji]

lemma table_congr (h : ∀ i, (s'.fds i).fd = (s.fds i).fd) : s'.table = s.table := by
  ext1 i
  simp only [table, h]

/-! ### What the calls leave alone -/

@[simp] lemma call_fds (s : State) (c : Call) : (s.call c).fds = s.fds := (rfl)

@[simp] lemma call_serverFd (s : State) (c : Call) : (s.call c).serverFd = s.serverFd := (rfl)

@[simp] lemma call_table (s : State) (c : Call) : (s.call c).table = s.table := (rfl)

lemma ops_call (s : State) (c : Call) : (s.call c).ops = s.ops ++ c.op.toList :=
  Log.filterMap_append_singleton ..

@[simp] lemma setFd_ops (s : State) (i : Slot) (e : Pollfd) : (s.setFd i e).ops = s.ops := (rfl)

@[simp] lemma setFd_serverFd (s : State) (i : Slot) (e : Pollfd) :
    (s.setFd i e).serverFd = s.serverFd := (rfl)

@[simp] lemma setFd_fds (s : State) (i : Slot) (e : Pollfd) :
    (s.setFd i e).fds = Function.update s.fds i e := (rfl)

lemma poll_table (s : State) (revents : Slot → BitVec 16) : (s.poll revents).table = s.table :=
  table_congr fun _ => rfl

/-! ### The descriptors behind a log -/

lemma accepted_of_ops {ops : List (Op ℤ)} (h : s'.ops = s.ops ++ ops) :
    s'.accepted = held s.accepted ops := by
  rw [accepted, h, held_append]
  rfl

lemma openFds_of_ops {ops : List (Op ℤ)} (hfd : s'.serverFd = s.serverFd)
    (h : s'.ops = s.ops ++ ops) : s'.openFds = held s.openFds ops := by
  rw [openFds, h, hfd, held_append]
  rfl

/-- An open descriptor is that of the listening socket, or an accepted one. -/
lemma mem_openFds {fd : ℤ} (hfd : fd ≠ s.serverFd) : fd ∈ s.openFds ↔ fd ∈ s.accepted :=
  mem_held_congr (by simp [hfd])

end State

/-! ### The running server -/

/-- What holds of the running server between two steps. -/
structure Live (s : State) : Prop where
  tracks : Tracks s.table s.accepted
  not_accepted : .acquire s.serverFd ∉ s.ops
  server_open : s.serverFd ∈ s.openFds

namespace Live

lemma serverFd_not_mem (h : Live s) : s.serverFd ∉ s.accepted :=
  not_mem_held (by simp) h.not_accepted

lemma mem_openFds_iff (h : Live s) {fd : ℤ} :
    fd ∈ s.openFds ↔ fd = s.serverFd ∨ fd ∈ s.accepted := by
  by_cases hfd : fd = s.serverFd
  · subst hfd
    simp [h.server_open]
  · rw [State.mem_openFds hfd]
    simp [hfd]

/-- The descriptor of an occupied slot is open, and not that of the listening socket. -/
lemma open_of_table (h : Live s) {i : Slot} {fd : ℤ} (hi : s.table i = some fd) :
    fd ∈ s.openFds ∧ fd ≠ s.serverFd := by
  have hin : fd ∈ s.accepted := (h.tracks.mem_iff fd).mpr ⟨i, hi⟩
  refine ⟨h.mem_openFds_iff.mpr (.inr hin), ?_⟩
  rintro rfl
  exact h.serverFd_not_mem hin

/-- A step that changes neither the table nor the open descriptors. -/
lemma same (h : Live s) (hfd : s'.serverFd = s.serverFd) (htable : s'.table = s.table)
    (hops : s'.ops = s.ops) : Live s' := by
  obtain ⟨htracks, hnot, hopen⟩ := h
  refine ⟨?_, ?_, ?_⟩
  · rwa [State.accepted, hops, htable]
  · rwa [hfd, hops]
  · rwa [State.openFds, hops, hfd]

lemma poll (h : Live s) (revents : Slot → BitVec 16) : Live (s.poll revents) :=
  h.same rfl (s.poll_table revents) rfl

/-- A new descriptor is open, and goes to a free slot. -/
lemma take (h : Live s) {i : Slot} {fd : ℤ} (hfree : s.table i = none) (hnew : fd ∉ s.openFds)
    (hfd : s'.serverFd = s.serverFd) (htable : s'.table = Function.update s.table i (some fd))
    (hops : s'.ops = s.ops ++ [.acquire fd]) : Live s' := by
  rw [h.mem_openFds_iff, not_or] at hnew
  refine ⟨?_, ?_, ?_⟩
  · rw [htable, State.accepted_of_ops hops]
    exact h.tracks.put hfree hnew.2
  · simpa [hfd, hops, Ne.symm hnew.1] using h.not_accepted
  · rw [State.openFds_of_ops hfd hops, hfd]
    exact Finset.mem_insert_of_mem h.server_open

/-- A new descriptor for which there is no slot is closed again. -/
lemma refuse (h : Live s) {fd : ℤ} (hnew : fd ∉ s.openFds) (hfd : s'.serverFd = s.serverFd)
    (htable : s'.table = s.table) (hops : s'.ops = s.ops ++ [.acquire fd, .release fd]) :
    Live s' := by
  rw [h.mem_openFds_iff, not_or] at hnew
  refine ⟨?_, ?_, ?_⟩
  · have hsame : s'.accepted = s.accepted := by
      rw [State.accepted_of_ops hops]
      exact Finset.erase_insert hnew.2
    rw [htable, hsame]
    exact h.tracks
  · simpa [hfd, hops, Ne.symm hnew.1] using h.not_accepted
  · rw [State.openFds_of_ops hfd hops, hfd]
    simp [Ne.symm hnew.1, h.server_open]

/-- The descriptor of a slot is closed, however often, and the slot is free. -/
lemma drop (h : Live s) {i : Slot} {fd : ℤ} (hi : s.table i = some fd) (k : ℕ)
    (hfd : s'.serverFd = s.serverFd) (htable : s'.table = Function.update s.table i none)
    (hops : s'.ops = s.ops ++ List.replicate (k + 1) (.release fd)) : Live s' := by
  obtain ⟨-, hne⟩ := h.open_of_table hi
  refine ⟨?_, ?_, ?_⟩
  · rw [htable, State.accepted_of_ops hops, held_replicate_release]
    exact h.tracks.clear hi
  · simpa [hfd, hops] using h.not_accepted
  · rw [State.openFds_of_ops hfd hops, hfd, held_replicate_release]
    exact Finset.mem_erase.mpr ⟨hne.symm, h.server_open⟩

end Live

/-! ### A new client -/

namespace State

/-- The slot that a new client gets, if there is one. -/
lemma find_free (s : State) :
    match clientSlots.find? fun i => (s.fds i).fd = -1 with
    | some i => i ≠ 0 ∧ s.table i = none
    | none => True := by
  split
  · next i hi =>
    have hmem := mem_clientSlots.mp (List.mem_of_find?_eq_some hi)
    have hfree := List.find?_some hi
    exact ⟨hmem, table_eq_none.mpr (.inr (of_decide_eq_true hfree))⟩
  · trivial

/-- What `accept` with a new descriptor leads to. -/
lemma newClient_cases (s : State) (fd : ℤ) (hfd : fd ≠ -1) :
    (∃ i, s.table i = none ∧ (s.newClient fd).table = Function.update s.table i (some fd) ∧
      (s.newClient fd).ops = s.ops ++ [.acquire fd]) ∨
    ((s.newClient fd).table = s.table ∧
      (s.newClient fd).ops = s.ops ++ [.acquire fd, .release fd]) := by
  have hfree := s.find_free
  simp only [newClient, call_fds]
  split
  · next i hi =>
    rw [hi] at hfree
    refine .inl ⟨i, hfree.2, ?_, ?_⟩
    · rw [table_setFd]
      simp [hfree.1, hfd]
    · simp [ops_call, Call.op]
  · exact .inr ⟨rfl, by simp [ops_call, Call.op]⟩

lemma newClient_serverFd (s : State) (fd : ℤ) : (s.newClient fd).serverFd = s.serverFd := by
  unfold newClient
  dsimp only
  split <;> rfl

lemma newClient_point (s : State) (fd : ℤ) : (s.newClient fd).point = s.point := by
  unfold newClient
  dsimp only
  split <;> rfl

end State

lemma Live.newClient (h : Live s) {fd : ℤ} (hfd : 0 ≤ fd) (hnew : fd ∉ s.openFds) :
    Live (s.newClient fd) := by
  rcases s.newClient_cases fd (by omega) with ⟨i, hfree, htable, hops⟩ | ⟨htable, hops⟩
  · exact h.take hfree hnew (s.newClient_serverFd fd) htable hops
  · exact h.refuse hnew (s.newClient_serverFd fd) htable hops

lemma balanced_newClient {fd : ℤ} (hfd : 0 ≤ fd) (hnew : fd ∉ s.openFds) :
    Balanced {s.serverFd} (s.newClient fd).ops ↔ Balanced {s.serverFd} s.ops := by
  rcases s.newClient_cases fd (by omega) with ⟨-, -, -, hops⟩ | ⟨-, hops⟩
  · rw [hops, balanced_append, balanced_singleton]
    exact and_iff_left hnew
  · rw [hops, balanced_append, balanced_cons, balanced_singleton]
    exact and_iff_left ⟨hnew, by simp [Fits]⟩

/-! ### A turn of the loop over the clients -/

/-- How often a turn closes the descriptor of its slot. -/
def closeCount (e : Pollfd) (answer : Recv) : ℕ :=
  (if e.Readable ∧ answer.Ends then 1 else 0) + (if e.Broken then 1 else 0)

namespace State

lemma ops_dropClient (s : State) (i : Slot) (fd : ℤ) :
    (s.dropClient i fd).ops = s.ops ++ [.release fd] := by
  simp [dropClient, ops_call, Call.op]

lemma table_dropClient (s : State) (i : Slot) (fd : ℤ) :
    (s.dropClient i fd).table = Function.update s.table i none := by
  rw [dropClient, table_setFd, if_pos (.inr rfl)]
  rfl

/-- The branch for `POLLIN` drops the client if the answer ends the connection, and
leaves the table and the descriptors alone otherwise. -/
lemma readClient_cases (s : State) (i : Slot) (fd : ℤ) (answer : Recv) :
    (answer.Ends ∧ s.readClient i fd answer = (s.call (.recv fd)).dropClient i fd) ∨
    (¬ answer.Ends ∧ ∃ c : Call, c.op = none ∧
      (s.readClient i fd answer = s.call (.recv fd) ∨
        s.readClient i fd answer = (s.call (.recv fd)).call c)) := by
  cases answer with
  | data chunk => exact .inr ⟨not_false, .send fd response, rfl, .inr rfl⟩
  | eof => exact .inl ⟨trivial, rfl⟩
  | failed errno =>
    by_cases herr : errno ≠ eagain ∧ errno ≠ ewouldblock
    · exact .inl ⟨herr, if_pos herr⟩
    · exact .inr ⟨herr, .recv fd, rfl, .inl (if_neg herr)⟩

lemma readClient_serverFd (s : State) (i : Slot) (fd : ℤ) (answer : Recv) :
    (s.readClient i fd answer).serverFd = s.serverFd := by
  rcases s.readClient_cases i fd answer with ⟨-, heq⟩ | ⟨-, c, -, heq | heq⟩ <;> rw [heq] <;> rfl

lemma table_readClient (s : State) (i : Slot) (fd : ℤ) (answer : Recv) :
    (s.readClient i fd answer).table =
      if answer.Ends then Function.update s.table i none else s.table := by
  rcases s.readClient_cases i fd answer with ⟨hends, heq⟩ | ⟨hends, c, -, heq | heq⟩
  · rw [heq, if_pos hends, table_dropClient, call_table]
  · rw [heq, if_neg hends, call_table]
  · rw [heq, if_neg hends, call_table, call_table]

lemma ops_readClient (s : State) (i : Slot) (fd : ℤ) (answer : Recv) :
    (s.readClient i fd answer).ops =
      s.ops ++ if answer.Ends then [.release fd] else [] := by
  rcases s.readClient_cases i fd answer with ⟨hends, heq⟩ | ⟨hends, c, hc, heq | heq⟩
  · simp [heq, hends, ops_dropClient, ops_call, Call.op]
  · simp [heq, hends, ops_call, Call.op]
  · rw [heq, if_neg hends, ops_call, ops_call, hc]
    simp [Call.op]

/-- Dropping a client does not touch its `revents`. -/
lemma broken_readClient (s : State) (i : Slot) (fd : ℤ) (answer : Recv) :
    ((s.readClient i fd answer).fds i).Broken ↔ (s.fds i).Broken := by
  rcases s.readClient_cases i fd answer with ⟨-, heq⟩ | ⟨-, c, -, heq | heq⟩
  · simp [heq, dropClient, Pollfd.Broken]
  · rw [heq, call_fds]
  · rw [heq, call_fds, call_fds]

/-- A turn for a free slot does nothing. -/
lemma scanSlot_free {i : Slot} (hi : (s.fds i).fd = -1) (answer : Recv) :
    s.scanSlot i answer = s := if_pos hi

/-- A turn for an occupied slot closes its descriptor `closeCount` times, and the slot is
free if that is not zero. -/
lemma scanSlot_eq {i : Slot} {fd : ℤ} (hi : s.table i = some fd) (answer : Recv) :
    (s.scanSlot i answer).table =
      (if closeCount (s.fds i) answer = 0 then s.table else Function.update s.table i none) ∧
    (s.scanSlot i answer).ops =
      s.ops ++ List.replicate (closeCount (s.fds i) answer) (.release fd) := by
  obtain ⟨-, hfd, rfl⟩ := table_eq_some.mp hi
  -- the state between the two tests of the turn
  obtain ⟨t, ht⟩ : ∃ t : State, t =
      if (s.fds i).Readable then s.readClient i (s.fds i).fd answer else s := ⟨_, rfl⟩
  have htable : t.table =
      if (s.fds i).Readable ∧ answer.Ends then Function.update s.table i none else s.table := by
    rw [ht]
    split
    · next hread => simp only [table_readClient, hread, true_and]
    · next hread => simp only [hread, false_and, if_false]
  have hops : t.ops = s.ops ++
      if (s.fds i).Readable ∧ answer.Ends then [.release (s.fds i).fd] else [] := by
    rw [ht]
    split
    · next hread => simp only [ops_readClient, hread, true_and]
    · next hread => simp only [hread, false_and, if_false, List.append_nil]
  have hbroken : (t.fds i).Broken ↔ (s.fds i).Broken := by
    rw [ht]
    split
    · exact s.broken_readClient ..
    · rfl
  have hscan : s.scanSlot i answer =
      if (t.fds i).Broken then t.dropClient i (s.fds i).fd else t := by
    rw [ht]
    exact if_neg hfd
  rw [hscan, closeCount]
  by_cases hbr : (s.fds i).Broken
  · rw [if_pos (hbroken.mpr hbr), if_pos hbr, table_dropClient, ops_dropClient, htable, hops]
    constructor
    · split <;> simp
    · split <;> simp [List.replicate_succ]
  · rw [if_neg (mt hbroken.mp hbr), if_neg hbr, htable, hops]
    constructor
    · split <;> simp
    · split <;> simp

lemma scanSlot_serverFd (s : State) (i : Slot) (answer : Recv) :
    (s.scanSlot i answer).serverFd = s.serverFd := by
  unfold scanSlot
  dsimp only
  split_ifs <;> simp [dropClient, readClient_serverFd]

end State

lemma Live.scanSlot (h : Live s) {i : Slot} (hi0 : i ≠ 0) (answer : Recv) :
    Live (s.scanSlot i answer) := by
  by_cases hfd : (s.fds i).fd = -1
  · rwa [State.scanSlot_free hfd]
  · have hi := State.table_eq_some.mpr ⟨hi0, hfd, rfl⟩
    obtain ⟨htable, hops⟩ := State.scanSlot_eq hi answer
    have hserver := s.scanSlot_serverFd i answer
    cases hcount : closeCount (s.fds i) answer with
    | zero =>
      rw [hcount] at htable hops
      exact h.same hserver htable (by simpa using hops)
    | succ k =>
      rw [hcount] at htable hops
      exact h.drop hi k hserver htable hops

/-- The only turns that close a descriptor twice are those with `POLLIN` and an error flag
on an occupied slot, for which `recv` ends the connection. -/
lemma balanced_scanSlot (h : Live s) {i : Slot} (hi0 : i ≠ 0) (answer : Recv) :
    Balanced {s.serverFd} (s.scanSlot i answer).ops ↔
      Balanced {s.serverFd} s.ops ∧
        ¬ ((s.fds i).fd ≠ -1 ∧ (s.fds i).Readable ∧ (s.fds i).Broken ∧ answer.Ends) := by
  by_cases hfd : (s.fds i).fd = -1
  · rw [State.scanSlot_free hfd]
    simp [hfd]
  · have hi := State.table_eq_some.mpr ⟨hi0, hfd, rfl⟩
    rw [(State.scanSlot_eq hi answer).2, balanced_append]
    refine and_congr_right' ?_
    have hopen : (s.fds i).fd ∈ held {s.serverFd} s.ops := (h.open_of_table hi).1
    rw [balanced_replicate_release hopen, closeCount]
    by_cases hread : (s.fds i).Readable <;> by_cases hbr : (s.fds i).Broken <;>
      by_cases hends : answer.Ends <;> simp [hfd, hread, hbr, hends]

/-! ### The end of `main` -/

namespace State

/-- The descriptors that `main` closes behind its loop. -/
def openList (s : State) : List ℤ :=
  (clientSlots.map fun i => (s.fds i).fd).filter (· ≠ -1) ++ [s.serverFd]

lemma ops_shutdown (s : State) : s.shutdown.ops = s.ops ++ s.openList.map .release := by
  have hclose : ∀ fds : List ℤ, (fds.map Call.close).filterMap Call.op = fds.map .release := by
    intro fds
    rw [List.filterMap_map]
    exact congrFun List.filterMap_eq_map' fds
  simp only [ops, shutdown, openList, List.filterMap_append, hclose, List.map_append,
    List.append_assoc]
  rfl

end State

lemma Live.mem_openList (h : Live s) {fd : ℤ} : fd ∈ s.openList ↔ fd ∈ s.openFds := by
  rw [h.mem_openFds_iff, h.tracks.mem_iff]
  simp only [State.openList, List.mem_append, List.mem_filter, List.mem_map, mem_clientSlots,
    List.mem_singleton, State.table_eq_some, decide_eq_true_eq]
  constructor
  · rintro (⟨⟨i, hi, rfl⟩, hfd⟩ | hfd)
    · exact .inr ⟨i, hi, hfd, rfl⟩
    · exact .inl hfd
  · rintro (hfd | ⟨i, hi, hfd, rfl⟩)
    · exact .inr hfd
    · exact .inl ⟨⟨i, hi, rfl⟩, hfd⟩

lemma Live.nodup_openList (h : Live s) : s.openList.Nodup := by
  rw [State.openList, List.nodup_append]
  refine ⟨?_, List.nodup_singleton _, ?_⟩
  · rw [List.filter_map]
    refine (nodup_clientSlots.filter _).map_on ?_
    intro i hi j hj heq
    simp only [List.mem_filter, mem_clientSlots, Function.comp_apply, decide_eq_true_eq] at hi hj
    exact h.tracks.inj i j _ (State.table_eq_some.mpr ⟨hi.1, hi.2, rfl⟩)
      (State.table_eq_some.mpr ⟨hj.1, heq ▸ hi.2, heq.symm⟩)
  · rintro fd hfd fd' hfd' rfl
    simp only [List.mem_filter, List.mem_map, mem_clientSlots, decide_eq_true_eq] at hfd
    obtain ⟨⟨i, hi, hslot⟩, hfd⟩ := hfd
    exact (h.open_of_table (State.table_eq_some.mpr ⟨hi, hfd, hslot⟩)).2
      (List.mem_singleton.mp hfd')

lemma Live.openFds_shutdown (h : Live s) : s.shutdown.openFds = ∅ := by
  ext1 fd
  have hops : s.shutdown.openFds = held s.openFds (s.openList.map .release) :=
    State.openFds_of_ops rfl s.ops_shutdown
  rw [hops, mem_held_release_all, h.mem_openList]
  simp

lemma Live.balanced_shutdown (h : Live s) :
    Balanced {s.serverFd} s.shutdown.ops ↔ Balanced {s.serverFd} s.ops := by
  rw [s.ops_shutdown, balanced_append]
  exact and_iff_left (balanced_release_all h.nodup_openList fun fd => h.mem_openList.mp)

end PollServer

end Network

end CsLab
