/-
Runs of the non-blocking server.

`Serves` says which connection is in which slot: every open connection is in one, and every
descriptor in the table is that of an open connection.  Every step keeps it, whatever the kernel
answers, so a connection is closed once (`closed_once`), and what the server sends on a
connection is what it has read from it (`echo_iff`).
-/
import CsLab.Network.NonblockingServer

namespace CsLab

namespace Network

namespace NonblockingServer

open Ledger

/-- The descriptor of a slot, `-1` if it is free. -/
def slotFd (held : Option (ℤ × ℕ)) : ℤ := (held.map Prod.fst).getD (-1)

/-- The slots have the descriptors and connections `hand`. -/
structure Serves (s : State) (hand : Slot → Option (ℤ × ℕ)) : Prop where
  owned : Owned s.conn hand
  custody : Custody (fun i => (hand i).map Prod.snd) s.accepts s.ops
  fd_eq : ∀ i, i ≠ 0 → (s.fds i).fd = slotFd (hand i)
  zero : hand 0 = none
  valid : ∀ fd c, s.conn fd = some c → 0 ≤ fd ∧ fd ≠ s.serverFd
  misses : ∀ fd, .close fd none ∈ s.log → fd = -1 ∨ (s.point = .done ∧ fd = s.serverFd)

variable {s s' : State} {e : Event} {es : List Event} {hand : Slot → Option (ℤ × ℕ)}
variable {i : Slot} {fd : ℤ} {c : ℕ}

namespace State

lemma ops_opened (s : State) (fd : ℤ) : (s.opened fd).ops = s.ops ++ [.acquire s.accepts] :=
  Log.filterMap_append_singleton ..

lemma ops_close (s : State) (fd : ℤ) :
    (s.close fd).ops = s.ops ++ ((s.conn fd).map Op.release).toList :=
  Log.filterMap_append_singleton ..

@[simp] lemma setFd_conn (s : State) (i : Slot) (e : Pollfd) : (s.setFd i e).conn = s.conn := (rfl)

@[simp] lemma opened_conn (s : State) (fd : ℤ) :
    (s.opened fd).conn = Function.update s.conn fd (some s.accepts) := (rfl)

@[simp] lemma dropClient_conn (s : State) (i : Slot) :
    (s.dropClient i).conn = Function.update s.conn (s.fds i).fd none := (rfl)

lemma newClient_eq (s : State) (fd : ℤ) :
    s.newClient fd = match clientSlots.find? fun i => (s.fds i).fd = -1 with
      | some i => (s.opened fd).setFd i { s.fds i with fd := fd, events := pollIn }
      | none => (s.opened fd).close fd := (rfl)

lemma map_update {β γ : Type} (f : β → γ) (hand : Slot → Option β) (i : Slot) (b : Option β) :
    (fun j => (Function.update hand i b j).map f) =
      Function.update (fun j => (hand j).map f) i (b.map f) := by
  ext1 j
  by_cases hji : j = i
  · subst hji
    simp
  · simp [hji]

lemma fd_update (s : State) (i j : Slot) (e : Pollfd) :
    ((s.setFd i e).fds j).fd = if j = i then e.fd else (s.fds j).fd := by
  by_cases hji : j = i
  · subst hji
    simp [setFd]
  · simp [setFd, hji]

@[simp] lemma receive_conn (s : State) (fd : ℤ) (data : List UInt8) :
    (s.receive fd data).conn = s.conn := by
  unfold receive
  split <;> rfl

@[simp] lemma receive_sent (s : State) (fd : ℤ) (data : List UInt8) :
    (s.receive fd data).sent = s.sent := by
  unfold receive
  split <;> rfl

@[simp] lemma take_received (s : State) (fd : ℤ) (data : List UInt8) :
    (s.take fd data).received = s.received := by
  unfold take
  split <;> rfl

lemma received_receive (s : State) (fd : ℤ) (data : List UInt8) :
    (s.receive fd data).received c = s.received c ++ if s.conn fd = some c then data else [] := by
  unfold receive
  split
  · next c' hc =>
    by_cases heq : c = c'
    · subst heq
      simp [hc]
    · simp [hc, heq, Ne.symm heq]
  · next hc => simp [hc]

lemma sent_take (s : State) (fd : ℤ) (data : List UInt8) :
    (s.take fd data).sent c = s.sent c ++ if s.conn fd = some c then data else [] := by
  unfold take
  split
  · next c' hc =>
    by_cases heq : c = c'
    · subst heq
      simp [hc]
    · simp [hc, heq, Ne.symm heq]
  · next hc => simp [hc]

/-- The streams do not matter for the table. -/
structure Same (s s' : State) : Prop where
  fds : ∀ i, (s'.fds i).fd = (s.fds i).fd
  conn : s'.conn = s.conn
  accepts : s'.accepts = s.accepts
  log : s'.log = s.log
  serverFd : s'.serverFd = s.serverFd

lemma same_echo (s : State) (fd : ℤ) (data data' : List UInt8) :
    Same s ((s.receive fd data).take fd data') := by
  unfold take receive
  split <;> split <;> exact ⟨fun _ => rfl, rfl, rfl, rfl, rfl⟩

end State

namespace Serves

lemma slot_ne (h : Serves s hand) (hi : hand i = some (fd, c)) : i ≠ 0 := by
  rintro rfl
  rw [h.zero] at hi
  cases hi

lemma fd_ne (h : Serves s hand) (hi : hand i = some (fd, c)) : fd ≠ -1 := by
  have hvalid := h.valid fd c (h.owned.agree i fd c hi)
  omega

/-- A slot is free in the table if it is. -/
lemma fd_eq_neg_iff (h : Serves s hand) (hi : i ≠ 0) : (s.fds i).fd = -1 ↔ hand i = none := by
  rw [h.fd_eq i hi]
  cases hhand : hand i with
  | none => exact iff_of_true rfl rfl
  | some entry => exact iff_of_false (h.fd_ne hhand) (by simp)

lemma conn_neg (h : Serves s hand) : s.conn (-1) = none := by
  by_contra hne
  obtain ⟨c, hc⟩ := Option.ne_none_iff_exists'.mp hne
  have hvalid := h.valid (-1) c hc
  omega

/-- A step that leaves the table and the connections alone. -/
lemma same (h : Serves s hand) (hs : State.Same s s') (hpoint : s.point ≠ .done) :
    Serves s' hand := by
  refine ⟨?_, ?_, fun i hi => (hs.fds i).trans (h.fd_eq i hi), h.zero, ?_, ?_⟩
  · rw [hs.conn]
    exact h.owned
  · rw [hs.accepts, State.ops, hs.log]
    exact h.custody
  · rw [hs.conn, hs.serverFd]
    exact h.valid
  · rw [hs.log]
    exact fun fd hfd => .inl ((h.misses fd hfd).resolve_right fun hdone => hpoint hdone.1)

/-- A new connection is in a free slot, or closed again. -/
lemma newClient (h : Serves s hand) (hfd : s.Unused fd) (hpoint : s.point ≠ .done) :
    ∃ hand', Serves { s.newClient fd with point := .scanning 1 } hand' := by
  obtain ⟨hpos, hserver, hnew⟩ := hfd
  have hmisses : ∀ fd', .close fd' none ∈ s.log → fd' = -1 := fun fd' hmem =>
    (h.misses fd' hmem).resolve_right fun hdone => hpoint hdone.1
  rw [s.newClient_eq]
  cases hfind : clientSlots.find? fun i => (s.fds i).fd = -1 with
  | some i =>
    have hi : i ≠ 0 := mem_clientSlots.mp (List.mem_of_find?_eq_some hfind)
    have hfree : hand i = none := by
      have hneg := List.find?_some hfind
      exact (h.fd_eq_neg_iff hi).mp (of_decide_eq_true hneg)
    refine ⟨Function.update hand i (some (fd, s.accepts)),
      h.owned.acquire hfree hnew s.accepts, ?_, fun j hj => ?_, ?_, fun fd' c hc => ?_, ?_⟩
    · rw [State.map_update]
      exact s.ops_opened fd ▸ h.custody.acquire (by rw [hfree]; rfl)
    · have hfds := (s.opened fd).fd_update i j { s.fds i with fd := fd, events := pollIn }
      by_cases hji : j = i
      · rw [hji, Function.update_self]
        rw [hji, if_pos rfl] at hfds
        exact hfds
      · rw [if_neg hji] at hfds
        rw [Function.update_of_ne hji]
        exact hfds.trans (h.fd_eq j hj)
    · rw [Function.update_of_ne hi.symm, h.zero]
    · by_cases heq : fd' = fd
      · rw [heq]
        exact ⟨hpos, hserver⟩
      · have hold : s.conn fd' = some c := by
          rwa [State.setFd_conn, State.opened_conn, Function.update_of_ne heq] at hc
        exact h.valid fd' c hold
    · intro fd' hmem
      rcases List.mem_append.mp hmem with hmem | hmem
      · exact .inl (hmisses fd' hmem)
      · simp at hmem
  | none =>
    have hconn : ((s.opened fd).close fd).conn = s.conn := by
      simp only [State.close, State.opened, Function.update_idem]
      rw [← hnew, Function.update_eq_self]
    have hops : ((s.opened fd).close fd).ops =
        s.ops ++ [.acquire s.accepts, .release s.accepts] := by
      rw [State.ops_close, State.ops_opened]
      simp [State.opened]
    refine ⟨hand, ?_, ?_, h.fd_eq, h.zero, ?_, fun fd' hmem => .inl (hmisses fd' ?_)⟩
    · exact hconn ▸ h.owned
    · exact hops ▸ h.custody.refuse
    · exact hconn ▸ h.valid
    · simpa [State.close, State.opened] using hmem

/-- The descriptor of a slot is closed and the slot is free; nothing is closed if it was. -/
lemma dropClient (h : Serves s hand) (hi : i ≠ 0) (hpoint : s.point ≠ .done) :
    Serves (s.dropClient i) (Function.update hand i none) := by
  have hfds : ∀ j, j ≠ 0 → ((s.dropClient i).fds j).fd =
      slotFd (Function.update hand i none j) := by
    intro j hj
    have hupdate := (s.close (s.fds i).fd).fd_update i j { s.fds i with fd := -1 }
    by_cases hji : j = i
    · rw [hji, Function.update_self]
      rw [hji, if_pos rfl] at hupdate
      exact hupdate
    · rw [if_neg hji] at hupdate
      rw [Function.update_of_ne hji]
      exact hupdate.trans (h.fd_eq j hj)
  have hmisses : ∀ fd', .close fd' none ∈ s.log → fd' = -1 := fun fd' hmem =>
    (h.misses fd' hmem).resolve_right fun hdone => hpoint hdone.1
  have hzero : Function.update hand i none 0 = none := by
    rw [Function.update_of_ne hi.symm, h.zero]
  have hops := s.ops_close (s.fds i).fd
  cases hhand : hand i with
  | none =>
    have hfd : (s.fds i).fd = -1 := (h.fd_eq_neg_iff hi).mpr hhand
    have hnone : s.conn (s.fds i).fd = none := hfd ▸ h.conn_neg
    have hsame : Function.update hand i none = hand := by rw [← hhand, Function.update_eq_self]
    have hconn : (s.dropClient i).conn = s.conn := by
      rw [State.dropClient_conn, ← hnone, Function.update_eq_self]
    rw [hnone, Option.map_none, Option.toList_none, List.append_nil] at hops
    rw [hsame] at hfds hzero ⊢
    refine ⟨hconn ▸ h.owned, hops ▸ h.custody, hfds, hzero, hconn ▸ h.valid, fun fd' hmem => ?_⟩
    rcases List.mem_append.mp hmem with hmem | hmem
    · exact .inl (hmisses fd' hmem)
    · have heq := List.mem_singleton.mp hmem
      simp only [Entry.close.injEq] at heq
      exact .inl (heq.1.trans hfd)
  | some entry =>
    obtain ⟨fd, c⟩ := entry
    have hfd : (s.fds i).fd = fd := by
      rw [h.fd_eq i hi, hhand]
      rfl
    have hc : s.conn (s.fds i).fd = some c := hfd ▸ h.owned.agree i fd c hhand
    rw [hc, Option.map_some, Option.toList_some] at hops
    refine ⟨?_, ?_, hfds, hzero, fun fd' c' hc' => ?_, fun fd' hmem => ?_⟩
    · have howned := h.owned.release hhand
      rwa [← hfd] at howned
    · rw [State.map_update]
      exact hops ▸ h.custody.release (i := i) (a := c) (by rw [hhand]; rfl)
    · by_cases heq : fd' = (s.fds i).fd
      · rw [State.dropClient_conn, heq, Function.update_self] at hc'
        cases hc'
      · rw [State.dropClient_conn, Function.update_of_ne heq] at hc'
        exact h.valid fd' c' hc'
    · rcases List.mem_append.mp hmem with hmem | hmem
      · exact .inl (hmisses fd' hmem)
      · rw [hc] at hmem
        simp at hmem

end Serves

lemma readClient_point (s : State) (i : Slot) (answer : Recv) (taken : Send) :
    (s.readClient i answer taken).point = s.point := by
  cases answer with
  | data chunk =>
    simp only [State.readClient, State.take, State.receive]
    split <;> split <;> rfl
  | eof => rfl
  | failed errno =>
    simp only [State.readClient]
    split <;> rfl

lemma scanSlot_point (s : State) (i : Slot) (answer : Recv) (taken : Send) :
    (s.scanSlot i answer taken).point = s.point := by
  unfold State.scanSlot
  dsimp only
  split_ifs <;> simp [State.dropClient, State.setFd, State.close, readClient_point]

namespace Serves

lemma readClient (h : Serves s hand) (hi : i ≠ 0) (hpoint : s.point ≠ .done) (answer : Recv)
    (taken : Send) : ∃ hand', Serves (s.readClient i answer taken) hand' := by
  cases answer with
  | data chunk => exact ⟨hand, h.same (s.same_echo ..) hpoint⟩
  | eof => exact ⟨_, h.dropClient hi hpoint⟩
  | failed errno =>
    simp only [State.readClient]
    split
    · exact ⟨_, h.dropClient hi hpoint⟩
    · exact ⟨hand, h⟩

/-- A turn of the loop over the clients. -/
lemma scanSlot (h : Serves s hand) (hi : i ≠ 0) (hpoint : s.point ≠ .done) (answer : Recv)
    (taken : Send) : ∃ hand', Serves (s.scanSlot i answer taken) hand' := by
  unfold State.scanSlot
  split
  · exact ⟨hand, h⟩
  obtain ⟨t, ht⟩ : ∃ t : State, t =
      if (s.fds i).Readable then s.readClient i answer taken else s := ⟨_, rfl⟩
  have hserves : t.point ≠ .done ∧ ∃ hand', Serves t hand' := by
    rw [ht]
    split
    · exact ⟨by rwa [readClient_point], h.readClient hi hpoint answer taken⟩
    · exact ⟨hpoint, hand, h⟩
  obtain ⟨hpoint', hand', h'⟩ := hserves
  simp only [← ht]
  split
  · exact ⟨_, h'.dropClient hi hpoint'⟩
  · exact ⟨hand', h'⟩

end Serves

/-! ### Runs -/

/-- What holds in every reachable state. -/
structure Inv (s : State) : Prop where
  serves : ∃ hand, Serves s hand
  scanning : ∀ i, s.point = .scanning i → i ≠ 0

namespace Inv

lemma next_eq_scanning {i j : Slot} (h : next i = .scanning j) : j ≠ 0 := by
  unfold next at h
  split at h
  · cases h
    rw [Ne, Fin.ext_iff]
    simp
  · cases h

lemma start (serverFd : ℕ) (stack : Slot → Pollfd) : Inv (start serverFd stack) := by
  refine ⟨⟨fun _ => none, .start, .start, fun i hi => ?_, rfl, ?_, ?_⟩, ?_⟩
  · simp [NonblockingServer.start, hi, slotFd]
  · simp [NonblockingServer.start]
  · simp [NonblockingServer.start]
  · simp [NonblockingServer.start]

lemma step (h : Inv s) (hstep : Step s e s') : Inv s' := by
  obtain ⟨hand, hserves⟩ := h.serves
  cases Move.of_step hstep with
  | polled revents p hs hp =>
    refine ⟨⟨hand, hserves.same ⟨fun _ => rfl, rfl, rfl, rfl, rfl⟩ (by simp [hs])⟩, ?_⟩
    rintro i hi
    rcases hp with rfl | rfl <;> cases hi
    decide
  | pollFailed hs =>
    refine ⟨⟨hand, ?_⟩, fun i hi => by cases hi⟩
    have hnone : s.conn s.serverFd = none := by
      by_contra hne
      obtain ⟨c, hc⟩ := Option.ne_none_iff_exists'.mp hne
      exact (hserves.valid _ c hc).2 rfl
    have hops := s.ops_close s.serverFd
    rw [hnone, Option.map_none, Option.toList_none, List.append_nil] at hops
    have hconn : s.shutdown.conn = s.conn := by
      simp only [State.shutdown, State.close]
      rw [← hnone, Function.update_eq_self]
    refine ⟨hconn ▸ hserves.owned, hops ▸ hserves.custody, hserves.fd_eq, hserves.zero,
      hconn ▸ hserves.valid, fun fd hmem => ?_⟩
    rcases List.mem_append.mp hmem with hmem | hmem
    · exact .inl ((hserves.misses fd hmem).resolve_right fun hdone => by simp [hs] at hdone)
    · have heq := List.mem_singleton.mp hmem
      simp only [Entry.close.injEq] at heq
      exact .inr ⟨rfl, heq.1⟩
  | accepted fd hs hfd =>
    refine ⟨hserves.newClient hfd (by simp [hs]), fun i hi => ?_⟩
    cases hi
    decide
  | acceptFailed hs =>
    refine ⟨⟨hand, hserves.same ⟨fun _ => rfl, rfl, rfl, rfl, rfl⟩ (by simp [hs])⟩, ?_⟩
    rintro i hi
    cases hi
    decide
  | turn i answer taken hs =>
    obtain ⟨hand', hserves'⟩ := hserves.scanSlot (h.scanning i hs) (by simp [hs]) answer taken
    refine ⟨⟨hand', hserves'.same ⟨fun _ => rfl, rfl, rfl, rfl, rfl⟩ ?_⟩,
      fun j => next_eq_scanning⟩
    rw [scanSlot_point, hs]
    simp

lemma run {serverFd : ℕ} {stack : Slot → Pollfd}
    (hrun : Run Step (NonblockingServer.start serverFd stack) es s) : Inv s :=
  hrun.invariant (fun _ _ _ h hstep => h.step hstep) (start serverFd stack)

end Inv

/-- **Every connection is closed once**: in every reachable state the client slots have the
descriptors of the open connections, each of them once; a connection was closed once if it is
no longer open, and otherwise not at all; and no other `close` has closed anything, but for that
of the listening socket at the end. -/
theorem closed_once {serverFd : ℕ} {stack : Slot → Pollfd}
    (hrun : Run Step (start serverFd stack) es s) :
    (∀ fd, s.conn fd ≠ none → ∃! i, i ≠ 0 ∧ (s.fds i).fd = fd) ∧
    (∀ i, i ≠ 0 → (s.fds i).fd ≠ -1 → s.conn (s.fds i).fd ≠ none) ∧
    (∀ c < s.accepts, ((∃ fd, s.conn fd = some c) ∧ s.ops.count (.release c) = 0) ∨
      (∀ fd, s.conn fd ≠ some c) ∧ s.ops.count (.release c) = 1) ∧
    ∀ fd, .close fd none ∈ s.log → fd = -1 ∨ (s.point = .done ∧ fd = s.serverFd) := by
  obtain ⟨hand, h⟩ := (Inv.run hrun).serves
  have hslot : ∀ i, i ≠ 0 → (s.fds i).fd ≠ -1 → ∃ c, hand i = some ((s.fds i).fd, c) := by
    intro i hi hne
    obtain ⟨⟨fd, c⟩, hhand⟩ :=
      Option.ne_none_iff_exists'.mp ((h.fd_eq_neg_iff hi).not.mp hne)
    refine ⟨c, ?_⟩
    rw [h.fd_eq i hi, hhand]
    rfl
  refine ⟨fun fd hfd => ?_, fun i hi hne => ?_, fun c hlt => ?_, h.misses⟩
  · obtain ⟨c, hc⟩ := Option.ne_none_iff_exists'.mp hfd
    obtain ⟨i, hi⟩ := h.owned.owner fd c hc
    have hfdi : (s.fds i).fd = fd := by
      rw [h.fd_eq i (h.slot_ne hi), hi]
      rfl
    refine ⟨i, ⟨h.slot_ne hi, hfdi⟩, fun j ⟨hj0, hj⟩ => ?_⟩
    obtain ⟨c', hj'⟩ := hslot j hj0 (hj ▸ h.fd_ne hi)
    rw [hj] at hj'
    exact h.owned.inj j i fd c' c hj' hi
  · obtain ⟨c, hhand⟩ := hslot i hi hne
    rw [h.owned.agree i _ c hhand]
    simp
  · have hheld := h.custody.tracks.mem_iff c
    rw [h.custody.numbered.count_release]
    by_cases hopen : ∃ fd, s.conn fd = some c
    · obtain ⟨fd, hfd⟩ := hopen
      obtain ⟨i, hi⟩ := h.owned.owner fd c hfd
      have hin : c ∈ held ∅ s.ops := hheld.mpr ⟨i, by rw [hi]; rfl⟩
      exact .inl ⟨⟨fd, hfd⟩, if_neg fun hout => hout.2 hin⟩
    · rw [not_exists] at hopen
      refine .inr ⟨hopen, if_pos ⟨hlt, fun hin => ?_⟩⟩
      obtain ⟨i, hi⟩ := hheld.mp hin
      obtain ⟨⟨fd, c'⟩, hhand, rfl⟩ := Option.map_eq_some_iff.mp hi
      exact hopen fd (h.owned.agree i fd c' hhand)

/-! ### The streams -/

/-- In this step the chunk is read on the connection, and `send` gives `taken`. -/
def Echoes (c : ℕ) (s : State) (e : Event) (chunk : Chunk) (taken : Send) : Prop :=
  e = .turn (.data chunk) taken ∧ ∃ i, s.point = .scanning i ∧ (s.fds i).fd ≠ -1 ∧
    (s.fds i).Readable ∧ s.conn (s.fds i).fd = some c

/-- If the step sends something on the connection, `send` takes all of it. -/
def FullSend (c : ℕ) (s : State) (e : Event) : Prop :=
  ∀ chunk taken, Echoes c s e chunk taken → taken.bytes chunk.bytes = chunk.bytes

/-- All sends on the connection are full. -/
abbrev FullSends (serverFd : ℕ) (stack : Slot → Pollfd) (c : ℕ) : List Event → Prop :=
  Run.Steps Step (start serverFd stack) (FullSend c)

/-- The server as a relay of one connection; nothing is pending between two turns. -/
def State.relay (s : State) (c : ℕ) : Relay UInt8 := ⟨s.received c, [], s.sent c⟩

/-- A turn as two moves of a relay. -/
def Relays (c : ℕ) (s : State) (e : Event) (s' : State) : Prop :=
  ∃ data taken, taken <+: data ∧
    s'.relay c = ((s.relay c).step (.read data)).step (.pass taken) ∧
    (FullSend c s e ↔ taken = data)

lemma Relays.quiet (hno : ∀ chunk taken, ¬ Echoes c s e chunk taken)
    (hreceived : s'.received c = s.received c) (hsent : s'.sent c = s.sent c) :
    Relays c s e s' := by
  refine ⟨[], [], List.nil_prefix, ?_, ?_⟩
  · simp [State.relay, Relay.step, hreceived, hsent]
  · exact iff_of_true (fun chunk taken h => absurd h (hno chunk taken)) rfl

namespace State

lemma streams_readClient (s : State) (i : Slot) (answer : Recv) (taken : Send)
    (h : ∀ chunk, answer = .data chunk → s.conn (s.fds i).fd ≠ some c) :
    (s.readClient i answer taken).received c = s.received c ∧
      (s.readClient i answer taken).sent c = s.sent c := by
  cases answer with
  | data chunk =>
    have hne := h chunk rfl
    have hreceived := s.received_receive (s.fds i).fd chunk.bytes (c := c)
    have hsent := (s.receive (s.fds i).fd chunk.bytes).sent_take (s.fds i).fd
      (taken.bytes chunk.bytes) (c := c)
    rw [receive_conn, if_neg hne, List.append_nil, receive_sent] at hsent
    rw [if_neg hne, List.append_nil] at hreceived
    exact ⟨(congrFun (take_received ..) c).trans hreceived, hsent⟩
  | eof => exact ⟨rfl, rfl⟩
  | failed errno =>
    simp only [readClient]
    split <;> exact ⟨rfl, rfl⟩

/-- The streams of a connection on which the turn does not send. -/
lemma streams_scanSlot (s : State) (i : Slot) (answer : Recv) (taken : Send)
    (h : ∀ chunk, answer = .data chunk → (s.fds i).fd ≠ -1 → (s.fds i).Readable →
      s.conn (s.fds i).fd ≠ some c) :
    (s.scanSlot i answer taken).received c = s.received c ∧
      (s.scanSlot i answer taken).sent c = s.sent c := by
  unfold scanSlot
  split
  · exact ⟨rfl, rfl⟩
  next hfd =>
  by_cases hread : (s.fds i).Readable
  · have hstreams := s.streams_readClient i answer taken fun chunk heq => h chunk heq hfd hread
    simp only [hread, if_true]
    split <;> exact hstreams
  · simp only [hread, if_false]
    split <;> exact ⟨rfl, rfl⟩

/-- The streams of the connection on which the turn sends. -/
lemma streams_scanSlot_data (s : State) (i : Slot) (chunk : Chunk) (taken : Send)
    (hfd : (s.fds i).fd ≠ -1) (hread : (s.fds i).Readable)
    (hc : s.conn (s.fds i).fd = some c) :
    (s.scanSlot i (.data chunk) taken).received c = s.received c ++ chunk.bytes ∧
      (s.scanSlot i (.data chunk) taken).sent c = s.sent c ++ taken.bytes chunk.bytes := by
  have hreceived := s.received_receive (s.fds i).fd chunk.bytes (c := c)
  have hsent := (s.receive (s.fds i).fd chunk.bytes).sent_take (s.fds i).fd
    (taken.bytes chunk.bytes) (c := c)
  rw [receive_conn, if_pos hc, receive_sent] at hsent
  rw [if_pos hc] at hreceived
  have hstreams : (s.readClient i (.data chunk) taken).received c = s.received c ++ chunk.bytes ∧
      (s.readClient i (.data chunk) taken).sent c = s.sent c ++ taken.bytes chunk.bytes :=
    ⟨(congrFun (take_received ..) c).trans hreceived, hsent⟩
  unfold scanSlot
  simp only [hfd, hread, if_false, if_true]
  split <;> exact hstreams

end State

/-- Every step of the server is two moves of the relay of every connection. -/
lemma step_relay (hstep : Step s e s') (c : ℕ) : Relays c s e s' := by
  cases Move.of_step hstep with
  | polled => exact .quiet (by simp [Echoes]) rfl rfl
  | pollFailed => exact .quiet (by simp [Echoes]) rfl rfl
  | accepted fd =>
    refine .quiet (by simp [Echoes]) ?_ ?_
    · rw [s.newClient_eq]
      split <;> rfl
    · rw [s.newClient_eq]
      split <;> rfl
  | acceptFailed => exact .quiet (by simp [Echoes]) rfl rfl
  | turn i answer taken hs =>
    by_cases hecho : ∃ chunk taken', Echoes c s (.turn answer taken) chunk taken'
    · obtain ⟨chunk, taken', heq, j, hj, hfd, hread, hc⟩ := hecho
      rw [hs] at hj
      cases hj
      cases heq
      obtain ⟨hreceived, hsent⟩ := s.streams_scanSlot_data i chunk taken hfd hread hc
      refine ⟨chunk.bytes, taken.bytes chunk.bytes, taken.bytes_prefix chunk.bytes, ?_, ?_⟩
      · ext1
        · exact hreceived
        · rfl
        · exact hsent
      · constructor
        · exact fun hfull => hfull chunk taken ⟨rfl, i, hs, hfd, hread, hc⟩
        · rintro hfull chunk' taken' ⟨heq, -⟩
          cases heq
          exact hfull
    · rw [not_exists] at hecho
      have hno : ∀ chunk taken', ¬ Echoes c s (.turn answer taken) chunk taken' :=
        fun chunk taken' h => hecho chunk ⟨taken', h⟩
      obtain ⟨hreceived, hsent⟩ := s.streams_scanSlot i answer taken (c := c) (by
        rintro chunk rfl hfd hread hc
        exact hno chunk taken ⟨rfl, i, hs, hfd, hread, hc⟩)
      exact .quiet hno hreceived hsent

/-- What the sends on a connection were decides whether its relay is intact. -/
def Accounted (serverFd : ℕ) (stack : Slot → Pollfd) (c : ℕ) (es : List Event) (s : State) :
    Prop :=
  (s.relay c).Ordered ∧ ((FullSends serverFd stack c es ∧ (s.relay c).Intact) ∨
    (¬ FullSends serverFd stack c es ∧ (s.relay c).Lossy))

lemma accounted_of_run {serverFd : ℕ} {stack : Slot → Pollfd}
    (hrun : Run Step (start serverFd stack) es s) (c : ℕ) : Accounted serverFd stack c es s := by
  have hordered : ((start serverFd stack).relay c).Ordered := List.Sublist.refl []
  have hintact : ((start serverFd stack).relay c).Intact := Eq.refl []
  refine hrun.history (I := Accounted serverFd stack c)
    ⟨hordered, .inl ⟨Run.steps_nil, hintact⟩⟩ ?_
  intro es s₁ e s₂ hrun₁ ⟨hordered, hacc⟩ hstep
  obtain ⟨data, taken, hpre, hrelay, hfull⟩ := step_relay hstep c
  have hread : (s₁.relay c).Allowed (.read data) := rfl
  have hpass : ((s₁.relay c).step (.read data)).Allowed (.pass taken) := hpre
  rw [Accounted, FullSends, Run.steps_append_singleton (stepOf_unique exec) hrun₁, hrelay, hfull]
  refine ⟨(hordered.step hread).step hpass, ?_⟩
  rcases hacc with ⟨hall, hintact⟩ | ⟨hnot, hlossy⟩
  · by_cases hm : taken = data
    · exact .inl ⟨⟨hall, hm⟩, (hintact.step hread trivial).step hpass hm⟩
    · exact .inr ⟨fun h => hm h.2, (hintact.step hread trivial).step_lossy hpass hm⟩
  · exact .inr ⟨fun h => hnot h.1, (hlossy.step hread).step hpass⟩

/-- **The echo is the stream with gaps**: what the server sends on a connection is some of what
it has read from it, in the same order, and nothing else; and it is all of it exactly if all
sends were full. -/
theorem echo_iff {serverFd : ℕ} {stack : Slot → Pollfd}
    (hrun : Run Step (start serverFd stack) es s) (c : ℕ) :
    (s.sent c).Sublist (s.received c) ∧
      (s.sent c = s.received c ↔ FullSends serverFd stack c es) := by
  obtain ⟨hordered, hacc⟩ := accounted_of_run hrun c
  rw [Relay.Ordered, State.relay, List.append_nil] at hordered
  refine ⟨hordered, ?_⟩
  rcases hacc with ⟨hall, hintact⟩ | ⟨hnot, hlossy⟩
  · rw [Relay.Intact, State.relay, List.append_nil] at hintact
    exact iff_of_true hintact.symm hall
  · refine iff_of_false (fun heq => ?_) hnot
    rw [Relay.Lossy, State.relay, heq, List.length_nil, Nat.add_zero] at hlossy
    exact Nat.lt_irrefl _ hlossy

/-- A client comes and sends `hi`, of which `send` takes one byte; then it hangs up, and `poll`
reports that with `POLLIN` and `POLLHUP`. -/
def shortEchoEvents : List Event :=
  [.polled fun i => if i.val = 0 then pollIn else 0, .accepted 4] ++
    List.replicate maxClients (.turn .eof (.taken 0)) ++
    [.polled fun i => if i.val = 1 then pollIn else 0,
      .turn (.data ⟨[104, 105], by decide, by decide⟩) (.taken 1)] ++
    List.replicate (maxClients - 1) (.turn .eof (.taken 0)) ++
    [.polled fun i => if i.val = 1 then pollIn ||| pollHup else 0, .turn .eof (.taken 0)]

/-- The second `close` of the last turn is `close(-1)`. -/
lemma exists_shortEcho_run : ∃ s, Run Step (start 3 fun _ => ⟨0, 0, 0⟩) shortEchoEvents s ∧
    (s.log, s.received 0, s.sent 0) =
      ([.accept 4 0, .close 4 (some 0), .close (-1) none], [104, 105], [104]) :=
  Run.exists_of_foldlM (f := fun s : State => (s.log, s.received 0, s.sent 0)) (by decide +kernel)

theorem closed_once_hangup : ∃ s, Run Step (start 3 fun _ => ⟨0, 0, 0⟩) shortEchoEvents s ∧
    ∀ fd, .close fd none ∈ s.log → fd = -1 ∨ (s.point = .done ∧ fd = s.serverFd) := by
  obtain ⟨s, hrun, -⟩ := exists_shortEcho_run
  exact ⟨s, hrun, (closed_once hrun).2.2.2⟩

theorem echo_iff_short :
    ¬ FullSends 3 (fun _ => ⟨0, 0, 0⟩) 0 shortEchoEvents := by
  obtain ⟨s, hrun, hs⟩ := exists_shortEcho_run
  simp only [Prod.mk.injEq] at hs
  rw [← (echo_iff hrun 0).2, hs.2.1, hs.2.2]
  decide

end NonblockingServer

end Network

end CsLab
