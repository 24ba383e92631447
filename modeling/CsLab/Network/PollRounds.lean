/-
The rounds of the poll server.

A round is what `main` does between two calls of `poll`: it accepts clients, and then goes once
over all slots.  `round_serves` says what it reads and writes on the connections in this time.  It
reads once from every client for which `poll` has reported something, in the order of the
slots, and from nobody else, and answers what it has read at once.  So no client waits for
longer than a round, whatever the others do; only a `send` to a client that has reset its
connection could end the server in a round, and that is not in the model.
-/
import CsLab.Network.PollRuns

namespace CsLab

namespace Network

namespace PollServer

/-- A call that reads from a client or writes to it. -/
def Talks : Call → Bool
  | .recv _ => true
  | .send _ _ => true
  | _ => false

/-- What was read and written so far. -/
def State.talk (s : State) : List Call := s.log.filter Talks

/-- What a turn reads and writes, if `poll` has reported something. -/
def exchange (fd : ℤ) : Recv → List Call
  | .data _ => [.recv fd, .send fd State.response]
  | _ => [.recv fd]

/-- `poll` reports that there is something to read from the client in the slot. -/
def Reported (s : State) (revents : Slot → BitVec 16) (i : Slot) : Prop :=
  0 ≤ (s.fds i).fd ∧ revents i &&& pollIn ≠ 0

instance (s : State) (revents : Slot → BitVec 16) (i : Slot) : Decidable (Reported s revents i) :=
  inferInstanceAs (Decidable (_ ∧ _))

/-- What the turns for the slots read and write, when `recv` gives the answers. -/
def roundTalk (s : State) (revents : Slot → BitVec 16) (answers : List Recv) : List Call :=
  (clientSlots.zip answers).flatMap fun t =>
    if Reported s revents t.1 then exchange (s.fds t.1).fd t.2 else []

/-- The server waits for something to happen. -/
def Event.Polls : Event → Prop
  | .polled _ => True
  | .pollFailed _ => True
  | _ => False

variable {s s' t t' : State} {e : Event} {es : List Event} {revents : Slot → BitVec 16} {i j : Slot}
  {answer : Recv} {answers : List Recv}

/-! ### One turn -/

namespace State

lemma talk_call (s : State) (c : Call) : (s.call c).talk = s.talk ++ [c].filter Talks :=
  List.filter_append ..

lemma talk_dropClient (s : State) (i : Slot) (fd : ℤ) : (s.dropClient i fd).talk = s.talk :=
  (s.talk_call (.close fd)).trans (List.append_nil _)

lemma talk_readClient (s : State) (i : Slot) (fd : ℤ) (answer : Recv) :
    (s.readClient i fd answer).talk = s.talk ++ exchange fd answer := by
  have hrecv : (s.call (.recv fd)).talk = s.talk ++ [.recv fd] := s.talk_call (.recv fd)
  cases answer with
  | data chunk =>
    have hsend := (s.call (.recv fd)).talk_call (.send fd response)
    rw [hrecv, List.append_assoc] at hsend
    exact hsend
  | eof => exact (talk_dropClient _ i fd).trans hrecv
  | failed errno =>
    simp only [readClient]
    split
    · exact (talk_dropClient _ i fd).trans hrecv
    · exact hrecv

lemma talk_scanSlot (s : State) (i : Slot) (answer : Recv) :
    (s.scanSlot i answer).talk = s.talk ++
      if (s.fds i).fd ≠ -1 ∧ (s.fds i).Readable then exchange (s.fds i).fd answer else [] := by
  by_cases hfd : (s.fds i).fd = -1
  · rw [scanSlot_free hfd, if_neg fun h => h.1 hfd, List.append_nil]
  -- the second test of the turn says nothing to the client
  have hdrop : ∀ t : State,
      (if (t.fds i).Broken then t.dropClient i (s.fds i).fd else t).talk = t.talk := by
    intro t
    split
    · exact t.talk_dropClient i _
    · rfl
  simp only [scanSlot, if_neg hfd, hdrop]
  by_cases hread : (s.fds i).Readable
  · rw [if_pos hread, if_pos ⟨hfd, hread⟩, talk_readClient]
  · rw [if_neg hread, if_neg fun h => hread h.2, List.append_nil]

lemma talk_newClient (s : State) (fd : ℤ) : (s.newClient fd).talk = s.talk := by
  have haccept : (s.call (.accept fd)).talk = s.talk :=
    (s.talk_call (.accept fd)).trans (List.append_nil _)
  simp only [newClient]
  split
  · exact haccept
  · exact ((talk_call _ (.close fd)).trans (List.append_nil _)).trans haccept

lemma fds_dropClient (s : State) (fd : ℤ) (hj : j ≠ i) : (s.dropClient i fd).fds j = s.fds j := by
  rw [dropClient, setFd_fds, Function.update_of_ne hj, call_fds]

lemma fds_readClient (s : State) (fd : ℤ) (answer : Recv) (hj : j ≠ i) :
    (s.readClient i fd answer).fds j = s.fds j := by
  rcases s.readClient_cases i fd answer with ⟨-, heq⟩ | ⟨-, c, -, heq | heq⟩ <;> rw [heq]
  · rw [fds_dropClient _ fd hj, call_fds]
  · rw [call_fds]
  · rw [call_fds, call_fds]

/-- A turn touches its own slot only. -/
lemma fds_scanSlot (s : State) (answer : Recv) (hj : j ≠ i) :
    (s.scanSlot i answer).fds j = s.fds j := by
  simp only [scanSlot]
  split
  · rfl
  · split <;> split <;> simp only [fds_dropClient _ _ hj, fds_readClient _ _ _ hj]

end State

/-! ### One round -/

/-- The slot is as `poll` has left it, but may have a new client by now. -/
structure Untouched (s : State) (revents : Slot → BitVec 16) (t : State) (i : Slot) : Prop where
  revents_eq : (t.fds i).revents = if (s.fds i).fd < 0 then 0 else revents i
  fd_eq : (s.fds i).fd ≠ -1 → (t.fds i).fd = (s.fds i).fd

lemma Untouched.poll (s : State) (revents : Slot → BitVec 16) (i : Slot) :
    Untouched s revents (s.poll revents) i := ⟨rfl, fun _ => rfl⟩

lemma Untouched.same (h : Untouched s revents t i) (hfds : t'.fds i = t.fds i) :
    Untouched s revents t' i := by
  obtain ⟨hrevents, hfd⟩ := h
  rw [← hfds] at hrevents hfd
  exact ⟨hrevents, hfd⟩

/-- A new client does not get the events of another one. -/
lemma Untouched.newClient (h : ∀ i, Untouched s revents t i) (fd : ℤ) (i : Slot) :
    Untouched s revents (t.newClient fd) i := by
  unfold State.newClient
  dsimp only
  split
  · next k hk =>
    have hfree := List.find?_some hk
    rw [decide_eq_true_eq, State.call_fds] at hfree
    by_cases hik : i = k
    · subst hik
      obtain ⟨hrevents, hfd⟩ := h i
      refine ⟨?_, fun hne => ?_⟩
      · rw [State.setFd_fds, Function.update_self, State.call_fds]
        exact hrevents
      · rw [hfd hne] at hfree
        exact absurd hfree hne
    · refine (h i).same ?_
      rw [State.setFd_fds, Function.update_of_ne hik, State.call_fds]
  · exact (h i).same rfl

/-- A turn reads from the client in the slot exactly if `poll` has reported something for it. -/
lemma Untouched.talk (h : Untouched s revents t i) (answer : Recv) :
    (t.scanSlot i answer).talk = t.talk ++
      if Reported s revents i then exchange (s.fds i).fd answer else [] := by
  rw [t.talk_scanSlot]
  refine congrArg (t.talk ++ ·) ?_
  by_cases hrep : Reported s revents i
  · have hfd : (t.fds i).fd = (s.fds i).fd := h.fd_eq (by have hpos := hrep.1; omega)
    have hread : (t.fds i).Readable := by
      rw [Pollfd.Readable, h.revents_eq, if_neg (not_lt.mpr hrep.1)]
      exact hrep.2
    rw [if_pos hrep, hfd, if_pos ⟨by have hpos := hrep.1; omega, hread⟩]
  · rw [if_neg hrep, if_neg]
    rintro ⟨-, hread⟩
    rw [Pollfd.Readable, h.revents_eq] at hread
    split at hread
    · simp at hread
    · next hpos => exact hrep ⟨not_lt.mp hpos, hread⟩

lemma clientSlots_getElem {k : ℕ} (hk : k < maxClients) :
    clientSlots[k]? = some ⟨k + 1, Nat.succ_lt_succ hk⟩ := by
  rw [clientSlots, List.getElem?_map, List.getElem?_eq_getElem (by simpa using hk)]
  simp

lemma roundTalk_append (h : clientSlots[answers.length]? = some i) :
    roundTalk s revents (answers ++ [answer]) = roundTalk s revents answers ++
      if Reported s revents i then exchange (s.fds i).fd answer else [] := by
  rw [roundTalk, Log.zip_append_singleton h, List.flatMap_append, List.flatMap_singleton]
  rfl

/-- What holds in the middle of a round, after the events `es` that followed the call of `poll`
in the state `s`. -/
structure InRound (s : State) (revents : Slot → BitVec 16) (es : List Event) (t : State)
    (arrivals : List Event) (answers : List Recv) : Prop where
  events : es = arrivals ++ answers.map .turn
  no_turn : ∀ a, .turn a ∉ arrivals
  talk : t.talk = s.talk ++ roundTalk s revents answers
  stands : t.point = .accepting ∧ answers = [] ∧ (∀ i, Untouched s revents t i) ∨
    (∃ i, t.point = .scanning i ∧ i.val = answers.length + 1 ∧
      ∀ j, i ≤ j → Untouched s revents t j) ∨
    t.point = .wait ∧ answers.length = maxClients

lemma InRound.step {arrivals : List Event} (h : InRound s revents es t arrivals answers)
    (he : ¬ e.Polls) (hstep : Step t e t') :
    ∃ arrivals' answers', InRound s revents (es ++ [e]) t' arrivals' answers' := by
  obtain ⟨rfl, hno, htalk, hstands⟩ := h
  cases Move.of_step hstep with
  | polled => exact absurd trivial he
  | interrupted => exact absurd trivial he
  | pollFailed => exact absurd trivial he
  | accepted fd hs =>
    obtain ⟨-, rfl, huntouched⟩ : t.point = .accepting ∧ answers = [] ∧
        ∀ i, Untouched s revents t i := hstands.resolve_right (by simp [hs])
    refine ⟨arrivals ++ [.accepted fd], [], by simp, by simp [hno], ?_, .inl ⟨?_, rfl,
      Untouched.newClient huntouched fd⟩⟩
    · exact (t.talk_newClient fd).trans htalk
    · rw [t.newClient_point, hs]
  | acceptFailed errno hs =>
    obtain ⟨-, rfl, huntouched⟩ : t.point = .accepting ∧ answers = [] ∧
        ∀ i, Untouched s revents t i := hstands.resolve_right (by simp [hs])
    refine ⟨arrivals ++ [.acceptFailed errno], [], by simp, by simp [hno], htalk,
      .inr (.inl ⟨1, rfl, rfl, fun j _ => (huntouched j).same rfl⟩)⟩
  | turn i answer hs =>
    obtain ⟨i', hi', hlen, huntouched⟩ : ∃ i, t.point = .scanning i ∧
        i.val = answers.length + 1 ∧ ∀ j, i ≤ j → Untouched s revents t j := by
      rcases hstands with ⟨hpoint, -⟩ | hscan | ⟨hpoint, -⟩
      · rw [hs] at hpoint
        cases hpoint
      · exact hscan
      · rw [hs] at hpoint
        cases hpoint
    rw [hs] at hi'
    cases hi'
    have hslot : clientSlots[answers.length]? = some i := by
      rw [clientSlots_getElem (by have hlt := i.isLt; omega)]
      exact congrArg some (Fin.ext hlen.symm)
    refine ⟨arrivals, answers ++ [answer], by simp, hno, ?_, .inr ?_⟩
    · rw [roundTalk_append hslot, ← List.append_assoc, ← htalk]
      exact (huntouched i le_rfl).talk answer
    · rw [List.length_append, List.length_singleton]
      simp only [next]
      split
      · refine .inl ⟨_, rfl, congrArg (· + 1) hlen, fun j hj => ?_⟩
        have hlt : i.val < j.val := hj
        refine (huntouched j (Fin.le_def.mpr hlt.le)).same (t.fds_scanSlot answer ?_)
        exact fun hji => absurd (congrArg Fin.val hji) (Nat.ne_of_gt hlt)
      · next hend =>
        have hlt := i.isLt
        exact .inr ⟨rfl, by omega⟩

/-- **Every client is served in every round, once**: between two calls of `poll` the server accepts
clients and then makes one turn for each slot; and it reads from exactly the clients for
which `poll` has reported something, in the order of the slots, and answers what it reads. -/
theorem round_serves (hrun : Run Step s (.polled revents :: es) s') (hes : ∀ e ∈ es, ¬ e.Polls)
    (hwait : s'.point = .wait) :
    ∃ arrivals answers, es = arrivals ++ answers.map .turn ∧ (∀ a, .turn a ∉ arrivals) ∧
      answers.length = maxClients ∧ s'.talk = s.talk ++ roundTalk s revents answers := by
  obtain ⟨t, hpolled, hround⟩ := hrun.cons_inv
  have hin : ∃ arrivals answers, InRound s revents es s' arrivals answers := by
    refine hround.history (I := fun es t => (∀ e ∈ es, ¬ e.Polls) →
      ∃ arrivals answers, InRound s revents es t arrivals answers) (fun _ => ?_) ?_ hes
    · cases Move.of_step hpolled with
      | polled revents p hs hp =>
        refine ⟨[], [], rfl, by simp, by simp [roundTalk, State.talk, State.poll], ?_⟩
        rcases hp with rfl | rfl
        · exact .inl ⟨rfl, rfl, fun i => (Untouched.poll s revents i).same rfl⟩
        · exact .inr (.inl ⟨1, rfl, rfl, fun j _ => (Untouched.poll s revents j).same rfl⟩)
    · intro es t e t' _ ih hstep hall
      rw [List.forall_mem_append, List.forall_mem_singleton] at hall
      obtain ⟨arrivals, answers, hin⟩ := ih hall.1
      exact hin.step hall.2 hstep
  obtain ⟨arrivals, answers, hevents, hno, htalk, hstands⟩ := hin
  refine ⟨arrivals, answers, hevents, hno, ?_, htalk⟩
  rcases hstands with ⟨hpoint, -⟩ | ⟨i, hpoint, -⟩ | ⟨-, hlen⟩
  · rw [hwait] at hpoint
    cases hpoint
  · rw [hwait] at hpoint
    cases hpoint
  · exact hlen

/-- A client comes. -/
def arrivalRound : List Event :=
  [.polled fun i => if i.val = 0 then pollIn else 0, .accepted 4, .acceptFailed eagain] ++
    List.replicate maxClients (.turn .eof)

def helloReport (i : Slot) : BitVec 16 := if i.val = 1 then pollIn else 0

/-- The client says something. -/
def helloRound : List Event :=
  .turn (.data ⟨[105], by decide, by decide⟩) :: List.replicate (maxClients - 1) (.turn .eof)

lemma exists_hello_run : ∃ s s', Run Step (start 3 fun _ => ⟨0, 0, 0⟩) arrivalRound s ∧
    Run Step s (.polled helloReport :: helloRound) s' ∧
      (s'.point, s'.talk) = (.wait, [.recv 4, .send 4 State.response]) := by
  obtain ⟨s', hrun, hs'⟩ : ∃ s', Run Step (start 3 fun _ => ⟨0, 0, 0⟩)
      (arrivalRound ++ .polled helloReport :: helloRound) s' ∧
        (s'.point, s'.talk) = (.wait, [.recv 4, .send 4 State.response]) :=
    Run.exists_of_foldlM (f := fun s : State => (s.point, s.talk)) (by decide +kernel)
  obtain ⟨s, hrun₁, hrun₂⟩ := hrun.append_inv
  exact ⟨s, s', hrun₁, hrun₂, hs'⟩

theorem round_serves_hello : ∃ s answers, Run Step (start 3 fun _ => ⟨0, 0, 0⟩) arrivalRound s ∧
    answers.length = maxClients ∧
      s.talk ++ roundTalk s helloReport answers = [.recv 4, .send 4 State.response] := by
  obtain ⟨s, s', hrun, hround, hs'⟩ := exists_hello_run
  simp only [Prod.mk.injEq] at hs'
  have hpolls : ∀ e ∈ helloRound, ¬ e.Polls := by
    simp [helloRound, Event.Polls]
  obtain ⟨-, answers, -, -, hlen, htalk⟩ := round_serves hround hpolls hs'.1
  exact ⟨s, answers, hrun, hlen, htalk.symm.trans hs'.2⟩

end PollServer

end Network

end CsLab
