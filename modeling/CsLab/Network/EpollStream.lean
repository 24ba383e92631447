/-
The streams of the epoll server.

For each connection the server is a relay (`step_relay`): `recv` reads a chunk, and `send`
passes it on, of which the kernel may take a part only.  The result of `send` is not looked
at, so the rest is forgotten.  The echo of a connection therefore follows what came in as
long as all its sends are full, and once one was not, the inner loop can end with `EAGAIN`
only with bytes missing.
-/
import CsLab.Lib.Relay
import CsLab.Network.EpollServer

namespace CsLab

namespace Network

namespace EpollServer

variable {s s' : State} {e : Event} {es : List Event} {c : ℕ}

namespace State

/-- What was received on the connection and is about to be sent. -/
def pending (s : State) (c : ℕ) : List UInt8 :=
  match s.point with
  | .sending r chunk _ => if s.conn r.fd = some c then chunk.bytes else []
  | _ => []

lemma pending_of_not_sending (h : ∀ r chunk rest, s.point ≠ .sending r chunk rest) :
    s.pending c = [] := by
  unfold pending
  split
  · next r chunk rest hs => exact absurd hs (h r chunk rest)
  · rfl

@[simp] lemma advance_received (s : State) (rest : List Report) :
    (s.advance rest).received = s.received := by
  cases rest <;> rfl

@[simp] lemma advance_sent (s : State) (rest : List Report) :
    (s.advance rest).sent = s.sent := by
  cases rest <;> rfl

lemma pending_advance (s : State) (rest : List Report) : (s.advance rest).pending c = [] := by
  refine pending_of_not_sending fun r chunk rest' => ?_
  cases rest with
  | nil => simp [advance]
  | cons r' rest =>
    simp only [advance]
    split <;> simp

/-- The server as a relay of one connection. -/
def relay (s : State) (c : ℕ) : Relay UInt8 := ⟨s.received c, s.pending c, s.sent c⟩

lemma received_receive (s : State) (fd : ℤ) (data : List UInt8) :
    (s.receive fd data).received c = s.received c ++ if s.conn fd = some c then data else [] := by
  unfold receive
  split
  · next c' hc =>
    by_cases heq : c = c'
    · subst heq
      simp [hc]
    · simp [hc, heq, Ne.symm heq]
  · next hc => simp [hc]

lemma sent_take (s : State) (fd : ℤ) (data : List UInt8) :
    (s.take fd data).sent c = s.sent c ++ if s.conn fd = some c then data else [] := by
  unfold take
  split
  · next c' hc =>
    by_cases heq : c = c'
    · subst heq
      simp [hc]
    · simp [hc, heq, Ne.symm heq]
  · next hc => simp [hc]

@[simp] lemma receive_conn (s : State) (fd : ℤ) (data : List UInt8) :
    (s.receive fd data).conn = s.conn := by
  unfold receive
  split <;> rfl

@[simp] lemma receive_sent (s : State) (fd : ℤ) (data : List UInt8) :
    (s.receive fd data).sent = s.sent := by
  unfold receive
  split <;> rfl

@[simp] lemma take_received (s : State) (fd : ℤ) (data : List UInt8) :
    (s.take fd data).received = s.received := by
  unfold take
  split <;> rfl

end State

/-! ### The server is a relay -/

/-- If the step is a `send` on the connection, it takes all bytes it is given. -/
def FullSend (c : ℕ) (s : State) (e : Event) : Prop :=
  ∀ r chunk rest answer, s.point = .sending r chunk rest → s.conn r.fd = some c →
    e = .sent answer → answer = .taken chunk.n

lemma FullSend.of_not_sending (h : ∀ r chunk rest, s.point ≠ .sending r chunk rest) :
    FullSend c s e :=
  fun r chunk rest _ hs => absurd hs (h r chunk rest)

lemma fullSend_iff {r : Report} {chunk : Chunk} {rest : List Report} {answer : Send}
    (hs : s.point = .sending r chunk rest) (hc : s.conn r.fd = some c) :
    FullSend c s (.sent answer) ↔ answer = .taken chunk.n := by
  constructor
  · intro hfull
    exact hfull r chunk rest answer hs hc rfl
  · rintro hfull r' chunk' rest' answer' hs' - ⟨⟩
    rw [hs] at hs'
    cases hs'
    exact hfull

lemma State.CanSend.full_iff {chunk : Chunk} {answer : Send} {fd : ℤ}
    (hcan : s.CanSend fd chunk answer) :
    answer = .taken chunk.n ↔ answer.bytes chunk.bytes = chunk.bytes := by
  cases answer with
  | taken k =>
    have hk : k ≤ chunk.bytes.length := hcan.1
    simp only [Send.bytes, Send.taken.injEq, List.take_eq_self_iff, Chunk.n]
    omega
  | failed errno => simp [Send.bytes, Ne.symm chunk.ne_nil]

/-- The relay makes the move, and the move is full if the step is a full send. -/
def Relays (c : ℕ) (s : State) (e : Event) (s' : State) : Prop :=
  ∃ m, (s.relay c).Allowed m ∧ s'.relay c = (s.relay c).step m ∧
    (FullSend c s e ↔ (s.relay c).Full m)

/-- A step that sends nothing reads what is pending behind it. -/
lemma Relays.read (hs : ∀ r chunk rest, s.point ≠ .sending r chunk rest)
    (hsent : s'.sent c = s.sent c) (hreceived : s'.received c = s.received c ++ s'.pending c) :
    Relays c s e s' := by
  refine ⟨.read (s'.pending c), State.pending_of_not_sending hs, ?_, ?_⟩
  · ext1
    · exact hreceived
    · rfl
    · exact hsent
  · exact iff_of_true (.of_not_sending hs) trivial

/-- A step that leaves the streams alone. -/
lemma Relays.quiet (hs : ∀ r chunk rest, s.point ≠ .sending r chunk rest)
    (hpending : s'.pending c = []) (hsent : s'.sent = s.sent)
    (hreceived : s'.received = s.received) : Relays c s e s' :=
  .read hs (by rw [hsent]) (by rw [hreceived, hpending, List.append_nil])

lemma recvTurn_relays {r : Report} {rest : List Report} (hs : s.point = .receiving r rest)
    (answer : Recv) : Relays c s (.received answer) (s.recvTurn r rest answer) := by
  have hpoint : ∀ r chunk rest, s.point ≠ .sending r chunk rest := by simp [hs]
  cases answer with
  | data chunk =>
    refine .read hpoint ?_ ?_
    · simp [State.recvTurn, State.call]
    · simp [State.recvTurn, State.received_receive, State.pending, State.call]
  | eof =>
    refine .quiet hpoint (State.pending_advance ..) ?_ ?_
    · simp [State.recvTurn, State.disconnect, State.close, State.call]
    · simp [State.recvTurn, State.disconnect, State.close, State.call]
  | failed errno =>
    by_cases herr : errno = eagain ∨ errno = ewouldblock
    · simp only [State.recvTurn, if_pos herr]
      exact .quiet hpoint (State.pending_advance ..) (State.advance_sent ..)
        (State.advance_received ..)
    · simp only [State.recvTurn, if_neg herr]
      refine .quiet hpoint (State.pending_advance ..) ?_ ?_
      · simp [State.disconnect, State.close, State.call]
      · simp [State.disconnect, State.close, State.call]

lemma sendTurn_relays {r : Report} {chunk : Chunk} {rest : List Report} {answer : Send}
    (hs : s.point = .sending r chunk rest) (hcan : s.CanSend r.fd chunk answer) :
    Relays c s (.sent answer) (s.sendTurn r chunk rest answer) := by
  have hafter : (s.sendTurn r chunk rest answer).pending c = [] :=
    State.pending_of_not_sending (by simp [State.sendTurn])
  have hsent := (s.call (some r) .send r.fd).sent_take r.fd (answer.bytes chunk.bytes) (c := c)
  by_cases hc : s.conn r.fd = some c
  · have hpending : s.pending c = chunk.bytes := by simp [State.pending, hs, hc]
    refine ⟨.pass (answer.bytes chunk.bytes), ?_, ?_, ?_⟩
    · simp only [Relay.Allowed, State.relay, hpending]
      exact answer.bytes_prefix chunk.bytes
    · ext1
      · simp [State.relay, Relay.step, State.sendTurn, State.call]
      · exact hafter
      · simpa [State.relay, Relay.step, State.sendTurn, State.call, hc] using hsent
    · simp only [Relay.Full, State.relay, hpending]
      rw [← hcan.full_iff]
      exact fullSend_iff hs hc
  · -- a `send` on another connection
    have hpending : s.pending c = [] := by simp [State.pending, hs, hc]
    refine ⟨.pass [], List.nil_prefix, ?_, ?_⟩
    · ext1
      · simp [State.relay, Relay.step, State.sendTurn, State.call]
      · exact hafter
      · simpa [State.relay, Relay.step, State.sendTurn, State.call, hc] using hsent
    · refine iff_of_true ?_ hpending.symm
      rintro r' chunk' rest' answer' hs' hc' -
      rw [hs] at hs'
      cases hs'
      exact absurd hc' hc

/-- Every step of the server is a move of the relay of every connection. -/
lemma step_relay (h : Step s e s') (c : ℕ) : Relays c s e s' := by
  cases Move.of_step h with
  | ready fds hs hfds => exact .quiet (by simp [hs]) (State.pending_advance ..) (by simp) (by simp)
  | interrupted hs =>
    exact .quiet (by simp [hs]) (State.pending_of_not_sending (by simp [hs])) rfl rfl
  | waitFailed errno hs =>
    exact .quiet (by simp [hs]) (State.pending_of_not_sending (by simp [State.shutdown])) rfl rfl
  | accepted r rest fd added hs hfd =>
    have hpoint : (s.newClient r fd added).point = s.point := by cases added <;> rfl
    refine .quiet (by simp [hs]) (State.pending_of_not_sending (by simp [hpoint, hs])) ?_ ?_
    · cases added <;> rfl
    · cases added <;> rfl
  | acceptFailed r rest errno hs =>
    exact .quiet (by simp [hs]) (State.pending_advance ..) (by simp) (by simp)
  | received r rest answer hs hcan => exact recvTurn_relays hs answer
  | sent r chunk rest answer hs hcan => exact sendTurn_relays hs hcan

/-! ### Runs -/

/-- All sends on the connection are full. -/
abbrev FullSends (serverFd epfd : ℕ) (c : ℕ) : List Event → Prop :=
  Run.Steps Step (start serverFd epfd) (FullSend c)

/-- What the sends on a connection were decides whether its relay is intact. -/
def Accounted (serverFd epfd c : ℕ) (es : List Event) (s : State) : Prop :=
  (FullSends serverFd epfd c es ∧ (s.relay c).Intact) ∨
    (¬ FullSends serverFd epfd c es ∧ (s.relay c).Lossy)

lemma accounted_of_run {serverFd epfd : ℕ} (hrun : Run Step (start serverFd epfd) es s) (c : ℕ) :
    Accounted serverFd epfd c es s := by
  have hstart : ((start serverFd epfd).relay c).Intact := by
    simp [Relay.Intact, State.relay, State.pending, start]
  refine hrun.history (I := Accounted serverFd epfd c) (.inl ⟨Run.steps_nil, hstart⟩) ?_
  intro es s₁ e s₂ hrun₁ hacc hstep
  obtain ⟨m, hallowed, hrelay, hfull⟩ := step_relay hstep c
  rw [Accounted, FullSends, Run.steps_append_singleton (stepOf_unique exec) hrun₁, hrelay, hfull]
  rcases hacc with ⟨hall, hintact⟩ | ⟨hnot, hlossy⟩
  · by_cases hm : (s₁.relay c).Full m
    · exact .inl ⟨⟨hall, hm⟩, hintact.step hallowed hm⟩
    · exact .inr ⟨fun h => hm h.2, hintact.step_lossy hallowed hm⟩
  · exact .inr ⟨fun h => hnot h.1, hlossy.step hallowed⟩

lemma fullSends_iff_intact {serverFd epfd : ℕ} (hrun : Run Step (start serverFd epfd) es s) :
    FullSends serverFd epfd c es ↔ (s.relay c).Intact := by
  rcases accounted_of_run hrun c with ⟨hfull, hintact⟩ | ⟨hnot, hlossy⟩
  · exact iff_of_true hfull hintact
  · exact iff_of_false hnot fun h => h.not_lossy hlossy

/-- The step is the end of the inner loop for the connection with `EAGAIN`. -/
def EndsWithEagain (c : ℕ) (s : State) (e : Event) : Prop :=
  ∃ r rest errno, s.point = .receiving r rest ∧ s.conn r.fd = some c ∧
    e = .received (.failed errno) ∧ (errno = eagain ∨ errno = ewouldblock)

/-- The echo of the connection is true to its stream all along the run. -/
structure StreamFaithful (serverFd epfd : ℕ) (c : ℕ) (es : List Event) : Prop where
  prefix_received : ∀ es₁ s₁, es₁ <+: es → Run Step (start serverFd epfd) es₁ s₁ →
    s₁.sent c <+: s₁.received c
  all_sent : Run.Steps Step (start serverFd epfd)
    (fun s₁ e => EndsWithEagain c s₁ e → s₁.sent c = s₁.received c) es

/-- At the end of the inner loop an intact relay has passed on all it has read. -/
lemma EndsWithEagain.intact_iff (h : EndsWithEagain c s e) :
    (s.relay c).Intact ↔ s.sent c = s.received c := by
  obtain ⟨r, rest, errno, hs, -⟩ := h
  have hpending : s.pending c = [] := State.pending_of_not_sending (by simp [hs])
  simp only [Relay.Intact, State.relay, hpending, List.append_nil]
  exact eq_comm

lemma FullSends.streamFaithful {serverFd epfd : ℕ} (h : FullSends serverFd epfd c es) :
    StreamFaithful serverFd epfd c es := by
  constructor
  · intro es₁ s₁ hpre hrun₁
    have hintact := (fullSends_iff_intact hrun₁).mp (h.of_prefix hpre)
    exact hintact.sent_prefix
  · intro es₁ e s₁ hpre hrun₁ hdry
    have hpre' := (List.prefix_append es₁ [e]).trans hpre
    exact hdry.intact_iff.mp ((fullSends_iff_intact hrun₁).mp (h.of_prefix hpre'))

/-- If all sends on a connection are full, its echo is true to its stream.  In a run that
comes to the end of the inner loop with `EAGAIN`, it is true only then. -/
theorem streamFaithful_of_fullSends (serverFd epfd c : ℕ) (es : List Event) :
    (FullSends serverFd epfd c es → StreamFaithful serverFd epfd c es) ∧
      ∀ es₁ e s₁, es = es₁ ++ [e] → Run Step (start serverFd epfd) es₁ s₁ →
        EndsWithEagain c s₁ e →
        (StreamFaithful serverFd epfd c es ↔ FullSends serverFd epfd c es) := by
  refine ⟨FullSends.streamFaithful, ?_⟩
  rintro es₁ e s₁ rfl hrun₁ hdry
  refine ⟨fun h => ?_, FullSends.streamFaithful⟩
  have hsent := h.all_sent es₁ e s₁ (List.prefix_refl _) hrun₁ hdry
  rw [FullSends, Run.steps_append_singleton (stepOf_unique exec) hrun₁]
  constructor
  · exact (fullSends_iff_intact hrun₁).mpr (hdry.intact_iff.mpr hsent)
  · obtain ⟨r, rest, errno, hs, -⟩ := hdry
    exact .of_not_sending (by simp [hs])

/-- A client sends `ab` and then `c`; the first `send` takes `k` bytes, the second the one
it is given, and then there is nothing more to read. -/
def echoEvents (k : ℕ) : List Event :=
  [.ready [3], .accepted 5 true, .acceptFailed eagain, .ready [5],
    .received (.data ⟨[97, 98], by decide, by decide⟩), .sent (.taken k),
    .received (.data ⟨[99], by decide, by decide⟩), .sent (.taken 1),
    .received (.failed eagain)]

/-- What the run leaves of the streams of its connection, with a short send and without. -/
lemma echo_streams : ∀ k ∈ [1, 2],
    ((echoEvents k).foldlM exec (start 3 4)).map
      (fun s => (s.sent 0, s.pending 0, s.received 0)) =
    some ([97, 98].take k ++ [99], [], [97, 98, 99]) := by
  decide +kernel

lemma exists_echo_run {k : ℕ} (hk : k ∈ [1, 2]) : ∃ s, Run Step (start 3 4) (echoEvents k) s ∧
    s.sent 0 = [97, 98].take k ++ [99] ∧ s.pending 0 = [] ∧ s.received 0 = [97, 98, 99] := by
  obtain ⟨s, hrun, hs⟩ := Option.map_eq_some_iff.mp (echo_streams k hk)
  simp only [Prod.mk.injEq] at hs
  exact ⟨s, .of_foldlM hrun, hs⟩

theorem not_streamFaithful : ¬ ∀ (serverFd epfd c : ℕ) (es : List Event) (s : State),
    Run Step (start serverFd epfd) es s → StreamFaithful serverFd epfd c es := by
  intro h
  obtain ⟨s, hrun, hsent, -, hreceived⟩ := exists_echo_run (k := 1) (by decide)
  have hpre := (h 3 4 0 _ s hrun).prefix_received _ s (List.prefix_refl _) hrun
  rw [hsent, hreceived] at hpre
  exact absurd hpre (by decide)

/-- **The echo is the stream with gaps**: whatever the sends take, the server sends on a
connection some of what it has read from it, in the same order, and nothing else. -/
theorem echo_ordered {serverFd epfd : ℕ} (hrun : Run Step (start serverFd epfd) es s) (c : ℕ) :
    (s.sent c ++ s.pending c).Sublist (s.received c) := by
  refine hrun.invariant (I := fun s => (s.relay c).Ordered) ?_ (List.Sublist.refl [])
  intro s₁ e s₂ hordered hstep
  obtain ⟨m, hallowed, hrelay, -⟩ := step_relay hstep c
  rw [hrelay]
  exact hordered.step hallowed

theorem echo_ordered_echo : ∃ s, Run Step (start 3 4) (echoEvents 1) s ∧
    (s.sent 0 ++ s.pending 0).Sublist (s.received 0) := by
  obtain ⟨s, hrun, -⟩ := exists_echo_run (k := 1) (by decide)
  exact ⟨s, hrun, echo_ordered hrun 0⟩

theorem streamFaithful_of_fullSends_echo : StreamFaithful 3 4 0 (echoEvents 2) := by
  refine (streamFaithful_of_fullSends 3 4 0 (echoEvents 2)).1 ?_
  obtain ⟨s, hrun, hsent, hpending, hreceived⟩ := exists_echo_run (k := 2) (by decide)
  rw [fullSends_iff_intact hrun, Relay.Intact, State.relay, hsent, hpending, hreceived]
  rfl

end EpollServer

end Network

end CsLab
