/-
The epoll server serves its clients.

A run has an end (`epoll_serves`): every report of `epoll_wait` is true when the server comes to
it, so that it reads or accepts something for it before it finds `EAGAIN`, and what is read and
accepted is limited by what the clients send.  The system can go on exactly until all clients are
served, except that a basic client waits for ever if its message could not be sent back.  Where a
connection was reset calls may have to fail, and a `send` may end the server; no stream client
leads to that unless a call fails.

What a client gets is a part of what it has sent, and a client that reads to the end gets all of
it if no `send` of the server is short (`epoll_echoes`).
-/
import Mathlib.Data.Fintype.EquivFin
import CsLab.Network.EpollDesk

namespace CsLab

namespace Network

namespace EpollClients

open Session
open EpollServer (Report)

variable {s s' : State} {e : Event} {es : List Event} {i j : ℕ} {p p' : Peer} {o : Option ℕ}
  {v : EpollServer.State} {peers : List Peer} {r : Report} {rest : List Report} {m m' : ℤ}
  {serverFd epfd : ℕ}

/-! ### What is reported stays so -/

lemma State.Awaited.mono (h : s.Awaited o) (hnone : o = none → v.accepts < peers.length)
    (hsome : ∀ i p, o = some i → s.line[i]? = some p → p.Readable →
      ∃ p', peers[i]? = some p' ∧ p'.Readable) : State.Awaited ⟨v, peers⟩ o := by
  cases o with
  | none => exact hnone rfl
  | some i =>
    obtain ⟨p, hp, hread⟩ := h
    exact hsome i p rfl hp hread

/-- A change of the client `i` is none for the others. -/
lemma State.Awaited.set (h : s.Awaited o) (hne : o ≠ some i)
    (hnone : o = none → v.accepts = s.server.accepts) :
    State.Awaited ⟨v, s.line.set i p'⟩ o := by
  refine h.mono (fun ho => ?_) fun j p ho hp hread => ⟨p, ?_, hread⟩
  · subst ho
    rw [hnone rfl, List.length_set]
    exact h
  · rw [List.getElem?_set_ne]
    · exact hp
    · rintro rfl
      exact hne ho

lemma State.Awaited.server (h : s.Awaited o) (hnone : o = none → v.accepts = s.server.accepts) :
    State.Awaited ⟨v, s.line⟩ o := by
  refine h.mono (fun ho => ?_) fun j p _ hp hread => ⟨p, hp, hread⟩
  subst ho
  rw [hnone rfl]
  exact h

lemma act_readable {answer : Answer UInt8} (h : p.act answer = some p') (hread : p.Readable) :
    p'.Readable := by
  obtain ⟨⟨q, inp, out⟩, hexec, rfl⟩ := Option.map_eq_some_iff.mp h
  have hmove := Act.Move.of_exec hexec
  generalize p.kind.program p.point = a at hmove
  cases hmove with
  | sent data next k =>
    refine hread.imp_left fun hne heq => hne ?_
    -- what is written behind it does not make the rest of the stream disappear
    have hle := p.up.taken_le
    rw [Pipe.taken_write, Pipe.written_write] at heq
    rw [heq] at hle
    have hlen := hle.length_le
    rw [List.length_append] at hlen
    have hnil : data.take k = [] := List.length_eq_zero_iff.mp (by omega)
    rwa [hnil, List.append_nil] at heq
  | sendFailed => exact hread
  | got => exact hread
  | eof => exact hread
  | recvFailed => exact hread
  | shutdown => exact .inr rfl
  | close => exact .inr rfl

lemma State.Awaited.connect (h : s.Awaited o) (c : Client) :
    State.Awaited { s with line := s.line ++ [.new c] } o := by
  refine h.mono ?_ ?_
  · intro hnone
    subst hnone
    have hlt : s.server.accepts < s.line.length := h
    rw [List.length_append]
    omega
  · intro i p _ hp hread
    refine ⟨p, ?_, hread⟩
    rw [List.getElem?_append_left (List.getElem?_eq_some_iff.mp hp).1]
    exact hp

lemma State.Awaited.client {answer : Answer UInt8} (h : s.Awaited o) (hp : s.line[i]? = some p)
    (hact : p.act answer = some p') :
    State.Awaited { s with line := s.line.set i p' } o := by
  refine h.mono ?_ ?_
  · intro hnone
    subst hnone
    rw [List.length_set]
    exact h
  · intro j p₁ _ hp₁ hread
    by_cases heq : j = i
    · subst heq
      cases hp.symm.trans hp₁
      exact ⟨p', List.getElem?_set_self (List.getElem?_eq_some_iff.mp hp).1,
        act_readable hact hread⟩
    · exact ⟨p₁, (List.getElem?_set_ne (Ne.symm heq)).trans hp₁, hread⟩

/-- The reports of a batch are for different connections. -/
lemma conn_ne_of_batch (hinv : EpollServer.Inv s.server)
    (hreports : s.server.point.reports = r :: rest) {r' : Report} (hr' : r' ∈ rest) :
    r'.conn ≠ r.conn := by
  have hbatch := hinv.batch
  rw [hreports] at hbatch
  have hfd : r'.fd ≠ r.fd := fun heq =>
    (List.nodup_cons.mp hbatch.nodup).1 (heq ▸ List.mem_map_of_mem hr')
  obtain ⟨hconn, hclient⟩ := hbatch.head
  obtain ⟨hconn', hclient'⟩ := hbatch.fresh r' (List.mem_cons_of_mem _ hr')
  intro heq
  cases hc : r.conn with
  | none =>
    have hserver : r.fd = s.server.serverFd := by
      by_contra hne
      exact hclient hne hc
    have hserver' : r'.fd = s.server.serverFd := by
      by_contra hne
      exact hclient' hne (heq.trans hc)
    exact hfd (hserver'.trans hserver.symm)
  | some i => exact hfd (conn_unique hinv (hconn'.trans (heq.trans hc)) (hconn.trans hc))

lemma reports_fresh (hinv : EpollServer.Inv s.server)
    (hreports : s.server.point.reports = r :: rest) : s.server.conn r.fd = r.conn := by
  have hbatch := hinv.batch
  rw [hreports] at hbatch
  exact hbatch.head.1

lemma conn_of_accepting (hinv : EpollServer.Inv s.server)
    (hs : s.server.point = .accepting r rest) : r.conn = none := by
  have hsuits := hinv.suits
  rw [hs] at hsuits
  have hserver : r.fd = s.server.serverFd := hsuits
  rw [← reports_fresh hinv (by rw [hs]; rfl), hserver]
  exact hinv.kernel.server_free

/-! ### How many events there are -/

/-- What is behind the report that the server works on is true. -/
def Unread (s : State) : Prop :=
  ∃ r rest, (s.server.point = .accepting r rest ∨ s.server.point = .receiving r rest) ∧
    s.Awaited r.conn

/-- What was done for the clients pays for the events: one is owed while the server has done
nothing for the report that it works on, and afterwards there is one for `EAGAIN`. -/
structure Paid (s : State) (m : ℤ) : Prop where
  behind : ∀ r ∈ s.server.point.reports.tail, s.Awaited r.conn
  credit : (s.server.point = .wait ∧ 0 ≤ m) ∨ (Unread s ∧ -1 ≤ m) ∨
    (s.server.point.reports ≠ [] ∧ 1 ≤ m)

lemma Paid.ge (h : Paid s m) : -1 ≤ m := by
  rcases h.credit with ⟨-, hm⟩ | ⟨-, hm⟩ | ⟨-, hm⟩ <;> omega

lemma Paid.behind_report (h : Paid s m) (hreports : s.server.point.reports = r :: rest) :
    ∀ r' ∈ rest, s.Awaited r'.conn := by
  have hbehind := h.behind
  rwa [hreports] at hbehind

lemma Paid.mono (h : Paid s m) (hserver : s'.server = s.server)
    (hawaited : ∀ o, s.Awaited o → s'.Awaited o) (hm : m ≤ m') : Paid s' m' := by
  refine ⟨fun r hr => hawaited _ (h.behind r (hserver ▸ hr)), ?_⟩
  rw [hserver]
  rcases h.credit with ⟨hs, hle⟩ | ⟨⟨r, rest, hs, hr⟩, hle⟩ | ⟨hs, hle⟩
  · exact .inl ⟨hs, by omega⟩
  · refine .inr (.inl ⟨⟨r, rest, ?_, hawaited _ hr⟩, by omega⟩)
    rw [hserver]
    exact hs
  · exact .inr (.inr ⟨hs, by omega⟩)

/-- The server goes on with the next report. -/
lemma Paid.advance (hrest : ∀ r ∈ rest, State.Awaited ⟨v, peers⟩ r.conn) (hm : -1 ≤ m)
    (hnil : rest = [] → 0 ≤ m) : Paid ⟨v.advance rest, peers⟩ m := by
  have hawaited : ∀ r ∈ rest, State.Awaited ⟨v.advance rest, peers⟩ r.conn := fun r hr =>
    (hrest r hr).server fun _ => advance_accepts ..
  cases rest with
  | nil => exact ⟨by simp [EpollServer.State.advance, EpollServer.Point.reports],
      .inl ⟨rfl, hnil rfl⟩⟩
  | cons r rest =>
    rw [List.forall_mem_cons] at hawaited
    have hpoint : (v.advance (r :: rest)).point = .accepting r rest ∨
        (v.advance (r :: rest)).point = .receiving r rest := by
      simp only [EpollServer.State.advance]
      split
      · exact .inl rfl
      · exact .inr rfl
    refine ⟨?_, .inr (.inl ⟨⟨r, rest, hpoint, hawaited.1⟩, hm⟩)⟩
    have htail : (v.advance (r :: rest)).point.reports.tail = rest := by
      rcases hpoint with hpoint | hpoint <;> rw [hpoint] <;> rfl
    rw [htail]
    exact hawaited.2

/-- A report that is not true any more has been worked on. -/
lemma Paid.of_idle (h : Paid s m) (hs : s.server.point = .accepting r rest ∨
    s.server.point = .receiving r rest) (hno : ¬ s.Awaited r.conn) : 1 ≤ m := by
  rcases h.credit with ⟨hwait, -⟩ | ⟨⟨r', rest', hs', hr'⟩, -⟩ | ⟨-, hm⟩
  · rcases hs with hs | hs <;> rw [hs] at hwait <;> cases hwait
  · rcases hs with hs | hs <;> rw [hs] at hs' <;> rcases hs' with hs' | hs' <;> cases hs'
    · exact absurd hr' hno
    · exact absurd hr' hno
  · exact hm

lemma Paid.of_wait (h : Paid s m) (hs : s.server.point = .wait) : 0 ≤ m := by
  rcases h.credit with ⟨-, hm⟩ | ⟨⟨r, rest, hs' | hs', -⟩, -⟩ | ⟨hne, -⟩
  · exact hm
  · cases hs.symm.trans hs'
  · cases hs.symm.trans hs'
  · exact absurd (by rw [hs]; rfl) hne

lemma Paid.of_sending {chunk : Chunk} (h : Paid s m)
    (hs : s.server.point = .sending r chunk rest) : 1 ≤ m := by
  rcases h.credit with ⟨hs', -⟩ | ⟨⟨r', rest', hs' | hs', -⟩, -⟩ | ⟨-, hm⟩
  · cases hs.symm.trans hs'
  · cases hs.symm.trans hs'
  · cases hs.symm.trans hs'
  · exact hm

/-- An `accept` that gives a client; what becomes of the client does not matter. -/
lemma Paid.newClient (h : Paid s m) (hinv : EpollServer.Inv s.server)
    (hs : s.server.point = .accepting r rest) (fd : ℤ) (added : Bool)
    (p' : Peer) (hm : 1 ≤ m') :
    Paid ⟨s.server.newClient r fd added, s.line.set s.server.accepts p'⟩ m' := by
  have hreports : s.server.point.reports = r :: rest := by rw [hs]; rfl
  have hpoint : (s.server.newClient r fd added).point = s.server.point := by cases added <;> rfl
  refine ⟨?_, .inr (.inr ⟨by rw [hpoint, hreports]; exact List.cons_ne_nil _ _, hm⟩)⟩
  rw [hpoint]
  intro r' hr'
  refine (h.behind r' hr').set (fun hsome => ?_) fun hnone => ?_
  · -- no report is for a client that was not accepted before
    have hfresh := (hinv.batch.fresh r' (List.mem_of_mem_tail hr')).1
    exact absurd (lt_accepts hinv (hfresh.trans hsome)) (lt_irrefl _)
  · rw [hreports] at hr'
    exact absurd (hnone.trans (conn_of_accepting hinv hs).symm)
      (conn_ne_of_batch hinv hreports hr')

/-- A `recv` of the server. -/
lemma Paid.received (h : Paid s m) (hinv : EpollServer.Inv s.server) {answer : Recv}
    (hs : s.server.point = .receiving r rest) (hconn : s.server.conn r.fd = some i)
    (hp : s.line[i]? = some p) (hrecv : p.recv answer = some p') {k : ℕ}
    (hk : (Event.server (.received answer)).Works → 1 ≤ k) (hm : m' = m + 3 * k - 1) :
    Paid ⟨s.server.recvTurn r rest answer, s.line.set i p'⟩ m' := by
  have hreports : s.server.point.reports = r :: rest := by rw [hs]; rfl
  have hr : r.conn = some i := (reports_fresh hinv hreports).symm.trans hconn
  have hbehind := h.behind_report hreports
  have hothers : ∀ v : EpollServer.State, v.accepts = s.server.accepts →
      ∀ r' ∈ rest, State.Awaited ⟨v, s.line.set i p'⟩ r'.conn := fun v hv r' hr' =>
    (hbehind r' hr').set (hr ▸ conn_ne_of_batch hinv hreports hr') fun _ => hv
  have hge := h.ge
  by_cases hends : answer.Ends
  · have hworks : 1 ≤ k := hk (by
      cases answer with
      | data chunk => trivial
      | eof => trivial
      | failed errno => exact hends)
    rw [recvTurn_of_ends s.server r rest hends]
    exact .advance (hothers _ rfl) (by omega) fun _ => by omega
  · cases answer with
    | data chunk =>
      have hworks : 1 ≤ k := hk trivial
      have hpoint : (s.server.recvTurn r rest (.data chunk)).point = .sending r chunk rest := rfl
      refine ⟨?_, .inr (.inr ⟨?_, by omega⟩)⟩
      · rw [hpoint]
        exact hothers _ (effect_data chunk rest hconn).1.accepts
      · rw [hpoint]
        exact List.cons_ne_nil _ _
    | eof => exact absurd trivial hends
    | failed errno =>
      have herr : errno = eagain ∨ errno = ewouldblock := by
        by_contra hno
        exact hends (not_or.mp hno)
      simp only [Peer.recv, if_pos herr] at hrecv
      obtain ⟨hno, -⟩ := Option.ite_none_left_eq_some.mp hrecv
      have hpaid := h.of_idle (.inr hs) (by
        rw [hr]
        rintro ⟨p₁, hp₁, hread⟩
        cases hp.symm.trans hp₁
        exact hno hread)
      have hturn : s.server.recvTurn r rest (.failed errno) =
          (s.server.call (some r) .recv r.fd).advance rest := if_pos herr
      rw [hturn]
      exact .advance (hothers _ rfl) (by omega) fun _ => by omega

/-- A `send` of the server. -/
lemma Paid.sent {chunk : Chunk} {answer : Send} (h : Paid s m) (hinv : EpollServer.Inv s.server)
    (hs : s.server.point = .sending r chunk rest) (hconn : s.server.conn r.fd = some i)
    (hm : m ≤ m') : Paid ⟨s.server.sendTurn r chunk rest answer, s.line.set i p'⟩ m' := by
  have hreports : s.server.point.reports = r :: rest := by rw [hs]; rfl
  have hr : r.conn = some i := (reports_fresh hinv hreports).symm.trans hconn
  have hpoint : (s.server.sendTurn r chunk rest answer).point = .receiving r rest := rfl
  refine ⟨?_, .inr (.inr ⟨?_, (h.of_sending hs).trans hm⟩)⟩
  · rw [hpoint]
    intro r' hr'
    exact (h.behind_report hreports r' hr').set (hr ▸ conn_ne_of_batch hinv hreports hr')
      fun _ => (effect_sent chunk rest hconn answer).1.accepts
  · rw [hpoint]
    exact List.cons_ne_nil _ _

/-- A step that does nothing for a client costs one, and any other brings two. -/
lemma Paid.step (h : Paid s m) (hinv : EpollServer.Inv s.server) (hstep : Step s e s') {k : ℕ}
    (hk : e.Works → 1 ≤ k)
    (hm : m' = m + 3 * k + 2 * (if e.Stray then 1 else 0) - 1 -
      2 * ((s'.line.length : ℤ) - s.line.length)) : Paid s' m' := by
  have hge := h.ge
  cases Move.of_step hstep with
  | connect c =>
    have hworks : 1 ≤ k := hk trivial
    simp only [Event.Stray, List.length_append, List.length_singleton] at hm
    exact h.mono rfl (fun o ho => ho.connect c) (by push_cast at hm; simp at hm; omega)
  | client i answer p p' hp hact =>
    have hworks : 1 ≤ k := hk trivial
    simp [Event.Stray] at hm
    exact h.mono rfl (fun o ho => ho.client hp hact) (by omega)
  | ready fds hs hfds hne hawaited =>
    have hzero := h.of_wait hs
    simp [Event.Stray] at hm
    refine .advance ?_ (by omega) fun hnil => absurd (List.map_eq_nil_iff.mp hnil) hne
    intro r hr
    obtain ⟨fd, hfd, rfl⟩ := List.mem_map.mp hr
    exact hawaited fd hfd
  | interrupted hs =>
    simp [Event.Stray] at hm
    exact h.mono rfl (fun _ => id) (by omega)
  | accepted r rest fd p hs hfd hp =>
    have hworks : 1 ≤ k := hk trivial
    simp [Event.Stray] at hm
    have hpaid : Paid ⟨s.server.newClient r fd true, s.line.set s.server.accepts p⟩ m' :=
      h.newClient hinv hs fd true p (by omega)
    obtain ⟨hlt, hset⟩ := List.getElem?_eq_some_iff.mp hp
    rwa [← hset, List.set_getElem_self] at hpaid
  | refused r rest fd p hs hfd hp =>
    have hworks : 1 ≤ k := hk trivial
    simp [Event.Stray] at hm
    exact h.newClient hinv hs fd false _ (by omega)
  | acceptFailed r rest errno hs hno =>
    have hreports : s.server.point.reports = r :: rest := by rw [hs]; rfl
    have hbehind := h.behind_report hreports
    have hpaid : 0 ≤ m' := by
      by_cases herr : errno = eagain ∨ errno = ewouldblock
      · have hidle := h.of_idle (.inl hs) (by
          rw [conn_of_accepting hinv hs]
          exact hno herr)
        simp at hm
        split at hm <;> omega
      · have hstray : (Event.server (.acceptFailed errno)).Stray = true :=
          decide_eq_true (not_or.mp herr)
        rw [hstray] at hm
        simp at hm
        omega
    exact .advance hbehind (by omega) fun _ => hpaid
  | received r rest answer i p p' hs hconn hp hrecv =>
    refine h.received hinv hs hconn hp hrecv hk ?_
    simpa [Event.Stray] using hm
  | sent r chunk rest answer i p p' hs hconn hcan hp hsend =>
    have hworks : 1 ≤ k := hk trivial
    simp [Event.Stray] at hm
    exact h.sent hinv hs hconn (by omega)

/-! ### Runs -/

/-- What the events `ds` of a desk say about a run with the events `es`. -/
structure Mirrored (serverFd epfd : ℕ) (es : List Event) (s : State)
    (ds : List (Desk.Event UInt8 Client EchoPoint))
    (d : Desk UInt8 Client ClientPoint EchoPoint) : Prop where
  run : Run (Desk.Step rules) .empty ds d
  matched : Matches s d
  server : Run EpollServer.Step (EpollServer.start serverFd epfd) (es.filterMap Event.ofServer)
    s.server
  sendFailed : ∀ i, .talk i (.right .sendFailed) ∈ ds →
    ∃ errno, .server (.sent (.failed errno)) ∈ es
  clean : (∀ e ∈ es, ¬ e.Fault) → ∀ x ∈ ds, ¬ x.Fault ∧ x ≠ .accept .closing
  paid : Paid s (3 * ds.length + 2 * es.countP Event.Stray - es.length - 2 * s.line.length)

lemma mirrored_start : Mirrored serverFd epfd [] (start serverFd epfd) [] .empty where
  run := .nil _
  matched :=
    { accepted := rfl
      line := rfl
      stands := by simp [Desk.empty]
      read := by simp [Desk.empty]
      wrote := by simp [Desk.empty]
      quiet := fun _ _ => ⟨rfl, rfl⟩ }
  server := .nil _
  sendFailed := by simp
  clean := by simp
  paid := ⟨by simp [start, EpollServer.start, EpollServer.Point.reports],
    .inl ⟨rfl, by simp [start]⟩⟩

/-- **Refinement**: what the server and its clients do is done by a desk, in which each client has
an echo server of its own. -/
theorem mirrored_of_run (hrun : Run Step (start serverFd epfd) es s) :
    ∃ ds d, Mirrored serverFd epfd es s ds d := by
  refine hrun.history (I := fun es s => ∃ ds d, Mirrored serverFd epfd es s ds d)
    ⟨[], .empty, mirrored_start⟩ ?_
  rintro es s₁ e s₂ - ⟨ds, d, h⟩ hstep
  have hinv := EpollServer.Inv.run h.server
  obtain ⟨xs, d', hdesk, hmatch, hmirrors⟩ :=
    h.matched.step (Desk.held_of_run h.run).accepted_le hinv hstep
  refine ⟨ds ++ xs, d', h.run.append hdesk, hmatch, ?_, ?_, ?_, ?_⟩
  · rw [Log.filterMap_append_singleton]
    exact h.server.append hstep.server
  · intro i hi
    rcases List.mem_append.mp hi with hi | hi
    · obtain ⟨errno, herr⟩ := h.sendFailed i hi
      exact ⟨errno, List.mem_append_left _ herr⟩
    · obtain ⟨errno, rfl⟩ := hmirrors.sendFailed i hi
      exact ⟨errno, by simp⟩
  · intro hclean
    rw [List.forall_mem_append, List.forall_mem_singleton] at hclean
    exact List.forall_mem_append.mpr ⟨h.clean hclean.1, hmirrors.clean hclean.2⟩
  · refine h.paid.step hinv hstep
      (fun hworks => List.length_pos_iff.mpr (hmirrors.works hworks)) ?_
    rw [List.countP_append, List.countP_singleton, List.length_append, List.length_append,
      List.length_singleton]
    split <;> push_cast <;> omega

/-! ### Progress -/

/-- The client has ended, and the server has closed the connection. -/
def Done (s : State) (i : ℕ) (p : Peer) : Prop :=
  p.point = .stopped ∧ i < s.server.accepts ∧ ∀ fd, s.server.conn fd ≠ some i

/-- The system can go on without a failure and without a new client. -/
def GoesOn (s : State) : Prop := ∃ e s', ¬ e.Fault ∧ (∀ c, e ≠ .connect c) ∧ Step s e s'

/-- The server has closed its socket with something unread, or something was sent to it
afterwards: it has reset the connection, and the client is still there. -/
def Peer.Cut (p : Peer) : Prop :=
  p.point ≠ .stopped ∧ p.down.ended = true ∧ p.up.taken ≠ p.up.written

/-- The server works on a connection that the client has reset, or a client on one that the server
has: a call there may have no choice but to fail. -/
def State.AtReset (s : State) : Prop :=
  (∃ r ∈ s.server.point.reports.head?, s.ResetOn r.fd) ∨ ∃ p ∈ s.line, p.Cut

/-- The process and its clients can go on without a new client, and without a failure unless there
is a reset. -/
def Process.GoesOn (s : State) : Prop :=
  ∃ u x, (u.Fault → s.AtReset) ∧ (∀ c, u ≠ .step (.connect c)) ∧ Process.Step (.running s) u x

lemma exists_unused (hinv : EpollServer.Inv s.server) : ∃ fd, s.server.Unused fd := by
  obtain ⟨n, hn⟩ := Infinite.exists_notMem_finset
    ((insert s.server.serverFd (insert s.server.epfd
      (EpollServer.acceptedFds s.server.log))).image Int.toNat)
  have hout : ∀ fd ∈ insert s.server.serverFd (insert s.server.epfd
      (EpollServer.acceptedFds s.server.log)), (n : ℤ) ≠ fd := by
    rintro fd hfd rfl
    exact hn (Finset.mem_image.mpr ⟨n, hfd, Int.toNat_natCast n⟩)
  refine ⟨n, Int.natCast_nonneg n, hout _ (by simp), hout _ (by simp), ?_⟩
  by_contra hopen
  have hmem := (hinv.kernel.accepted n).mpr hopen
  exact hout n (Finset.mem_insert_of_mem (Finset.mem_insert_of_mem hmem)) rfl

/-- What is readable can be read. -/
lemma exists_recv (hread : p.Readable) :
    ∃ answer p', ¬ (Event.server (.received answer)).Fault ∧ p.recv answer = some p' := by
  by_cases hall : p.up.taken = p.up.written
  · have hdrained : p.up.Drained := ⟨hread.resolve_left fun hne => hne hall, hall⟩
    exact ⟨.eof, _, id, if_pos hdrained⟩
  · have hcap : 0 < bufSize - 1 := by decide
    obtain ⟨x, hx⟩ := Pipe.exists_offers hcap hall
    exact ⟨.data ⟨[x], by simp, by simp⟩, _, id, dif_pos hx⟩

/-- While the server works on a report, it can go on. -/
lemma goesOn_of_reports (hinv : EpollServer.Inv s.server)
    (hline : s.server.accepts ≤ s.line.length) (hs : s.server.point.reports ≠ []) : GoesOn s := by
  have hpeer : ∀ {fd i}, s.server.conn fd = some i → ∃ p, s.line[i]? = some p := fun hconn =>
    ⟨_, List.getElem?_eq_getElem ((lt_accepts hinv hconn).trans_le hline)⟩
  have hconn : ∀ {r rest}, s.server.point.reports = r :: rest → r.fd ≠ s.server.serverFd →
      ∃ i, s.server.conn r.fd = some i := by
    intro r rest hreports hne
    have hbatch := hinv.batch
    rw [hreports] at hbatch
    obtain ⟨hconn, hclient⟩ := hbatch.head
    rw [hconn]
    exact Option.ne_none_iff_exists'.mp (hclient hne)
  have hsuits := hinv.suits
  cases hpoint : s.server.point with
  | wait =>
    rw [hpoint] at hs
    exact absurd rfl hs
  | done =>
    rw [hpoint] at hs
    exact absurd rfl hs
  | accepting r rest =>
    by_cases hawaited : s.Awaited none
    · obtain ⟨fd, hfd⟩ := exists_unused hinv
      have hp : s.line[s.server.accepts]? = some s.line[s.server.accepts] :=
        List.getElem?_eq_getElem hawaited
      refine ⟨.server (.accepted fd true), ⟨s.server.newClient r fd true, s.line⟩,
        by simp [Event.Fault], by simp, ?_⟩
      simp [Step, stepOf, exec, EpollServer.exec, State.wire, hpoint, hfd, hp]
    · refine ⟨.server (.acceptFailed eagain), ⟨s.server.advance rest, s.line⟩,
        by simp [Event.Fault], by simp, ?_⟩
      simp [Step, stepOf, exec, EpollServer.exec, State.wire, hpoint, hawaited]
  | receiving r rest =>
    rw [hpoint] at hsuits
    obtain ⟨i, hi⟩ := hconn (by rw [hpoint]; rfl) hsuits
    obtain ⟨p, hp⟩ := hpeer hi
    obtain ⟨answer, p', hfault, hrecv⟩ : ∃ answer p',
        ¬ (Event.server (.received answer)).Fault ∧ p.recv answer = some p' := by
      by_cases hread : p.Readable
      · exact exists_recv hread
      · refine ⟨.failed eagain, p, by simp [Event.Fault], ?_⟩
        simp [Peer.recv, hread]
    refine ⟨.server (.received answer), ⟨s.server.recvTurn r rest answer, s.line.set i p'⟩, hfault,
      by simp, ?_⟩
    simp [Step, stepOf, exec, EpollServer.exec, State.wire, State.onConn, hpoint, hi, hp, hrecv,
      EpollServer.State.CanReceive]
  | sending r chunk rest =>
    rw [hpoint] at hsuits
    obtain ⟨i, hi⟩ := hconn (by rw [hpoint]; rfl) hsuits
    obtain ⟨p, hp⟩ := hpeer hi
    have hpos : chunk.n ≠ 0 := fun hzero => chunk.ne_nil (List.length_eq_zero_iff.mp hzero)
    refine ⟨.server (.sent (.taken chunk.n)), ⟨s.server.sendTurn r chunk rest (.taken chunk.n),
      s.line.set i { p with down := p.down.write (chunk.bytes.take chunk.n) }⟩, id, by simp, ?_⟩
    simp [Step, stepOf, exec, EpollServer.exec, State.wire, State.onConn, hpoint, hi, hp,
      Peer.send, hpos, EpollServer.State.CanSend]

/-- While there is something for the server, it does not wait. -/
lemma goesOn_of_awaited (hinv : EpollServer.Inv s.server) (hs : s.server.point = .wait) (fd : ℤ)
    (hfd : fd = s.server.serverFd ∨ s.server.conn fd ≠ none)
    (hawaited : s.Awaited (s.server.conn fd)) : GoesOn s := by
  have hready : s.server.Ready [fd] :=
    ⟨by simp [EpollServer.maxEvents], by simp, by simpa using (hinv.registered fd).mpr hfd⟩
  refine ⟨.server (.ready [fd]), ⟨s.server.advance [⟨fd, s.server.conn fd⟩], s.line⟩, id, by simp,
    ?_⟩
  simp [Step, stepOf, exec, EpollServer.exec, State.wire, hs, hready, hawaited]

/-- Where a session is not stuck, the client or the server can go on. -/
lemma goesOn_of_session {d : Desk UInt8 Client ClientPoint EchoPoint} {c : Client}
    {t : Session UInt8 ClientPoint EchoPoint} (h : Matches s d)
    (hinv : EpollServer.Inv s.server) (hs : s.server.point = .wait)
    (ht : d.line[i]? = some (c, t)) (hacc : i < d.accepted)
    (hstuck : ¬ Stuck c.program echoServer t) : GoesOn s := by
  have hp : s.line[i]? = some (Peer.of (c, t)) := by
    rw [h.line, List.getElem?_map, ht]
    rfl
  obtain ⟨turn, t', hfault, hstep⟩ := Session.progress hstuck
  rcases move_of_step hstep with ⟨answer, rfl, -, -⟩ | ⟨answer, rfl, -, hmove⟩
  · obtain ⟨out, hexec, -⟩ := Option.map_eq_some_iff.mp hstep
    obtain ⟨p', hact⟩ : ∃ p', (Peer.of (c, t)).act answer = some p' :=
      ⟨_, Option.map_eq_some_iff.mpr ⟨out, hexec, rfl⟩⟩
    refine ⟨.client i answer, { s with line := s.line.set i p' }, hfault, by simp, ?_⟩
    simp [Step, stepOf, exec, hp, hact]
  · -- the server can read something
    have hstands := h.stands i c t ht hacc
    have hpending : s.server.pending i = [] :=
      EpollServer.State.pending_of_not_sending (by simp [hs])
    rcases hstands.quiet hpending with ⟨hright, fd, hfd⟩ | ⟨hright, -⟩
    · rw [hright] at hmove
      have hread : (Peer.of (c, t)).Readable := by
        generalize t'.right = q, t'.up = up, t'.down = down at hmove
        cases hmove with
        | got cap next data hoffers =>
          refine .inl fun heq => hoffers.1 ?_
          have hall : t.up.taken = t.up.written := heq
          have hlen := hoffers.2.2.length_le
          rw [hall, List.length_append] at hlen
          exact List.length_eq_zero_iff.mp (by omega)
        | eof cap next hdrained => exact .inr hdrained.1
        | recvFailed cap next => exact absurd trivial hfault
      refine goesOn_of_awaited hinv hs fd (.inr (by rw [hfd]; simp)) ?_
      rw [hfd]
      exact ⟨_, hp, hread⟩
    · rw [hright] at hmove
      exact absurd hmove Act.not_move_stop

/-! ### All clients -/

/-- A basic client waits for an answer: the server has read its message, could not send back
anything of it, and waits too. -/
def Unanswered (es : List Event) (p : Peer) : Prop :=
  p.kind = .basic ∧ p.point = .receiving ∧ p.up.taken = p.up.written ∧ p.up.written ≠ [] ∧
    p.down.written = [] ∧ p.down.ended = false ∧ ∃ errno, .server (.sent (.failed errno)) ∈ es

/-- Nothing is left to be done. -/
def Settled (es : List Event) (s : State) : Prop :=
  s.server.point = .wait ∧ s.server.accepts = s.line.length ∧
    ∀ i p, s.line[i]? = some p → Done s i p ∨ Unanswered es p

lemma Settled.not_atReset (h : Settled es s) : ¬ s.AtReset := by
  obtain ⟨hs, -, hclients⟩ := h
  rintro (⟨r, hr, -⟩ | ⟨p, hp, hactive, -, hunread⟩)
  · rw [hs] at hr
    cases hr
  · obtain ⟨i, hi⟩ := List.mem_iff_getElem?.mp hp
    rcases hclients i p hi with hdone | hno
    · exact hactive hdone.1
    · exact hunread hno.2.2.1

section Mirrored

variable {ds : List (Desk.Event UInt8 Client EchoPoint)}
  {d : Desk UInt8 Client ClientPoint EchoPoint} {c : Client}
  {t : Session UInt8 ClientPoint EchoPoint}

/-- The connection of a session that has ended is closed. -/
lemma Mirrored.done_of_finished (h : Mirrored serverFd epfd es s ds d)
    (ht : d.line[i]? = some (c, t)) (hacc : i < d.accepted)
    (hfin : Session.Finished c.program echoServer t) : Done s i (Peer.of (c, t)) := by
  refine ⟨client_stopped hfin.1, h.matched.accepted ▸ hacc, ?_⟩
  have hstands := h.matched.stands i c t ht hacc
  rwa [echo_stopped hfin.2] at hstands

lemma Mirrored.finished_of_done (h : Mirrored serverFd epfd es s ds d)
    (ht : d.line[i]? = some (c, t)) (hdone : Done s i (Peer.of (c, t))) :
    i < d.accepted ∧ Session.Finished c.program echoServer t := by
  obtain ⟨hleft, hlt, hconn⟩ := hdone
  have hacc : i < d.accepted := h.matched.accepted ▸ hlt
  have hpoint : t.left = .stopped := hleft
  refine ⟨hacc, by rw [hpoint]; cases c <;> rfl, ?_⟩
  rw [(h.matched.stands i c t ht hacc).closed hconn]
  rfl

/-- A session that the server has accepted, seen by itself. -/
lemma Mirrored.session (h : Mirrored serverFd epfd es s ds d) (ht : d.line[i]? = some (c, t))
    (hacc : i < d.accepted) : ∃ r, (r = .receiving ∨ r = .closing) ∧ .accept r ∈ ds ∧
      Run (Echo c) (met c r) (Desk.turnsOf i ds) t := by
  obtain ⟨l, r, hr, hadmits, hsession⟩ := Desk.seen_alone h.run ht hacc
  exact ⟨r, of_decide_eq_true hadmits, hr, hsession⟩

/-- If no call has failed then the server has read from all that it has accepted. -/
lemma Mirrored.clean_session (h : Mirrored serverFd epfd es s ds d)
    (hclean : ∀ e ∈ es, ¬ e.Fault) (ht : d.line[i]? = some (c, t)) (hacc : i < d.accepted) :
    Run (Echo c) (met c .receiving) (Desk.turnsOf i ds) t ∧
      ∀ turn ∈ Desk.turnsOf i ds, ¬ turn.answer.Fault := by
  obtain ⟨r, hr, hmem, hsession⟩ := h.session ht hacc
  have hreceiving : r = .receiving :=
    hr.resolve_right fun hclosing => (h.clean hclean _ hmem).2 (hclosing ▸ rfl)
  subst hreceiving
  exact ⟨hsession, fun turn hturn => (h.clean hclean _ (Desk.mem_turnsOf.mp hturn)).1⟩

/-- A session that is stuck has ended, or its client is one that gets no answer. -/
lemma Mirrored.done_of_stuck (h : Mirrored serverFd epfd es s ds d)
    (ht : d.line[i]? = some (c, t)) (hacc : i < d.accepted)
    (hstuck : Stuck c.program echoServer t) :
    Done s i (Peer.of (c, t)) ∨ Unanswered es (Peer.of (c, t)) := by
  obtain ⟨r, hr, -, hsession⟩ := h.session ht hacc
  rcases echo_stuck hr hsession hstuck with
    hfin | ⟨hbasic, hleft, hall, hmessage, hnothing, hopen, hfailed⟩
  · exact .inl (h.done_of_finished ht hacc hfin)
  · exact .inr ⟨hbasic, hleft, hall, hmessage, hnothing, hopen,
      h.sendFailed i (Desk.mem_turnsOf.mp hfailed)⟩

/-- A client that gets no answer and the server wait for each other. -/
lemma Mirrored.stuck_of_unanswered (h : Mirrored serverFd epfd es s ds d)
    (hs : s.server.point = .wait) (ht : d.line[i]? = some (c, t)) (hacc : i < d.accepted)
    (hno : Unanswered es (Peer.of (c, t))) :
    Stuck c.program echoServer t ∧ ¬ (Peer.of (c, t)).Readable := by
  obtain ⟨hbasic, hleft, hall, -, hnothing, hopen, -⟩ := hno
  simp only [Peer.of] at hbasic hleft hall hnothing hopen
  subst hbasic
  obtain ⟨r, hr, -, hsession⟩ := h.session ht hacc
  have hclient := left_keeps (client_keeps .basic) (client_kept_connected .basic) hsession
    fun _ _ => trivial
  rw [hleft] at hclient
  simp only [clientKept, if_true] at hclient
  have hright : t.right = .receiving := by
    have hserver := echo_kept hr hsession
    have hstands := h.matched.stands i _ t ht hacc
    have hpending : s.server.pending i = [] :=
      EpollServer.State.pending_of_not_sending (by simp [hs])
    rcases hstands.quiet hpending with ⟨hright, -⟩ | ⟨hright, -⟩
    · exact hright
    · rw [hright] at hserver
      exact absurd (hopen.symm.trans hserver.2) Bool.noConfusion
  have hseen : t.down.taken = t.down.written := by
    have hle := t.down.taken_le
    rw [hnothing] at hle ⊢
    exact List.prefix_nil.mp hle
  refine ⟨⟨.inr ?_, .inr ?_⟩, ?_⟩
  · rw [hleft]
    exact (Act.waits_recv (by decide)).mpr ⟨hseen, hopen⟩
  · rw [hright]
    exact (Act.waits_recv (by decide)).mpr ⟨hall, hclient.1⟩
  · rintro (hdata | hended)
    · exact hdata hall
    · exact absurd (hclient.1.symm.trans hended) Bool.noConfusion

/-- Where all is settled nothing goes on. -/
lemma Mirrored.not_goesOn (h : Mirrored serverFd epfd es s ds d) (hset : Settled es s) :
    ¬ GoesOn s := by
  obtain ⟨hs, hall, hclients⟩ := hset
  rintro ⟨e, s', hfault, hconnect, hstep⟩
  have hacc : ∀ {i p}, s.line[i]? = some p → i < d.accepted := fun hp => by
    rw [h.matched.accepted, hall]
    exact (List.getElem?_eq_some_iff.mp hp).1
  cases Move.of_step hstep with
  | connect c => exact hconnect c rfl
  | client i answer p p' hp hact =>
    obtain ⟨c, t, ht, rfl⟩ := h.matched.peer hp
    have hstuck : Stuck c.program echoServer t := by
      rcases hclients i _ hp with hdone | hno
      · obtain ⟨-, hleft, hright⟩ := h.finished_of_done ht hdone
        exact ⟨.inl hleft, .inl hright⟩
      · exact (h.stuck_of_unanswered hs ht (hacc hp) hno).1
    obtain ⟨out, hexec, -⟩ := Option.map_eq_some_iff.mp hact
    have hturn : Echo c t (.left answer) { t with left := out.1, down := out.2.1, up := out.2.2 } :=
      Option.map_eq_some_iff.mpr ⟨out, hexec, rfl⟩
    exact hfault (hstuck.fault hturn)
  | ready fds _ hfds hne hawaited =>
    obtain ⟨fd, hfd⟩ := List.exists_mem_of_ne_nil fds hne
    have hread := hawaited fd hfd
    cases hconn : s.server.conn fd with
    | none =>
      rw [hconn] at hread
      have hlt : s.server.accepts < s.line.length := hread
      omega
    | some i =>
      rw [hconn] at hread
      obtain ⟨p, hp, hread⟩ := hread
      obtain ⟨c, t, ht, rfl⟩ := h.matched.peer hp
      rcases hclients i _ hp with hdone | hno
      · exact hdone.2.2 fd hconn
      · exact (h.stuck_of_unanswered hs ht (hacc hp) hno).2 hread
  | interrupted => exact hfault trivial
  | accepted r rest fd p hs' => cases hs.symm.trans hs'
  | refused r rest fd p hs' => cases hs.symm.trans hs'
  | acceptFailed r rest errno hs' => cases hs.symm.trans hs'
  | received r rest answer i p p' hs' => cases hs.symm.trans hs'
  | sent r chunk rest answer i p p' hs' => cases hs.symm.trans hs'

/-- What has gone back is a part of what the server has read. -/
lemma Mirrored.sublist (h : Mirrored serverFd epfd es s ds d) (ht : d.line[i]? = some (c, t)) :
    t.down.written.Sublist t.up.taken := by
  rcases Nat.lt_or_ge i d.accepted with hi | hi
  · obtain ⟨r, hr, -, hsession⟩ := h.session ht hi
    exact echo_sublist hr hsession
  · obtain ⟨hclient, hsession⟩ := ((Desk.held_of_run h.run).alone i c t ht).outside hi
    have hnil : t.down.written = [] := Desk.written_of_client hsession hclient
    rw [hnil]
    exact List.nil_sublist _

/-- Where the server has closed the connection nothing is left to be sent. -/
lemma Mirrored.pending_of_ended (h : Mirrored serverFd epfd es s ds d)
    (ht : d.line[i]? = some (c, t)) (hended : t.down.ended = true) : s.server.pending i = [] := by
  have hinv := EpollServer.Inv.run h.server
  by_cases hconn : ∃ fd, s.server.conn fd = some i
  · obtain ⟨fd, hfd⟩ := hconn
    have hacc : i < d.accepted := h.matched.accepted ▸ lt_accepts hinv hfd
    obtain ⟨r, hr, -, hsession⟩ := h.session ht hacc
    have hkept := echo_kept hr hsession
    have hstands := h.matched.stands i c t ht hacc
    cases hright : t.right with
    | receiving =>
      rw [hright] at hstands
      exact hstands.2
    | echoing data =>
      rw [hright] at hkept
      exact absurd (hended.symm.trans hkept.2.2) Bool.noConfusion
    | closing =>
      rw [hright] at hstands
      exact hstands.elim
    | stopped =>
      rw [hright] at hstands
      exact absurd hfd (hstands fd)
  · unfold EpollServer.State.pending
    split
    · exact if_neg fun hfd => hconn ⟨_, hfd⟩
    · rfl

/-- A session has at most 53 events. -/
lemma Mirrored.length_le (h : Mirrored serverFd epfd es s ds d) :
    ds.length ≤ d.line.length * 55 := by
  have hclient : ∀ c : Client, clientBudget 3 (.sending c.messages) ≤ 51 := by
    intro c
    cases c <;> simp [length_ascii]
  refine Desk.length_le (n := 53) h.run (fun c => client_budget 3 c) echo_budget
    (fun c => ?_) fun c l r hadmits => ?_
  · have hc := hclient c
    simp only [rules, echoBudget]
    omega
  · have hc := hclient c
    rcases of_decide_eq_true hadmits with rfl | rfl
    all_goals
      simp only [rules, echoBudget]
      omega

lemma Mirrored.goesOn_or_settled (h : Mirrored serverFd epfd es s ds d) :
    GoesOn s ∨ Settled es s := by
  have hinv := EpollServer.Inv.run h.server
  have hlen : s.line.length = d.line.length := by rw [h.matched.line, List.length_map]
  have hle : s.server.accepts ≤ s.line.length := by
    rw [hlen, ← h.matched.accepted]
    exact (Desk.held_of_run h.run).accepted_le
  rcases h.paid.credit with ⟨hs, -⟩ | ⟨⟨r, rest, hs, -⟩, -⟩ | ⟨hs, -⟩
  · by_cases hlt : s.server.accepts < s.line.length
    · refine .inl (goesOn_of_awaited hinv hs s.server.serverFd (.inl rfl) ?_)
      rw [hinv.kernel.server_free]
      exact hlt
    have hall : s.server.accepts = s.line.length := by omega
    have hacc : ∀ {i c t}, d.line[i]? = some (c, t) → i < d.accepted := fun ht => by
      rw [h.matched.accepted, hall, hlen]
      exact (List.getElem?_eq_some_iff.mp ht).1
    by_cases hgo : ∃ (i : ℕ) (c : Client) (t : _), d.line[i]? = some (c, t) ∧
        ¬ Stuck c.program echoServer t
    · obtain ⟨i, c, t, ht, hstuck⟩ := hgo
      exact .inl (goesOn_of_session h.matched hinv hs ht (hacc ht) hstuck)
    · refine .inr ⟨hs, hall, ?_⟩
      intro i p hp
      obtain ⟨c, t, ht, rfl⟩ := h.matched.peer hp
      refine h.done_of_stuck ht (hacc ht) ?_
      by_contra hstuck
      exact hgo ⟨i, c, t, ht, hstuck⟩
  · refine .inl (goesOn_of_reports hinv hle ?_)
    rcases hs with hs | hs <;> rw [hs] <;> exact List.cons_ne_nil _ _
  · exact .inl (goesOn_of_reports hinv hle hs)

lemma Mirrored.length_run (h : Mirrored serverFd epfd es s ds d) :
    es.length ≤ 163 * s.line.length + 2 * es.countP Event.Stray + 1 := by
  have hdesk := h.length_le
  have hlen : s.line.length = d.line.length := by rw [h.matched.line, List.length_map]
  have hpaid := h.paid.ge
  omega

lemma Mirrored.goesOn_iff (h : Mirrored serverFd epfd es s ds d) :
    Process.GoesOn s ↔ ¬ Settled es s := by
  constructor
  · rintro ⟨u, x, hfault, hconnect, hstep⟩ hset
    have hclean : ¬ u.Fault := fun hf => hset.not_atReset (hfault hf)
    cases Process.Move.of_step hstep with
    | step _ e s' he =>
      exact h.not_goesOn hset ⟨e, s', hclean, fun c hc => hconnect c (congrArg _ hc), he⟩
    | ended _ u hends =>
      cases hends with
      | sigpipe r chunk rest hs => cases hset.1.symm.trans hs
      | waitFailed => exact hclean trivial
  · intro hno
    obtain ⟨e, s', hfault, hconnect, he⟩ := h.goesOn_or_settled.resolve_right hno
    refine ⟨.step e, .running s', fun hf => absurd hf hfault, fun c hc => hconnect c ?_,
      Option.map_eq_some_iff.mpr ⟨s', he, rfl⟩⟩
    injection hc

/-- A stream client that has closed its socket has read all that was sent to it, and so it does
not reset the connection. -/
lemma Mirrored.not_stream_of_reset (h : Mirrored serverFd epfd es s ds d)
    (hclean : ∀ e ∈ es, ¬ e.Fault) {fd : ℤ} (hreset : s.ResetOn fd) :
    ∃ p ∈ s.line, p.kind ≠ .stream ∧ p.Reset := by
  obtain ⟨i, hconn, p, hp, hstopped, hunread⟩ := hreset
  refine ⟨p, List.mem_of_getElem? hp, fun hstream => ?_, hstopped, hunread⟩
  obtain ⟨c, t, ht, rfl⟩ := h.matched.peer hp
  have hc : c = .stream := hstream
  subst hc
  have hacc : i < d.accepted :=
    h.matched.accepted ▸ lt_accepts (EpollServer.Inv.run h.server) hconn
  obtain ⟨hsession, hfault⟩ := h.clean_session hclean ht hacc
  have hheard := echo_client_heard hsession hfault
  have hleft : t.left = .stopped := hstopped
  rw [hleft] at hheard
  rcases hheard trivial with hdrained | ⟨hother, -⟩
  · exact hunread hdrained.2
  · exact hother rfl

end Mirrored

/-- A signal, or an `accept` that fails though there is a client. -/
def Process.Event.Stray : Process.Event → Bool
  | .step e => e.Stray
  | _ => false

/-- **The server serves its clients**: however many clients there are, a run has at most 163
events for each of them, and two for each signal and each failure of `accept`.  While the server
runs, the system can go on, without a failure unless there is a reset, exactly until all is
settled: the server waits, all clients have ended and their connections are closed, except for a
basic client to which nothing could be sent.  If the server has ended and no call has failed but
for the last `send`, then a client has closed its socket without reading all, and it is no stream
client. -/
theorem epoll_serves {us : List Process.Event} {x : Process}
    (hrun : Run Process.Step (.start serverFd epfd) us x) :
    us.length ≤ 163 * x.state.line.length + 2 * us.countP Process.Event.Stray + 2 ∧
      (∀ s, x = .running s →
        (Process.GoesOn s ↔ ¬ Settled (us.filterMap Process.Event.ofStep) s)) ∧
      ∀ s, x = .ended s → (∀ u ∈ us, ¬ u.Fault) → ∃ p ∈ s.line, p.kind ≠ .stream ∧ p.Reset := by
  have hcount : ∀ es : List Event,
      (es.map Process.Event.step).countP Process.Event.Stray = es.countP Event.Stray :=
    fun es => List.countP_map
  cases Process.Course.of_run hrun with
  | running es s hes =>
    obtain ⟨ds, d, h⟩ := mirrored_of_run hes
    have hlen := h.length_run
    refine ⟨?_, ?_, nofun⟩
    · rw [List.length_map, hcount, Process.state]
      omega
    · rintro _ ⟨⟩
      have hevents : (es.map Process.Event.step).filterMap Process.Event.ofStep = es := by
        rw [List.filterMap_map]
        exact List.filterMap_some
      rw [hevents]
      exact h.goesOn_iff
  | ended es s u hes hends =>
    obtain ⟨ds, d, h⟩ := mirrored_of_run hes
    have hlen := h.length_run
    refine ⟨?_, nofun, ?_⟩
    · rw [List.countP_append, hcount, List.length_append, List.length_map, List.length_singleton,
        Process.state]
      omega
    · rintro _ ⟨⟩ hclean
      cases hends with
      | sigpipe r chunk rest hs hreset =>
        exact h.not_stream_of_reset
          (fun e he => hclean _ (List.mem_append_left _ (List.mem_map_of_mem he))) hreset
      | waitFailed errno hs herr => exact absurd trivial (hclean (.waitFailed errno) (by simp))

/-- **Every client gets its own echo**: what a client reads is a part of what it has sent.  If
both have read to the end, then it is all of it exactly when no `send` of the server on the
connection was short.  If no call fails, the server reads all that a client sends before it
closes the connection, and a client that reads gets something, or everything that was sent back
if it reads to the end. -/
theorem epoll_echoes (hrun : Run Step (start serverFd epfd) es s) (hp : s.line[i]? = some p) :
    p.down.taken.Sublist p.up.written ∧
      (p.up.Drained → p.down.Drained → (p.down.taken = p.up.written ↔
        EpollServer.FullSends serverFd epfd i (es.filterMap Event.ofServer))) ∧
      ((∀ e ∈ es, ¬ e.Fault) → Done s i p → p.up.Drained ∧
        (p.kind.Reads → p.down.taken ≠ []) ∧ (p.kind = .stream → p.down.Drained)) := by
  obtain ⟨ds, d, h⟩ := mirrored_of_run hrun
  obtain ⟨c, t, ht, rfl⟩ := h.matched.peer hp
  refine ⟨?_, ?_, ?_⟩
  · exact t.down.taken_le.sublist.trans ((h.sublist ht).trans t.up.taken_le.sublist)
  · intro hup hdown
    have hsent : t.down.taken = s.server.sent i := hdown.2.trans (h.matched.wrote i c t ht)
    have hreceived : t.up.written = s.server.received i :=
      hup.2.symm.trans (h.matched.read i c t ht)
    rw [EpollServer.fullSends_iff_intact h.server, Relay.Intact]
    simp only [EpollServer.State.relay, Peer.of, hsent, hreceived, h.pending_of_ended ht hdown.1,
      List.append_nil]
    exact eq_comm
  · intro hclean hdone
    obtain ⟨hacc, hfin⟩ := h.finished_of_done ht hdone
    obtain ⟨hsession, hfault⟩ := h.clean_session hclean ht hacc
    exact echo_complete hsession hfault hfin

/-- A stream client that sends all its messages, and gets them back in one piece. -/
def streamEvents : List Event :=
  [.connect .stream, .client 0 (.sent 5), .client 0 (.sent 5), .client 0 (.sent 5),
    .client 0 .done, .server (.ready [3]), .server (.accepted 5 true),
    .server (.acceptFailed eagain), .server (.ready [5]),
    .server (.received (.data ⟨ascii "HELLOWORLDABCDE", by decide, by decide⟩)),
    .server (.sent (.taken 15)), .server (.received .eof),
    .client 0 (.got (ascii "HELLOWORLDABCDE")), .client 0 .eof, .client 0 .done]

lemma run_streamEvents : ∃ s, Run Step (start 3 4) streamEvents s ∧
    (decide (s.server.point = .wait ∧ s.server.accepts = 1 ∧
        EpollServer.acceptedFds s.server.log = ∅),
      s.line.map fun p => (decide (p.point = .stopped ∧ p.up.Drained ∧ p.down.Drained),
        p.up.written, p.down.taken)) =
      (true, [(true, ascii "HELLOWORLDABCDE", ascii "HELLOWORLDABCDE")]) :=
  Run.exists_of_foldlM (by decide +kernel)

/-- The client of the run, at its end. -/
lemma peer_streamEvents (h : s.line.map (fun p =>
      (decide (p.point = .stopped ∧ p.up.Drained ∧ p.down.Drained), p.up.written, p.down.taken)) =
      [(true, ascii "HELLOWORLDABCDE", ascii "HELLOWORLDABCDE")]) :
    ∃ p, s.line = [p] ∧ p.point = .stopped ∧ p.up.Drained ∧ p.down.Drained ∧
      p.down.taken = p.up.written := by
  obtain ⟨p, hline, hp⟩ := List.map_eq_singleton_iff.mp h
  simp only [Prod.mk.injEq, decide_eq_true_eq] at hp
  obtain ⟨⟨hstopped, hup, hdown⟩, hwritten, htaken⟩ := hp
  exact ⟨p, hline, hstopped, hup, hdown, htaken.trans hwritten.symm⟩

lemma settled_streamEvents : ∃ s, Run Step (start 3 4) streamEvents s ∧ s.line.length = 1 ∧
    ∀ es, Settled es s := by
  obtain ⟨s, hrun, hs⟩ := run_streamEvents
  simp only [Prod.mk.injEq, decide_eq_true_eq] at hs
  obtain ⟨⟨hwait, haccepts, hfds⟩, hline⟩ := hs
  obtain ⟨p, hline, hstopped, -⟩ := peer_streamEvents hline
  have hlen : s.line.length = 1 := by rw [hline, List.length_singleton]
  refine ⟨s, hrun, hlen, fun es => ⟨hwait, haccepts.trans hlen.symm, fun i p' hp => .inl ?_⟩⟩
  obtain ⟨hlt, -⟩ := List.getElem?_eq_some_iff.mp hp
  obtain rfl : i = 0 := by omega
  rw [hline, List.getElem?_cons_zero, Option.some.injEq] at hp
  subst hp
  refine ⟨hstopped, by omega, fun fd hfd => ?_⟩
  -- no descriptor of a client is open
  obtain ⟨_, _, h⟩ := mirrored_of_run hrun
  have hopen := ((EpollServer.Inv.run h.server).kernel.accepted fd).mpr (by simp [hfd])
  rw [hfds] at hopen
  exact absurd hopen (Finset.notMem_empty fd)

/-- A client of `02-close-states` has gone when its message is sent back, and the server reads the
message in two pieces. -/
def resetEvents : List Process.Event :=
  ([.connect .closing, .client 0 (.sent 5), .client 0 .done, .server (.ready [3]),
    .server (.accepted 5 true), .server (.acceptFailed eagain), .server (.ready [5]),
    .server (.received (.data ⟨ascii "hel", by decide, by decide⟩)), .server (.sent (.taken 3)),
    .server (.received (.data ⟨ascii "lo", by decide, by decide⟩))]).map .step ++ [.sigpipe]

lemma run_resetEvents : ∃ x, Run Process.Step (.start 3 4) resetEvents x ∧
    (match x with
      | .running _ => none
      | .ended s => some s.line.length) = some 1 :=
  Run.exists_of_foldlM (by decide +kernel)

theorem epoll_serves_stream :
    (∃ s, Run Process.Step (.start 3 4) ((streamEvents.take 11).map .step) (.running s) ∧
      Process.GoesOn s) ∧
    (∃ s, Run Process.Step (.start 3 4) (streamEvents.map .step) (.running s) ∧
      s.line.length = 1 ∧ ¬ Process.GoesOn s) ∧
    ∃ s, Run Process.Step (.start 3 4) resetEvents (.ended s) ∧
      ∃ p ∈ s.line, p.kind ≠ .stream ∧ p.Reset := by
  refine ⟨?_, ?_, ?_⟩
  · obtain ⟨s, hrun, hs⟩ : ∃ s, Run Step (start 3 4) (streamEvents.take 11) s ∧
        decide (s.server.point = .wait) = false := Run.exists_of_foldlM (by decide +kernel)
    refine ⟨s, Process.run_steps hrun, ?_⟩
    refine ((epoll_serves (Process.run_steps hrun)).2.1 s rfl).mpr fun hset => ?_
    exact of_decide_eq_false hs hset.1
  · obtain ⟨s, hrun, hlen, hset⟩ := settled_streamEvents
    exact ⟨s, Process.run_steps hrun, hlen, fun hgo =>
      ((epoll_serves (Process.run_steps hrun)).2.1 s rfl).mp hgo (hset _)⟩
  · obtain ⟨x, hrun, hx⟩ := run_resetEvents
    cases x with
    | running s => cases hx
    | ended s =>
      refine ⟨s, hrun, (epoll_serves hrun).2.2 s rfl ?_⟩
      simp [resetEvents, Process.Event.Fault, Event.Fault, Answer.Fault]

theorem epoll_echoes_stream :
    EpollServer.FullSends 3 4 0 (streamEvents.filterMap Event.ofServer) := by
  obtain ⟨s, hrun, hs⟩ := run_streamEvents
  simp only [Prod.mk.injEq] at hs
  obtain ⟨p, hline, -, hup, hdown, htaken⟩ := peer_streamEvents hs.2
  exact ((epoll_echoes hrun (by rw [hline]; rfl)).2.1 hup hdown).mp htaken

end EpollClients

end Network

end CsLab
