/-
The descriptors of the epoll server.

A batch of events names descriptors, and while it is worked off descriptors are closed and
their numbers handed out again.  The reports of a batch name different descriptors, and a
descriptor is closed on behalf of its own report only, so the reports that are left always
name open descriptors that stand for the connections they were reported for (`Batch`).
With this every call hits the connection it is meant for (`OnTarget`).
-/
import CsLab.Lib.Ledger
import CsLab.Lib.Log
import CsLab.Network.EpollServer

namespace CsLab

namespace Network

namespace EpollServer

open Ledger Log

variable {s s' : State} {e : Event} {es : List Event} {r : Report} {rest : List Report} {fd : ℤ}

/-! ### What the log says -/

/-- What a call does to the connections. -/
def Entry.connOp (e : Entry) : Option (Op ℕ) :=
  match e.call with
  | .accept => e.conn.map .acquire
  | .close => e.conn.map .release
  | _ => none

/-- What a call does to the descriptors. -/
def Entry.fdOp (e : Entry) : Option (Op ℤ) :=
  match e.call with
  | .accept => some (.acquire e.fd)
  | .close => some (.release e.fd)
  | _ => none

def connOps (log : List Entry) : List (Op ℕ) := log.filterMap Entry.connOp

/-- The connections that are open after the calls of a log. -/
def openConns (log : List Entry) : Finset ℕ := held ∅ (connOps log)

/-- The descriptors that were accepted in a log and not closed since. -/
def acceptedFds (log : List Entry) : Finset ℤ := held ∅ (log.filterMap Entry.fdOp)

/-- The call acts on what it is meant for, after the calls of a log.  On behalf of the report
of a client that is the connection that was reported, and it is open.  On behalf of the
listening socket it is the connection that was accepted just before. -/
def OnTarget (log : List Entry) (e : Entry) : Prop :=
  ∀ r, e.report = some r →
    match r.conn with
    | some c => e.fd = r.fd ∧ e.conn = some c ∧ c ∈ openConns log
    | none =>
      match e.call with
      | .accept => True
      | .epollCtlAdd => log.getLast? = some ⟨.accept, e.fd, e.conn, some r⟩
      | .close => log.getLast? = some ⟨.epollCtlAdd, e.fd, e.conn, some r⟩
      | _ => False

lemma connOps_append (log : List Entry) (e : Entry) :
    connOps (log ++ [e]) = connOps log ++ e.connOp.toList :=
  filterMap_append_singleton ..

lemma acceptedFds_append (log : List Entry) (e : Entry) :
    acceptedFds (log ++ [e]) = held (acceptedFds log) e.fdOp.toList := by
  rw [acceptedFds, filterMap_append_singleton, held_append]
  rfl

/-! ### The open descriptors -/

/-- What the kernel has for the server is what the log says. -/
structure Kernel (s : State) : Prop where
  custody : Custody s.conn s.accepts (connOps s.log)
  accepted : ∀ fd, fd ∈ acceptedFds s.log ↔ s.conn fd ≠ none
  server_free : s.conn s.serverFd = none
  epfd_free : s.conn s.epfd = none
  onTarget : Throughout OnTarget s.log

namespace Kernel

lemma mem_openConns (h : Kernel s) {c : ℕ} (hc : s.conn fd = some c) : c ∈ openConns s.log :=
  h.custody.mem_held hc

/-- A call that neither opens nor closes a connection. -/
lemma call (h : Kernel s) {report : Option Report} {c : Call} (hacc : c ≠ .accept)
    (hclose : c ≠ .close) (htarget : OnTarget s.log ⟨c, fd, s.conn fd, report⟩) :
    Kernel (s.call report c fd) := by
  have hconn : Entry.connOp ⟨c, fd, s.conn fd, report⟩ = none := by
    cases c <;> simp_all [Entry.connOp]
  have hfd : Entry.fdOp ⟨c, fd, s.conn fd, report⟩ = none := by
    cases c <;> simp_all [Entry.fdOp]
  refine ⟨?_, ?_, h.server_free, h.epfd_free, throughout_append_singleton.mpr ⟨h.onTarget, htarget⟩⟩
  · simp only [State.call, connOps_append, hconn, Option.toList_none, List.append_nil]
    exact h.custody
  · simp only [State.call, acceptedFds_append, hfd, Option.toList_none, held_nil]
    exact h.accepted

/-- `accept` gives an unused number to a new connection. -/
lemma accept (h : Kernel s) (hfd : s.Unused fd) (hr : r.conn = none) :
    Kernel ((s.opened fd).call (some r) .accept fd) := by
  obtain ⟨-, hserver, hep, hfree⟩ := hfd
  have hconn : Function.update s.conn fd (some s.accepts) fd = some s.accepts :=
    Function.update_self ..
  constructor
  · simp only [State.call, State.opened, connOps_append, Entry.connOp, hconn]
    exact h.custody.acquire hfree
  · intro fd'
    simp only [State.call, State.opened, acceptedFds_append, Entry.fdOp]
    rw [Option.toList_some, held_cons, held_nil, mem_after_acquire, h.accepted]
    by_cases heq : fd' = fd
    · subst heq
      simp
    · simp [heq]
  · simpa [State.call, State.opened, hserver.symm] using h.server_free
  · simpa [State.call, State.opened, hep.symm] using h.epfd_free
  · refine throughout_append_singleton.mpr ⟨h.onTarget, ?_⟩
    rintro r' ⟨⟩
    simp [hr]

/-- `close` of an open descriptor. -/
lemma close (h : Kernel s) {c : ℕ} (hc : s.conn fd = some c)
    (htarget : OnTarget s.log ⟨.close, fd, s.conn fd, some r⟩) : Kernel (s.close r fd) := by
  have hnone : ∀ fd', s.conn fd' = none → Function.update s.conn fd none fd' = none := by
    intro fd' hfd'
    rw [Function.update_apply]
    split
    · rfl
    · exact hfd'
  constructor
  · simp only [State.close, State.call, connOps_append, Entry.connOp, hc]
    exact h.custody.release hc
  · intro fd'
    simp only [State.close, State.call, acceptedFds_append, Entry.fdOp]
    rw [Option.toList_some, held_cons, held_nil, mem_after_release, h.accepted]
    by_cases heq : fd' = fd
    · subst heq
      simp
    · simp [heq]
  · exact hnone _ h.server_free
  · exact hnone _ h.epfd_free
  · exact throughout_append_singleton.mpr ⟨h.onTarget, htarget⟩

/-- `close` of a descriptor that no client has. -/
lemma close_other (h : Kernel s) (hfree : s.conn fd = none) : Kernel (s.call none .close fd) := by
  refine ⟨?_, ?_, h.server_free, h.epfd_free, throughout_append_singleton.mpr ⟨h.onTarget, ?_⟩⟩
  · simp only [State.call, connOps_append, Entry.connOp, hfree, Option.map_none, Option.toList_none,
      List.append_nil]
    exact h.custody
  · intro fd'
    simp only [State.call, acceptedFds_append, Entry.fdOp]
    rw [Option.toList_some, held_cons, held_nil, mem_after_release, h.accepted]
    refine ⟨And.right, fun hne => ⟨?_, hne⟩⟩
    rintro rfl
    exact hne hfree
  · rintro r' ⟨⟩

lemma advance (h : Kernel s) (rest : List Report) : Kernel (s.advance rest) := by
  cases rest with
  | nil => exact ⟨h.custody, h.accepted, h.server_free, h.epfd_free, h.onTarget⟩
  | cons r rest => exact ⟨h.custody, h.accepted, h.server_free, h.epfd_free, h.onTarget⟩

end Kernel

/-! ### The batch that is worked off -/

/-- The report that `main` works on, and those behind it. -/
def Point.reports : Point → List Report
  | .accepting r rest => r :: rest
  | .receiving r rest => r :: rest
  | .sending r _ rest => r :: rest
  | _ => []

/-- The branch of the loop body is the one for the report. -/
def Point.Suits (serverFd : ℤ) : Point → Prop
  | .accepting r _ => r.fd = serverFd
  | .receiving r _ => r.fd ≠ serverFd
  | .sending r _ _ => r.fd ≠ serverFd
  | _ => True

/-- The report is about a descriptor that is open, and stands for the connection it was
reported for. -/
def Fresh (s : State) (r : Report) : Prop :=
  s.conn r.fd = r.conn ∧ (r.fd ≠ s.serverFd → r.conn ≠ none)

/-- The reports name different descriptors, and all are fresh. -/
structure Batch (s : State) (rs : List Report) : Prop where
  nodup : (rs.map Report.fd).Nodup
  fresh : ∀ r ∈ rs, Fresh s r

/-- The interest list has the listening socket and the open connections. -/
def Registered (s : State) : Prop := ∀ fd, fd ∈ s.interest ↔ fd = s.serverFd ∨ s.conn fd ≠ none

namespace Batch

variable {rs : List Report}

lemma tail (h : Batch s (r :: rest)) : Batch s rest :=
  ⟨h.nodup.of_cons, fun r' hr' => h.fresh r' (List.mem_cons_of_mem _ hr')⟩

lemma head (h : Batch s (r :: rest)) : Fresh s r := h.fresh r (List.mem_cons_self ..)

lemma same (h : Batch s rs) (hserver : s'.serverFd = s.serverFd) (hconn : s'.conn = s.conn) :
    Batch s' rs := by
  refine ⟨h.nodup, fun r hr => ?_⟩
  rw [Fresh, hserver, hconn]
  exact h.fresh r hr

/-- What happens to a descriptor that no report names leaves the batch as it is. -/
lemma update (h : Batch s rs) {c : Option ℕ} (hfd : ∀ r ∈ rs, r.fd ≠ fd)
    (hserver : s'.serverFd = s.serverFd) (hconn : s'.conn = Function.update s.conn fd c) :
    Batch s' rs := by
  refine ⟨h.nodup, fun r hr => ?_⟩
  rw [Fresh, hserver, hconn, Function.update_of_ne (hfd r hr)]
  exact h.fresh r hr

/-- The kernel gives a new connection no number that a report names. -/
lemma ne_of_unused (h : Batch s rs) (hfd : s.Unused fd) : ∀ r ∈ rs, r.fd ≠ fd := by
  rintro r hr rfl
  obtain ⟨-, hserver, -, hfree⟩ := hfd
  obtain ⟨hconn, hne⟩ := h.fresh r hr
  exact hne hserver (hconn ▸ hfree)

/-- What `epoll_wait` returns is a fresh batch. -/
lemma ready (hreg : Registered s) {fds : List ℤ} (hfds : s.Ready fds) :
    Batch s (fds.map fun fd => ⟨fd, s.conn fd⟩) := by
  obtain ⟨-, hnodup, hin⟩ := hfds
  constructor
  · rw [List.map_map]
    simpa [Function.comp_def] using hnodup
  · intro r hr
    obtain ⟨fd, hfd, rfl⟩ := List.mem_map.mp hr
    exact ⟨rfl, fun hne => ((hreg fd).mp (hin fd hfd)).resolve_left hne⟩

end Batch

/-! ### Steps -/

/-- What holds between two steps. -/
structure Inv (s : State) : Prop where
  kernel : Kernel s
  registered : Registered s
  batch : Batch s s.point.reports
  suits : s.point.Suits s.serverFd

lemma Inv.start (serverFd epfd : ℕ) : Inv (start serverFd epfd) where
  kernel :=
    { custody := Custody.start
      accepted := by simp [acceptedFds, EpollServer.start]
      server_free := rfl
      epfd_free := rfl
      onTarget := throughout_nil }
  registered := by simp [Registered, EpollServer.start]
  batch := ⟨List.nodup_nil, by simp [EpollServer.start, Point.reports]⟩
  suits := trivial

/-- The loop goes on with the rest of the batch. -/
lemma Inv.advance (hkernel : Kernel s) (hreg : Registered s) (hbatch : Batch s rest) :
    Inv (s.advance rest) := by
  refine ⟨hkernel.advance rest, ?_, ?_, ?_⟩
  · cases rest with
    | nil => exact hreg
    | cons r rest => exact hreg
  · cases rest with
    | nil => exact hbatch.same rfl rfl
    | cons r rest =>
      simp only [State.advance]
      split
      · exact hbatch.same rfl rfl
      · exact hbatch.same rfl rfl
  · cases rest with
    | nil => trivial
    | cons r rest =>
      simp only [State.advance]
      split
      · next heq => exact heq
      · next hne => exact hne

/-- A call on behalf of the report of a client that is worked on. -/
lemma onTarget_client (h : Kernel s) {c : Call} (hfresh : Fresh s r) (hr : r.fd ≠ s.serverFd) :
    OnTarget s.log ⟨c, r.fd, s.conn r.fd, some r⟩ := by
  obtain ⟨hconn, hne⟩ := hfresh
  obtain ⟨c', hc'⟩ := Option.ne_none_iff_exists'.mp (hne hr)
  rintro r' ⟨⟩
  rw [hc'] at hconn
  simp only [hc']
  exact ⟨trivial, hconn, h.mem_openConns hconn⟩

lemma Kernel.client_call (h : Kernel s) {c : Call} (hacc : c ≠ .accept) (hclose : c ≠ .close)
    (hfresh : Fresh s r) (hr : r.fd ≠ s.serverFd) : Kernel (s.call (some r) c r.fd) :=
  h.call hacc hclose (onTarget_client h hfresh hr)

/-- The connection of the report is closed: its descriptor leaves the interest list, and the
other reports are still fresh. -/
lemma Inv.disconnect (hkernel : Kernel s) (hreg : Registered s) (hbatch : Batch s (r :: rest))
    (hr : r.fd ≠ s.serverFd) : Inv ((s.disconnect r).advance rest) := by
  have hdel : Kernel (s.call (some r) .epollCtlDel r.fd) :=
    hkernel.client_call (by simp) (by simp) hbatch.head hr
  have hdel' : Kernel { s.call (some r) .epollCtlDel r.fd with
      interest := s.interest.erase r.fd } :=
    ⟨hdel.custody, hdel.accepted, hdel.server_free, hdel.epfd_free, hdel.onTarget⟩
  obtain ⟨hconn, hne⟩ := hbatch.head
  obtain ⟨c, hc⟩ := Option.ne_none_iff_exists'.mp (hne hr)
  refine .advance ?_ ?_ ?_
  · exact hdel'.close (hconn.trans hc) (onTarget_client hdel' hbatch.head hr)
  · intro fd
    simp only [State.disconnect, State.close, State.call, Finset.mem_erase, hreg fd]
    by_cases heq : fd = r.fd
    · subst heq
      simp [hr]
    · simp [heq]
  · refine hbatch.tail.update ?_ rfl rfl
    intro r' hr' heq
    exact (List.nodup_cons.mp hbatch.nodup).1 (heq ▸ List.mem_map_of_mem hr')

/-- A new connection. -/
lemma Inv.newClient (h : Inv s) (hs : s.point = .accepting r rest) (hfd : s.Unused fd)
    (added : Bool) : Inv (s.newClient r fd added) := by
  have hbatch : Batch s (r :: rest) := by simpa [hs, Point.reports] using h.batch
  have hsuits : r.fd = s.serverFd := by simpa [hs, Point.Suits] using h.suits
  have hr : r.conn = none := by
    rw [← hbatch.head.1, hsuits]
    exact h.kernel.server_free
  have hacc := h.kernel.accept hfd hr
  have hne := hbatch.ne_of_unused hfd
  have hfree := hfd.2.2.2
  -- the descriptor is added to the interest list
  have hadd : Kernel (((s.opened fd).call (some r) .accept fd).call (some r) .epollCtlAdd fd) := by
    refine hacc.call (by simp) (by simp) ?_
    rintro r' ⟨⟩
    simp [hr, State.call]
  cases added with
  | true =>
    refine ⟨⟨hadd.custody, hadd.accepted, hadd.server_free, hadd.epfd_free, hadd.onTarget⟩, ?_, ?_,
      ?_⟩
    · intro fd'
      simp only [State.newClient, State.call, State.opened, if_true, Finset.mem_insert,
        h.registered fd']
      by_cases heq : fd' = fd
      · simp [heq]
      · simp [heq]
    · have hbatch' : Batch (s.newClient r fd true) (r :: rest) := hbatch.update hne rfl rfl
      simpa [State.newClient, State.call, State.opened, hs, Point.reports] using hbatch'
    · simpa [State.newClient, State.call, State.opened, hs, Point.Suits] using hsuits
  -- it cannot be added, and is closed at once
  | false =>
    have hconn : (((s.opened fd).call (some r) .accept fd).call (some r) .epollCtlAdd fd).conn fd =
        some s.accepts := Function.update_self ..
    have hback : (s.newClient r fd false).conn = s.conn := by
      simp [State.newClient, State.close, State.call, State.opened, ← hfree]
    refine ⟨hadd.close hconn ?_, ?_, ?_, ?_⟩
    · rintro r' ⟨⟩
      simp [hr, State.call]
    · intro fd'
      rw [hback]
      simp only [State.newClient, State.close, State.call, State.opened, Bool.false_eq_true,
        if_false, Finset.mem_erase, h.registered fd']
      by_cases heq : fd' = fd
      · subst heq
        simp [hfree, hfd.2.1]
      · simp [heq]
    · have hbatch' : Batch (s.newClient r fd false) (r :: rest) := hbatch.same rfl hback
      simpa [State.newClient, State.close, State.call, State.opened, hs, Point.reports] using
        hbatch'
    · simpa [State.newClient, State.close, State.call, State.opened, hs, Point.Suits] using hsuits

namespace State

lemma receive_eq (s : State) (fd : ℤ) (data : List UInt8) :
    ∃ received, s.receive fd data = { s with received := received } := by
  unfold receive
  split
  · exact ⟨_, rfl⟩
  · exact ⟨_, rfl⟩

lemma take_eq (s : State) (fd : ℤ) (data : List UInt8) :
    ∃ sent, s.take fd data = { s with sent := sent } := by
  unfold take
  split
  · exact ⟨_, rfl⟩
  · exact ⟨_, rfl⟩

end State

lemma Inv.recvTurn (h : Inv s) (hs : s.point = .receiving r rest) (answer : Recv) :
    Inv (s.recvTurn r rest answer) := by
  have hbatch : Batch s (r :: rest) := by simpa [hs, Point.reports] using h.batch
  have hr : r.fd ≠ s.serverFd := by simpa [hs, Point.Suits] using h.suits
  have hrecv : Kernel (s.call (some r) .recv r.fd) :=
    h.kernel.client_call (by simp) (by simp) hbatch.head hr
  have hbatch' : Batch (s.call (some r) .recv r.fd) (r :: rest) := hbatch.same rfl rfl
  cases answer with
  | data chunk =>
    obtain ⟨received, heq⟩ := (s.call (some r) .recv r.fd).receive_eq r.fd chunk.bytes
    simp only [State.recvTurn, heq]
    exact ⟨⟨hrecv.custody, hrecv.accepted, hrecv.server_free, hrecv.epfd_free, hrecv.onTarget⟩,
      h.registered, hbatch.same rfl rfl, hr⟩
  | eof => exact .disconnect hrecv h.registered hbatch' hr
  | failed errno =>
    simp only [State.recvTurn]
    split
    · exact .advance hrecv h.registered hbatch'.tail
    · exact .disconnect hrecv h.registered hbatch' hr

lemma Inv.sendTurn (h : Inv s) {chunk : Chunk} (hs : s.point = .sending r chunk rest)
    (answer : Send) : Inv (s.sendTurn r chunk rest answer) := by
  have hbatch : Batch s (r :: rest) := by simpa [hs, Point.reports] using h.batch
  have hr : r.fd ≠ s.serverFd := by simpa [hs, Point.Suits] using h.suits
  have hsend : Kernel (s.call (some r) .send r.fd) :=
    h.kernel.client_call (by simp) (by simp) hbatch.head hr
  obtain ⟨sent, heq⟩ := (s.call (some r) .send r.fd).take_eq r.fd (answer.bytes chunk.bytes)
  simp only [State.sendTurn, heq]
  exact ⟨⟨hsend.custody, hsend.accepted, hsend.server_free, hsend.epfd_free, hsend.onTarget⟩,
    h.registered, hbatch.same rfl rfl, hr⟩

lemma Inv.step (h : Inv s) (hstep : Step s e s') : Inv s' := by
  cases Move.of_step hstep with
  | ready fds hs hfds => exact .advance h.kernel h.registered (.ready h.registered hfds)
  | interrupted hs => exact h
  | waitFailed errno hs =>
    have hclosed := (h.kernel.close_other h.kernel.server_free).close_other h.kernel.epfd_free
    exact ⟨⟨hclosed.custody, hclosed.accepted, hclosed.server_free, hclosed.epfd_free,
      hclosed.onTarget⟩, h.registered, ⟨List.nodup_nil, by simp [State.shutdown, Point.reports]⟩,
      trivial⟩
  | accepted r rest fd added hs hfd => exact h.newClient hs hfd added
  | acceptFailed r rest errno hs =>
    have hbatch : Batch s (r :: rest) := by simpa [hs, Point.reports] using h.batch
    exact .advance h.kernel h.registered hbatch.tail
  | received r rest answer hs hcan => exact h.recvTurn hs answer
  | sent r chunk rest answer hs hcan => exact h.sendTurn hs answer

lemma Inv.run {serverFd epfd : ℕ} (hrun : Run Step (EpollServer.start serverFd epfd) es s) :
    Inv s :=
  hrun.invariant (fun _ _ _ h hstep => h.step hstep) (start serverFd epfd)

/-- **No stale descriptors**: in every run, each call on behalf of an event acts on the
connection that the event was reported for, while it is open; the client descriptors in the
interest list are those that were accepted and not closed; and no connection is closed
twice. -/
theorem no_stale_descriptors {serverFd epfd : ℕ}
    (hrun : Run Step (start serverFd epfd) es s) :
    Throughout OnTarget s.log ∧
      (∀ fd, fd ∈ s.interest ∧ fd ≠ s.serverFd ↔ fd ∈ acceptedFds s.log) ∧
      ∀ c, (connOps s.log).count (.acquire c) ≤ 1 ∧ (connOps s.log).count (.release c) ≤ 1 := by
  have h := Inv.run hrun
  refine ⟨h.kernel.onTarget, fun fd => ?_, fun c => ?_⟩
  · rw [h.registered, h.kernel.accepted]
    constructor
    · rintro ⟨hserver | hopen, hne⟩
      · exact absurd hserver hne
      · exact hopen
    · intro hopen
      refine ⟨.inr hopen, ?_⟩
      rintro rfl
      exact hopen h.kernel.server_free
  · rw [h.kernel.custody.numbered.count_acquire, h.kernel.custody.numbered.count_release]
    constructor
    · split <;> omega
    · split <;> omega

/-- In one batch a client hangs up, and a new one gets the number of its descriptor. -/
def reuseEvents : List Event :=
  [.ready [3], .accepted 5 true, .acceptFailed eagain,
    .ready [5, 3], .received .eof, .accepted 5 true, .acceptFailed eagain]

theorem no_stale_descriptors_reuse :
    ∃ s, Run Step (start 3 4) reuseEvents s ∧
      Throughout OnTarget s.log ∧
        (∀ fd, fd ∈ s.interest ∧ fd ≠ s.serverFd ↔ fd ∈ acceptedFds s.log) ∧
        ∀ c, (connOps s.log).count (.acquire c) ≤ 1 ∧ (connOps s.log).count (.release c) ≤ 1 := by
  have hsome : (reuseEvents.foldlM exec (start 3 4)).isSome := by decide +kernel
  obtain ⟨s, hs⟩ := Option.isSome_iff_exists.mp hsome
  have hrun : Run Step (start 3 4) reuseEvents s := .of_foldlM hs
  exact ⟨s, hrun, no_stale_descriptors hrun⟩

end EpollServer

end Network

end CsLab
