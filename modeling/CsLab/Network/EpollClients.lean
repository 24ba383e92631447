/-
The epoll server with its clients.

In `EpollServer` the kernel answers what it likes.  Here the answers come from the clients of the
laboratory: each connection has the two streams of a session, `recv` gives what the client has
sent, `epoll_wait` reports that there is something to read or a client to accept, and not
otherwise, and `EAGAIN` means that there is nothing.  Calls may still fail, and a signal may
interrupt `epoll_wait`.

The server ends in two ways, which `Process` adds: any other failure of `epoll_wait` ends its
loop, and a `send` on a connection that the client has reset may come with `SIGPIPE`, which the
code neither ignores nor handles.

Not in the model: what the clients do after the server has ended, and `SIGPIPE` of a client that
sends on a connection that the server has closed; there its `send` fails, and it goes on.
-/
import CsLab.Network.ClientPrograms
import CsLab.Network.EpollServer

namespace CsLab

namespace Network

namespace EpollClients

open Session
open EpollServer (Report)

/-- The `errno` of a `send` on a connection that was reset -/
abbrev epipe : ℕ := 32

/-- A client that has connected, where it stands, and the two streams. -/
structure Peer where
  kind : Client
  point : ClientPoint
  /-- to the server -/
  up : Pipe UInt8
  /-- from the server -/
  down : Pipe UInt8

namespace Peer

def new (c : Client) : Peer := ⟨c, .sending c.messages, .fresh, .fresh⟩

/-- The server can read data or the end of the stream. -/
def Readable (p : Peer) : Prop := p.up.taken ≠ p.up.written ∨ p.up.ended = true

instance : DecidablePred Readable := fun _ => inferInstanceAs (Decidable (_ ∨ _))

/-- A call of the client. -/
def act (p : Peer) (answer : Answer UInt8) : Option Peer :=
  ((p.kind.program p.point).exec p.down p.up answer).map fun out =>
    { p with point := out.1, down := out.2.1, up := out.2.2 }

/-- What a `recv` of the server does to the streams, and the `close` behind it; `none` if it
cannot return this. -/
def recv (p : Peer) : Recv → Option Peer
  | .data chunk =>
    if h : p.up.Offers (bufSize - 1) chunk.bytes then
      some { p with up := p.up.take chunk.bytes h.2.2 }
    else none
  | .eof => if p.up.Drained then some { p with down := p.down.finish } else none
  | .failed errno =>
    if errno = eagain ∨ errno = ewouldblock then
      if p.Readable then none else some p
    else some { p with down := p.down.finish }

/-- What a `send` of the server does to the streams.  From one that fails with `EPIPE` the server
does not come back. -/
def send (p : Peer) (chunk : Chunk) : Send → Option Peer
  | .taken k => if k = 0 then none else some { p with down := p.down.write (chunk.bytes.take k) }
  | .failed errno => if errno = epipe then none else some p

/-- The client has closed its socket with something unread, or something was sent to it
afterwards: its kernel answers with a reset. -/
def Reset (p : Peer) : Prop := p.point = .stopped ∧ p.down.taken ≠ p.down.written

instance : DecidablePred Reset := fun _ => inferInstanceAs (Decidable (_ ∧ _))

end Peer

/-- The server, and the clients in the order in which they have connected; the client `i` is the
other end of the connection `i`. -/
structure State where
  server : EpollServer.State
  line : List Peer

namespace State

/-- There is a client to accept, or something to read on the connection. -/
def Awaited (s : State) : Option ℕ → Prop
  | none => s.server.accepts < s.line.length
  | some i => ∃ p ∈ s.line[i]?, p.Readable

instance (s : State) : DecidablePred s.Awaited
  | none => inferInstanceAs (Decidable (_ < _))
  | some _ => inferInstanceAs (Decidable (∃ _ ∈ _, _))

/-- The call of the server acts on the streams of the connection behind the descriptor. -/
def onConn (s : State) (fd : ℤ) (f : Peer → Option Peer) : Option (List Peer) :=
  (s.server.conn fd).bind fun i => (s.line[i]?).bind fun p => (f p).map fun p' => s.line.set i p'

/-- The client behind the descriptor has reset the connection. -/
def ResetOn (s : State) (fd : ℤ) : Prop :=
  ∃ i ∈ s.server.conn fd, ∃ p ∈ s.line[i]?, p.Reset

instance (s : State) : DecidablePred s.ResetOn := fun _ => inferInstanceAs (Decidable (∃ _ ∈ _, _))

/-- What a step of the server does to the clients; `none` if they do not allow it. -/
def wire (s : State) (e : EpollServer.Event) : Option (List Peer) :=
  match s.server.point, e with
  | .wait, .ready fds =>
    if fds ≠ [] ∧ ∀ fd ∈ fds, s.Awaited (s.server.conn fd) then some s.line else none
  | .wait, .waitFailed errno => if errno = eintr then some s.line else none
  | .accepting _ _, .accepted _ added =>
    (s.line[s.server.accepts]?).map fun p =>
      -- a client that cannot be added is closed at once
      if added then s.line else s.line.set s.server.accepts { p with down := p.down.finish }
  | .accepting _ _, .acceptFailed errno =>
    if (errno = eagain ∨ errno = ewouldblock) ∧ s.Awaited none then none else some s.line
  | .receiving r _, .received answer => s.onConn r.fd fun p => p.recv answer
  | .sending r chunk _, .sent answer => s.onConn r.fd fun p => p.send chunk answer
  | _, _ => none

end State

inductive Event where
  | connect (c : Client)
  /-- a call of the client `i` -/
  | client (i : ℕ) (answer : Answer UInt8)
  /-- a step of the server -/
  | server (e : EpollServer.Event)
deriving DecidableEq

/-- The step of the server, if it is one. -/
def Event.ofServer : Event → Option EpollServer.Event
  | .server e => some e
  | _ => none

def exec (s : State) : Event → Option State
  | .connect c => some { s with line := s.line ++ [.new c] }
  | .client i answer =>
    (s.line[i]?).bind fun p => (p.act answer).map fun p' => { s with line := s.line.set i p' }
  | .server e =>
    (EpollServer.exec s.server e).bind fun server => (s.wire e).map fun line => ⟨server, line⟩

abbrev Step : State → Event → State → Prop := stepOf exec

/-- A call fails, or a client is turned away. -/
def Event.Fault : Event → Prop
  | .connect _ => False
  | .client _ answer => answer.Fault
  | .server (.accepted _ added) => added = false
  | .server (.acceptFailed errno) => errno ≠ eagain ∧ errno ≠ ewouldblock
  | .server (.received (.failed errno)) => errno ≠ eagain ∧ errno ≠ ewouldblock
  | .server (.sent (.failed _)) => True
  | .server (.waitFailed _) => True
  | .server _ => False

/-- A signal, or an `accept` that fails though there is a client: they change nothing, and may
come at any time. -/
def Event.Stray : Event → Bool
  | .server (.acceptFailed errno) => errno ≠ eagain ∧ errno ≠ ewouldblock
  | .server (.waitFailed _) => true
  | _ => false

/-- The event is one of a session, or of the line in front of the server. -/
def Event.Works : Event → Prop
  | .server (.ready _) => False
  | .server (.waitFailed _) => False
  | .server (.acceptFailed _) => False
  | .server (.received (.failed errno)) => errno ≠ eagain ∧ errno ≠ ewouldblock
  | _ => True

/-- The server waits, and nobody has connected yet. -/
def start (serverFd epfd : ℕ) : State := ⟨EpollServer.start serverFd epfd, []⟩

/-! ### The end of the server -/

/-- The process of the server, with the clients around it. -/
inductive Process where
  | running (s : State)
  /-- the server has ended where it stood -/
  | ended (s : State)

namespace Process

inductive Event where
  | step (e : EpollClients.Event)
  /-- a `send` fails with `EPIPE`, and the signal ends the process -/
  | sigpipe
  /-- `epoll_wait` fails, and not because of a signal -/
  | waitFailed (errno : ℕ)
deriving DecidableEq

/-- The step of the server or of a client, if it is one. -/
def Event.ofStep : Event → Option EpollClients.Event
  | .step e => some e
  | _ => none

/-- A call fails, or a client is turned away; `EPIPE` has an event of its own. -/
def Event.Fault : Event → Prop
  | .step e => e.Fault
  | .sigpipe => False
  | .waitFailed _ => True

def exec : Process → Event → Option Process
  | .running s, .step e => (EpollClients.exec s e).map .running
  | .running s, .sigpipe =>
    match s.server.point with
    | .sending r _ _ => if s.ResetOn r.fd then some (.ended s) else none
    | _ => none
  | .running s, .waitFailed errno =>
    if s.server.point = .wait ∧ errno ≠ eintr then some (.ended s) else none
  | .ended _, _ => none

abbrev Step : Process → Event → Process → Prop := stepOf exec

def start (serverFd epfd : ℕ) : Process := .running (EpollClients.start serverFd epfd)

/-- The server and the clients, as they are or as they were when the server ended. -/
def state : Process → State
  | .running s => s
  | .ended s => s

end Process

/-! ### Steps -/

variable {s s' : State} {e : Event} {es : List Event} {i j : ℕ} {p p' : Peer}

/-- What a step can be. -/
inductive Move (s : State) : Event → State → Prop
  | connect (c : Client) : Move s (.connect c) { s with line := s.line ++ [.new c] }
  | client (i : ℕ) (answer : Answer UInt8) (p p' : Peer) (hp : s.line[i]? = some p)
      (hact : p.act answer = some p') :
      Move s (.client i answer) { s with line := s.line.set i p' }
  | ready (fds : List ℤ) (hs : s.server.point = .wait) (hfds : s.server.Ready fds)
      (hne : fds ≠ []) (hawaited : ∀ fd ∈ fds, s.Awaited (s.server.conn fd)) :
      Move s (.server (.ready fds))
        ⟨s.server.advance (fds.map fun fd => ⟨fd, s.server.conn fd⟩), s.line⟩
  | interrupted (hs : s.server.point = .wait) : Move s (.server (.waitFailed eintr)) s
  | accepted (r : Report) (rest : List Report) (fd : ℤ) (p : Peer)
      (hs : s.server.point = .accepting r rest) (hfd : s.server.Unused fd)
      (hp : s.line[s.server.accepts]? = some p) :
      Move s (.server (.accepted fd true)) ⟨s.server.newClient r fd true, s.line⟩
  | refused (r : Report) (rest : List Report) (fd : ℤ) (p : Peer)
      (hs : s.server.point = .accepting r rest) (hfd : s.server.Unused fd)
      (hp : s.line[s.server.accepts]? = some p) :
      Move s (.server (.accepted fd false)) ⟨s.server.newClient r fd false,
        s.line.set s.server.accepts { p with down := p.down.finish }⟩
  | acceptFailed (r : Report) (rest : List Report) (errno : ℕ)
      (hs : s.server.point = .accepting r rest)
      (hno : errno = eagain ∨ errno = ewouldblock → ¬ s.Awaited none) :
      Move s (.server (.acceptFailed errno)) ⟨s.server.advance rest, s.line⟩
  | received (r : Report) (rest : List Report) (answer : Recv) (i : ℕ) (p p' : Peer)
      (hs : s.server.point = .receiving r rest) (hconn : s.server.conn r.fd = some i)
      (hp : s.line[i]? = some p) (hrecv : p.recv answer = some p') :
      Move s (.server (.received answer)) ⟨s.server.recvTurn r rest answer, s.line.set i p'⟩
  | sent (r : Report) (chunk : Chunk) (rest : List Report) (answer : Send) (i : ℕ) (p p' : Peer)
      (hs : s.server.point = .sending r chunk rest) (hconn : s.server.conn r.fd = some i)
      (hcan : s.server.CanSend r.fd chunk answer) (hp : s.line[i]? = some p)
      (hsend : p.send chunk answer = some p') :
      Move s (.server (.sent answer)) ⟨s.server.sendTurn r chunk rest answer, s.line.set i p'⟩

lemma State.of_onConn {fd : ℤ} {f : Peer → Option Peer} {line : List Peer}
    (h : s.onConn fd f = some line) : ∃ i p p', s.server.conn fd = some i ∧
      s.line[i]? = some p ∧ f p = some p' ∧ line = s.line.set i p' := by
  obtain ⟨i, hconn, h⟩ := Option.bind_eq_some_iff.mp h
  obtain ⟨p, hp, h⟩ := Option.bind_eq_some_iff.mp h
  obtain ⟨p', hf, rfl⟩ := Option.map_eq_some_iff.mp h
  exact ⟨i, p, p', hconn, hp, hf, rfl⟩

lemma Move.of_step (h : Step s e s') : Move s e s' := by
  cases e with
  | connect c =>
    cases h
    exact .connect c
  | client i answer =>
    obtain ⟨p, hp, h⟩ := Option.bind_eq_some_iff.mp h
    obtain ⟨p', hact, rfl⟩ := Option.map_eq_some_iff.mp h
    exact .client i answer p p' hp hact
  | server e =>
    obtain ⟨server, hserver, h⟩ := Option.bind_eq_some_iff.mp h
    obtain ⟨line, hwire, rfl⟩ := Option.map_eq_some_iff.mp h
    cases EpollServer.Move.of_step hserver with
    | ready fds hs hfds =>
      simp only [State.wire, hs, Option.ite_none_right_eq_some, Option.some.injEq] at hwire
      obtain ⟨⟨hne, hawaited⟩, rfl⟩ := hwire
      exact .ready fds hs hfds hne hawaited
    | interrupted hs =>
      simp only [State.wire, hs, if_true, Option.some.injEq] at hwire
      subst hwire
      exact .interrupted hs
    | waitFailed errno hs =>
      simp only [State.wire, hs, Option.ite_none_right_eq_some, Option.some.injEq] at hwire
      obtain ⟨rfl, rfl⟩ := hwire
      -- a signal does not end the loop
      simp only [EpollServer.exec, hs, if_true, Option.some.injEq] at hserver
      have hdone := congrArg EpollServer.State.point hserver
      rw [hs] at hdone
      cases hdone
    | accepted r rest fd added hs hfd =>
      simp only [State.wire, hs] at hwire
      obtain ⟨p, hp, rfl⟩ := Option.map_eq_some_iff.mp hwire
      cases added with
      | true => exact .accepted r rest fd p hs hfd hp
      | false => exact .refused r rest fd p hs hfd hp
    | acceptFailed r rest errno hs =>
      simp only [State.wire, hs, Option.ite_none_left_eq_some, Option.some.injEq] at hwire
      obtain ⟨hno, rfl⟩ := hwire
      exact .acceptFailed r rest errno hs fun herr hawaited => hno ⟨herr, hawaited⟩
    | received r rest answer hs hcan =>
      simp only [State.wire, hs] at hwire
      obtain ⟨i, p, p', hconn, hp, hrecv, rfl⟩ := State.of_onConn hwire
      exact .received r rest answer i p p' hs hconn hp hrecv
    | sent r chunk rest answer hs hcan =>
      simp only [State.wire, hs] at hwire
      obtain ⟨i, p, p', hconn, hp, hsend, rfl⟩ := State.of_onConn hwire
      exact .sent r chunk rest answer i p p' hs hconn hcan hp hsend

/-- The steps of the server are a run of the server by itself. -/
lemma Step.server (h : Step s e s') :
    Run EpollServer.Step s.server e.ofServer.toList s'.server := by
  cases e with
  | connect c =>
    cases h
    exact .nil _
  | client i answer =>
    obtain ⟨p, -, h⟩ := Option.bind_eq_some_iff.mp h
    obtain ⟨p', -, rfl⟩ := Option.map_eq_some_iff.mp h
    exact .nil _
  | server e =>
    obtain ⟨server, hserver, h⟩ := Option.bind_eq_some_iff.mp h
    obtain ⟨line, -, rfl⟩ := Option.map_eq_some_iff.mp h
    exact .single hserver

namespace Process

variable {x x' : Process} {u : Event}

/-- How a server ends: it sends on a connection that the client has reset, or its `epoll_wait`
fails. -/
inductive Ends (s : State) : Event → Prop
  | sigpipe (r : Report) (chunk : Chunk) (rest : List Report)
      (hs : s.server.point = .sending r chunk rest) (hreset : s.ResetOn r.fd) : Ends s .sigpipe
  | waitFailed (errno : ℕ) (hs : s.server.point = .wait) (herr : errno ≠ eintr) :
      Ends s (.waitFailed errno)

/-- What a step can be. -/
inductive Move : Process → Event → Process → Prop
  | step (s : State) (e : EpollClients.Event) (s' : State) (hstep : EpollClients.Step s e s') :
      Move (.running s) (.step e) (.running s')
  | ended (s : State) (u : Event) (hends : Ends s u) : Move (.running s) u (.ended s)

lemma Move.of_step (h : Step x u x') : Move x u x' := by
  cases x with
  | ended s => cases h
  | running s =>
    cases u with
    | step e =>
      obtain ⟨s', hstep, rfl⟩ := Option.map_eq_some_iff.mp h
      exact .step s e s' hstep
    | sigpipe =>
      simp only [Step, stepOf, exec] at h
      split at h
      · next r chunk rest hs =>
        obtain ⟨hreset, ⟨⟩⟩ := Option.ite_none_right_eq_some.mp h
        exact .ended s _ (.sigpipe r chunk rest hs hreset)
      · cases h
    | waitFailed errno =>
      obtain ⟨⟨hs, herr⟩, ⟨⟩⟩ := Option.ite_none_right_eq_some.mp h
      exact .ended s _ (.waitFailed errno hs herr)

/-- A run of the process is one of the server with its clients, and its end if it has ended. -/
inductive Course (s : State) : List Event → Process → Prop
  | running (es : List EpollClients.Event) (s' : State) (hrun : Run EpollClients.Step s es s') :
      Course s (es.map .step) (.running s')
  | ended (es : List EpollClients.Event) (s' : State) (u : Event)
      (hrun : Run EpollClients.Step s es s') (hends : Ends s' u) :
      Course s (es.map .step ++ [u]) (.ended s')

lemma Course.of_run {s : State} {us : List Event} (h : Run Step (.running s) us x) :
    Course s us x := by
  refine h.history (I := fun us x => Course s us x) (.running [] s (.nil s)) ?_
  intro us x₁ u x₂ _ hcourse hstep
  cases hcourse with
  | running es s₁ hrun =>
    cases Move.of_step hstep with
    | step _ e s₂ hlast =>
      have hcourse := Course.running (es ++ [e]) s₂ (hrun.append (.single hlast))
      rwa [List.map_append] at hcourse
    | ended _ u hends => exact .ended es s₁ u hrun hends
  | ended es s₁ u hrun hends => cases hstep

lemma run_steps {s s' : State} {es : List EpollClients.Event} (h : Run EpollClients.Step s es s') :
    Run Step (.running s) (es.map .step) (.running s') := by
  induction h with
  | nil s => exact .nil _
  | cons hstep _ ih => exact .cons (Option.map_eq_some_iff.mpr ⟨_, hstep, rfl⟩) ih

end Process

end EpollClients

end Network

end CsLab
