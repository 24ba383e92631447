/-
The epoll echo server (`06-network/06-epoll/server.c`, and the same file as
`06-network/07-tcp-deep/01-stream/server.c`).

As for the poll server, `main` is a machine that makes the system calls of one line at a
step, and an `Event` is what the kernel answers.  A descriptor is a number that the kernel
hands out again after it was closed, so the model also counts the connections: `conn` says
which connection a number stands for at present, and the streams of bytes belong to the
connection.

Not in the model: the set-up of the listening socket, the failure of `set_nonblocking`
(which the code either ignores or dies of), the signal for a `send` on a connection that the
client has reset (`EpollClients` adds it), and what is printed.
-/
import Mathlib.Data.Finset.Basic
import Mathlib.Logic.Function.Basic
import CsLab.Lib.Run
import CsLab.Network.Socket

namespace CsLab

namespace Network

namespace EpollServer

/-- `MAX_EVENTS` -/
abbrev maxEvents : ℕ := 64

abbrev ebadf : ℕ := 9

/-- An entry of `events`: `data.fd`, and the connection that it was reported for, `none`
for the listening socket. -/
structure Report where
  fd : ℤ
  conn : Option ℕ
deriving DecidableEq

/-- Where `main` stands; `rest` are the reports behind the one it works on. -/
inductive Point where
  /-- at `epoll_wait` -/
  | wait
  /-- at `accept` -/
  | accepting (r : Report) (rest : List Report)
  /-- at `recv` -/
  | receiving (r : Report) (rest : List Report)
  /-- at `send` of what was received -/
  | sending (r : Report) (chunk : Chunk) (rest : List Report)
  /-- `main` has returned -/
  | done
deriving DecidableEq

inductive Call where
  | accept
  | epollCtlAdd
  | epollCtlDel
  | recv
  | send
  | close
deriving DecidableEq

/-- A call on a descriptor: the connection that the descriptor stood for, and the report
on whose behalf the call was made, if there was one. -/
structure Entry where
  call : Call
  fd : ℤ
  conn : Option ℕ
  report : Option Report
deriving DecidableEq

/-- The variables of `main` and what the kernel keeps for it. -/
structure State where
  serverFd : ℤ
  epfd : ℤ
  point : Point
  /-- The descriptors in the interest list of `epfd`. -/
  interest : Finset ℤ
  /-- The connection behind an open client descriptor. -/
  conn : ℤ → Option ℕ
  /-- How many connections were accepted. -/
  accepts : ℕ
  /-- The bytes that `recv` returned for a connection. -/
  received : ℕ → List UInt8
  /-- The bytes that the kernel accepted for sending on a connection. -/
  sent : ℕ → List UInt8
  /-- oldest first -/
  log : List Entry

namespace State

/-- The number is not that of an open descriptor. -/
def Unused (s : State) (fd : ℤ) : Prop :=
  0 ≤ fd ∧ fd ≠ s.serverFd ∧ fd ≠ s.epfd ∧ s.conn fd = none

instance (s : State) (fd : ℤ) : Decidable (s.Unused fd) :=
  inferInstanceAs (Decidable (_ ∧ _ ∧ _ ∧ _))

/-- `epoll_wait` may return these descriptors. -/
def Ready (s : State) (fds : List ℤ) : Prop :=
  fds.length ≤ maxEvents ∧ fds.Nodup ∧ ∀ fd ∈ fds, fd ∈ s.interest

instance (s : State) (fds : List ℤ) : Decidable (s.Ready fds) :=
  inferInstanceAs (Decidable (_ ∧ _ ∧ _))

/-- The head of the loop over the reports. -/
def advance (s : State) : List Report → State
  | [] => { s with point := .wait }
  | r :: rest =>
    { s with point := if r.fd = s.serverFd then .accepting r rest else .receiving r rest }

def call (s : State) (r : Option Report) (c : Call) (fd : ℤ) : State :=
  { s with log := s.log ++ [⟨c, fd, s.conn fd, r⟩] }

/-- The kernel gives the number `fd` to a new connection. -/
def opened (s : State) (fd : ℤ) : State :=
  { s with conn := Function.update s.conn fd (some s.accepts), accepts := s.accepts + 1 }

/-- `close(fd)`, which also takes the descriptor out of the interest list -/
def close (s : State) (r : Report) (fd : ℤ) : State :=
  { s.call r .close fd with
    conn := Function.update s.conn fd none
    interest := s.interest.erase fd }

/-- `accept` gave `client_fd`; `added` is whether `epoll_ctl` succeeds in adding it. -/
def newClient (s : State) (r : Report) (clientFd : ℤ) (added : Bool) : State :=
  let s := ((s.opened clientFd).call r .accept clientFd).call r .epollCtlAdd clientFd
  -- a client that cannot be added is closed at once
  if added then { s with interest := insert clientFd s.interest }
  else s.close r clientFd

/-- `epoll_ctl(epfd, EPOLL_CTL_DEL, active_fd, NULL); close(active_fd);` -/
def disconnect (s : State) (r : Report) : State :=
  let s := { s.call r .epollCtlDel r.fd with interest := s.interest.erase r.fd }
  s.close r r.fd

/-- What `recv` returned joins the bytes received on the connection. -/
def receive (s : State) (fd : ℤ) (data : List UInt8) : State :=
  match s.conn fd with
  | some c => { s with received := Function.update s.received c (s.received c ++ data) }
  | none => s

/-- What the kernel took from `send` joins the bytes sent on the connection. -/
def take (s : State) (fd : ℤ) (data : List UInt8) : State :=
  match s.conn fd with
  | some c => { s with sent := Function.update s.sent c (s.sent c ++ data) }
  | none => s

/-- One turn of the inner loop, up to `send`. -/
def recvTurn (s : State) (r : Report) (rest : List Report) (answer : Recv) : State :=
  let s := s.call r .recv r.fd
  match answer with
  | .data chunk => { s.receive r.fd chunk.bytes with point := .sending r chunk rest }
  | .eof => (s.disconnect r).advance rest
  | .failed errno =>
    if errno = eagain ∨ errno = ewouldblock then s.advance rest
    else (s.disconnect r).advance rest

/-- `send`; its result is not looked at. -/
def sendTurn (s : State) (r : Report) (chunk : Chunk) (rest : List Report) (answer : Send) :
    State :=
  { (s.call r .send r.fd).take r.fd (answer.bytes chunk.bytes) with
    point := .receiving r rest }

/-- The code behind the loop. -/
def shutdown (s : State) : State :=
  { (s.call none .close s.serverFd).call none .close s.epfd with point := .done }

end State

/-- An answer of the kernel. -/
inductive Event where
  /-- `epoll_wait` returns these descriptors -/
  | ready (fds : List ℤ)
  /-- `epoll_wait` returns `-1` -/
  | waitFailed (errno : ℕ)
  /-- `accept` returns a descriptor, and `epoll_ctl` adds it or fails -/
  | accepted (fd : ℤ) (added : Bool)
  /-- `accept` returns `-1` -/
  | acceptFailed (errno : ℕ)
  | received (answer : Recv)
  | sent (answer : Send)
deriving DecidableEq

/-- `recv` and `send` on a number that is not open fail with `EBADF`. -/
def State.CanReceive (s : State) (fd : ℤ) (answer : Recv) : Prop :=
  s.conn fd = none → answer = .failed ebadf

/-- `send` takes at most what it is given. -/
def State.CanSend (s : State) (fd : ℤ) (chunk : Chunk) : Send → Prop
  | .taken k => k ≤ chunk.n ∧ s.conn fd ≠ none
  | .failed errno => s.conn fd = none → errno = ebadf

instance (s : State) (fd : ℤ) (answer : Recv) : Decidable (s.CanReceive fd answer) :=
  inferInstanceAs (Decidable (_ → _))

instance (s : State) (fd : ℤ) (chunk : Chunk) (answer : Send) :
    Decidable (s.CanSend fd chunk answer) :=
  match answer with
  | .taken _ => inferInstanceAs (Decidable (_ ∧ _))
  | .failed _ => inferInstanceAs (Decidable (_ → _))

/-- What the code does with an answer; `none` if the kernel cannot give it. -/
def exec (s : State) (e : Event) : Option State :=
  match s.point, e with
  | .wait, .ready fds =>
    if s.Ready fds then some (s.advance (fds.map fun fd => ⟨fd, s.conn fd⟩)) else none
  | .wait, .waitFailed errno => some (if errno = eintr then s else s.shutdown)
  | .accepting r _, .accepted fd added =>
    if s.Unused fd then some (s.newClient r fd added) else none
  | .accepting _ rest, .acceptFailed _ => some (s.advance rest)
  | .receiving r rest, .received answer =>
    if s.CanReceive r.fd answer then some (s.recvTurn r rest answer) else none
  | .sending r chunk rest, .sent answer =>
    if s.CanSend r.fd chunk answer then some (s.sendTurn r chunk rest answer) else none
  | _, _ => none

/-- The state at the first `epoll_wait`. -/
def start (serverFd epfd : ℕ) : State where
  serverFd := serverFd
  epfd := epfd
  point := .wait
  interest := {(serverFd : ℤ)}
  conn := fun _ => none
  accepts := 0
  received := fun _ => []
  sent := fun _ => []
  log := []

/-! ### Steps -/

variable {s s' : State} {e : Event}

/-- One step of the server. -/
abbrev Step : State → Event → State → Prop := stepOf exec

/-- What a step can be. -/
inductive Move (s : State) : Event → State → Prop
  | ready (fds : List ℤ) (hs : s.point = .wait) (hfds : s.Ready fds) :
      Move s (.ready fds) (s.advance (fds.map fun fd => ⟨fd, s.conn fd⟩))
  | interrupted (hs : s.point = .wait) : Move s (.waitFailed eintr) s
  | waitFailed (errno : ℕ) (hs : s.point = .wait) : Move s (.waitFailed errno) s.shutdown
  | accepted (r : Report) (rest : List Report) (fd : ℤ) (added : Bool)
      (hs : s.point = .accepting r rest) (hfd : s.Unused fd) :
      Move s (.accepted fd added) (s.newClient r fd added)
  | acceptFailed (r : Report) (rest : List Report) (errno : ℕ)
      (hs : s.point = .accepting r rest) : Move s (.acceptFailed errno) (s.advance rest)
  | received (r : Report) (rest : List Report) (answer : Recv)
      (hs : s.point = .receiving r rest) (hcan : s.CanReceive r.fd answer) :
      Move s (.received answer) (s.recvTurn r rest answer)
  | sent (r : Report) (chunk : Chunk) (rest : List Report) (answer : Send)
      (hs : s.point = .sending r chunk rest) (hcan : s.CanSend r.fd chunk answer) :
      Move s (.sent answer) (s.sendTurn r chunk rest answer)

lemma Move.of_step (h : Step s e s') : Move s e s' := by
  unfold Step stepOf exec at h
  split at h
  · next fds hs =>
    split at h
    · next hok =>
      cases h
      exact .ready fds hs hok
    · cases h
  · next errno hs =>
    cases h
    split
    · next herr =>
      subst herr
      exact .interrupted hs
    · exact .waitFailed errno hs
  · next r rest fd added hs =>
    split at h
    · next hok =>
      cases h
      exact .accepted r rest fd added hs hok
    · cases h
  · next r rest errno hs =>
    cases h
    exact .acceptFailed r rest errno hs
  · next r rest answer hs =>
    split at h
    · next hok =>
      cases h
      exact .received r rest answer hs hok
    · cases h
  · next r chunk rest answer hs =>
    split at h
    · next hok =>
      cases h
      exact .sent r chunk rest answer hs hok
    · cases h
  · cases h

end EpollServer

end Network

end CsLab
