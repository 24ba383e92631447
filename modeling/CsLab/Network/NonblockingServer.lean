/-
The non-blocking echo server (`06-network/04-nonblocking/server.c`).

`main` is a machine like that of the poll server, with three differences.  It sends back what
it has read, and does not look at how much of it `send` has taken.  The second test of a turn
reads the descriptor again, so that a slot that the first one has cleared leads to `close(-1)`,
which fails.  And behind the loop only the listening socket is closed.

As for the epoll server the model counts the connections: `conn` says which connection is
behind a descriptor, and the streams of bytes belong to the connection.

Not in the model: the set-up of the listening socket, the failure of `set_nonblocking` (which
the code ignores), the signal for a `send` on a connection that the client has reset, and what
is printed.
-/
import CsLab.Lib.Log
import CsLab.Lib.Owned
import CsLab.Lib.Relay
import CsLab.Network.PollClients

namespace CsLab

namespace Network

namespace NonblockingServer

/-- There is a slot `0`. -/
local instance (priority := high) : NeZero (maxClients + 1) := ⟨Nat.succ_ne_zero _⟩

/-- Where `main` stands. -/
inductive Point where
  /-- at `poll` -/
  | wait
  /-- at `accept` -/
  | accepting
  /-- at the head of the loop over the clients -/
  | scanning (i : Slot)
  /-- `main` has returned -/
  | done
deriving DecidableEq

/-- A call that takes or gives up a descriptor, with the connection that the descriptor stood
for. -/
inductive Entry where
  | accept (fd : ℤ) (c : ℕ)
  | close (fd : ℤ) (c : Option ℕ)
deriving DecidableEq

/-- What the call does to the connections of the process. -/
def Entry.op : Entry → Option (Op ℕ)
  | .accept _ c => some (.acquire c)
  | .close _ c => c.map .release

/-- The variables of `main` and what the kernel keeps for it. -/
structure State where
  serverFd : ℤ
  fds : Slot → Pollfd
  point : Point
  /-- The connection behind an open client descriptor. -/
  conn : ℤ → Option ℕ
  /-- How many connections were accepted. -/
  accepts : ℕ
  /-- The bytes that `recv` returned for a connection. -/
  received : ℕ → List UInt8
  /-- The bytes that the kernel accepted for sending on a connection. -/
  sent : ℕ → List UInt8
  /-- oldest first -/
  log : List Entry

namespace State

/-- The calls so far, as operations on connections. -/
def ops (s : State) : List (Op ℕ) := s.log.filterMap Entry.op

/-- The number is not that of an open descriptor. -/
def Unused (s : State) (fd : ℤ) : Prop := 0 ≤ fd ∧ fd ≠ s.serverFd ∧ s.conn fd = none

instance (s : State) (fd : ℤ) : Decidable (s.Unused fd) := inferInstanceAs (Decidable (_ ∧ _ ∧ _))

def setFd (s : State) (i : Slot) (e : Pollfd) : State :=
  { s with fds := Function.update s.fds i e }

/-- `poll` fills in `revents`, ignoring the entries with a negative descriptor. -/
def poll (s : State) (revents : Slot → BitVec 16) : State :=
  { s with fds := fun i =>
      { s.fds i with revents := if (s.fds i).fd < 0 then 0 else revents i } }

/-- The kernel gives the number `fd` to a new connection. -/
def opened (s : State) (fd : ℤ) : State :=
  { s with
    conn := Function.update s.conn fd (some s.accepts)
    accepts := s.accepts + 1
    log := s.log ++ [.accept fd s.accepts] }

/-- `close(fd)`; nothing is closed if `fd` is not open. -/
def close (s : State) (fd : ℤ) : State :=
  { s with conn := Function.update s.conn fd none, log := s.log ++ [.close fd (s.conn fd)] }

/-- `accept` gave `client_fd`, which goes to the first free slot. -/
def newClient (s : State) (clientFd : ℤ) : State :=
  let s := s.opened clientFd
  match clientSlots.find? fun i => (s.fds i).fd = -1 with
  | some i => s.setFd i { s.fds i with fd := clientFd, events := pollIn }
  | none => s.close clientFd

/-- `close(fds[i].fd); fds[i].fd = -1;` -/
def dropClient (s : State) (i : Slot) : State :=
  (s.close (s.fds i).fd).setFd i { s.fds i with fd := -1 }

/-- What `recv` returned joins the bytes received on the connection. -/
def receive (s : State) (fd : ℤ) (data : List UInt8) : State :=
  match s.conn fd with
  | some c => { s with received := Function.update s.received c (s.received c ++ data) }
  | none => s

/-- What the kernel took from `send` joins the bytes sent on the connection. -/
def take (s : State) (fd : ℤ) (data : List UInt8) : State :=
  match s.conn fd with
  | some c => { s with sent := Function.update s.sent c (s.sent c ++ data) }
  | none => s

/-- The branch for `POLLIN`; `send`, if it is called, gives `taken`. -/
def readClient (s : State) (i : Slot) (answer : Recv) (taken : Send) : State :=
  match answer with
  | .data chunk =>
    (s.receive (s.fds i).fd chunk.bytes).take (s.fds i).fd (taken.bytes chunk.bytes)
  | .eof => s.dropClient i
  | .failed errno => if errno ≠ ewouldblock ∧ errno ≠ eagain then s.dropClient i else s

/-- One turn of the loop over the clients. -/
def scanSlot (s : State) (i : Slot) (answer : Recv) (taken : Send) : State :=
  if (s.fds i).fd = -1 then s
  else
    let s := if (s.fds i).Readable then s.readClient i answer taken else s
    -- the descriptor may be `-1` by now
    if (s.fds i).Broken then s.dropClient i else s

/-- The code behind the loop. -/
def shutdown (s : State) : State := { s.close s.serverFd with point := .done }

end State

/-- An answer of the kernel. -/
inductive Event where
  /-- `poll` returns and has filled in `revents` -/
  | polled (revents : Slot → BitVec 16)
  /-- `poll` returns `-1` -/
  | pollFailed
  /-- `accept` returns a descriptor -/
  | accepted (fd : ℤ)
  /-- `accept` returns `-1` -/
  | acceptFailed
  /-- what `recv` and `send` return if this turn of the loop calls them -/
  | turn (answer : Recv) (taken : Send)

/-- Where the turn after the one for slot `i` stands. -/
def next (i : Slot) : Point :=
  if h : i.val + 1 < maxClients + 1 then .scanning ⟨i.val + 1, h⟩ else .wait

/-- What the code does with an answer; `none` if the kernel cannot give it. -/
def exec (s : State) (e : Event) : Option State :=
  match s.point, e with
  | .wait, .polled revents =>
    let s := s.poll revents
    some { s with point := if (s.fds 0).Readable then .accepting else .scanning 1 }
  | .wait, .pollFailed => some s.shutdown
  | .accepting, .accepted fd =>
    if s.Unused fd then some { s.newClient fd with point := .scanning 1 } else none
  | .accepting, .acceptFailed => some { s with point := .scanning 1 }
  | .scanning i, .turn answer taken =>
    some { s.scanSlot i answer taken with point := next i }
  | _, _ => none

/-- The state at the first `poll`: the table is what the stack held, but for the
descriptors and the entry of the listening socket. -/
def start (serverFd : ℕ) (stack : Slot → Pollfd) : State where
  serverFd := serverFd
  fds := Function.update (fun i => { stack i with fd := -1 }) 0
    { stack 0 with fd := serverFd, events := pollIn }
  point := .wait
  conn := fun _ => none
  accepts := 0
  received := fun _ => []
  sent := fun _ => []
  log := []

variable {s s' : State} {e : Event} {es : List Event}

/-- One step of the server. -/
abbrev Step : State → Event → State → Prop := stepOf exec

/-- What a step can be. -/
inductive Move (s : State) : Event → State → Prop
  | polled (revents : Slot → BitVec 16) (p : Point) (hs : s.point = .wait)
      (hp : p = .accepting ∨ p = .scanning 1) :
      Move s (.polled revents) { s.poll revents with point := p }
  | pollFailed (hs : s.point = .wait) : Move s .pollFailed s.shutdown
  | accepted (fd : ℤ) (hs : s.point = .accepting) (hfd : s.Unused fd) :
      Move s (.accepted fd) { s.newClient fd with point := .scanning 1 }
  | acceptFailed (hs : s.point = .accepting) : Move s .acceptFailed { s with point := .scanning 1 }
  | turn (i : Slot) (answer : Recv) (taken : Send) (hs : s.point = .scanning i) :
      Move s (.turn answer taken) { s.scanSlot i answer taken with point := next i }

lemma Move.of_step (h : Step s e s') : Move s e s' := by
  unfold Step stepOf exec at h
  split at h
  · next revents hs =>
    cases h
    refine .polled revents _ hs ?_
    split
    · exact .inl rfl
    · exact .inr rfl
  · next hs =>
    cases h
    exact .pollFailed hs
  · next fd hs =>
    split at h
    · next hok =>
      cases h
      exact .accepted fd hs hok
    · cases h
  · next hs =>
    cases h
    exact .acceptFailed hs
  · next i answer taken hs =>
    cases h
    exact .turn i answer taken hs
  · cases h

end NonblockingServer

end Network

end CsLab
