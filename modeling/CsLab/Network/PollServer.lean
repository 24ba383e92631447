/-
The poll echo server (`06-network/05-poll/server.c`).

`main` is a machine that makes one system call, or one turn of the loop over its
clients, at a step.  `Point` is where it stands, an `Event` is what the kernel answers
there, and `exec` is what the code does with the answer.  The calls that take or give up
a descriptor are kept in a log, from which the descriptors that are open at a moment are
read off.

Not in the model: the set-up of the listening socket, the failure of `set_nonblocking`
(it ends the process), the signal for a `send` on a connection that the client has reset (it
ends the process too), and what is printed.
-/
import Mathlib.Data.List.FinRange
import Mathlib.Logic.Function.Basic
import CsLab.Lib.Ledger
import CsLab.Lib.Run
import CsLab.Network.Socket

namespace CsLab

namespace Network

/-- `MAX_CLIENTS` -/
abbrev maxClients : ℕ := 100

/-! ### The flags of `poll` -/

abbrev pollIn : BitVec 16 := 0x001

abbrev pollErr : BitVec 16 := 0x008

abbrev pollHup : BitVec 16 := 0x010

abbrev pollNval : BitVec 16 := 0x020

/-- `struct pollfd` -/
structure Pollfd where
  fd : ℤ
  events : BitVec 16
  revents : BitVec 16
deriving DecidableEq

namespace Pollfd

/-- `revents & POLLIN` -/
def Readable (e : Pollfd) : Prop := e.revents &&& pollIn ≠ 0

/-- `revents & (POLLERR | POLLHUP | POLLNVAL)` -/
def Broken (e : Pollfd) : Prop := e.revents &&& (pollErr ||| pollHup ||| pollNval) ≠ 0

instance (e : Pollfd) : Decidable e.Readable := inferInstanceAs (Decidable (_ ≠ _))

instance (e : Pollfd) : Decidable e.Broken := inferInstanceAs (Decidable (_ ≠ _))

end Pollfd

/-- An index into the table `fds[MAX_CLIENTS + 1]`. -/
abbrev Slot : Type := Fin (maxClients + 1)

/-- The slots `1` to `MAX_CLIENTS`, in the order of the loops over them. -/
def clientSlots : List Slot := (List.finRange maxClients).map Fin.succ

/-- A system call on a connection. -/
inductive Call where
  | accept (fd : ℤ)
  | recv (fd : ℤ)
  | send (fd : ℤ) (message : String)
  | close (fd : ℤ)
deriving DecidableEq

/-- What the call does to the descriptors of the process. -/
def Call.op : Call → Option (Op ℤ)
  | .accept fd => some (.acquire fd)
  | .recv _ => none
  | .send _ _ => none
  | .close fd => some (.release fd)

namespace PollServer

/-- Where `main` stands. -/
inductive Point where
  /-- at `poll` -/
  | wait
  /-- at `accept` -/
  | accepting
  /-- at the head of the loop over the clients -/
  | scanning (i : Slot)
  /-- `main` has returned -/
  | done
deriving DecidableEq

/-- The variables of `main`, and the calls it made so far. -/
structure State where
  serverFd : ℤ
  fds : Slot → Pollfd
  point : Point
  /-- oldest first -/
  log : List Call

namespace State

/-- The calls so far that took or gave up a descriptor. -/
def ops (s : State) : List (Op ℤ) := s.log.filterMap Call.op

/-- The descriptors that the server holds open. -/
def openFds (s : State) : Finset ℤ := Ledger.held {s.serverFd} s.ops

/-- The descriptors that were accepted and not closed since. -/
def accepted (s : State) : Finset ℤ := Ledger.held ∅ s.ops

def call (s : State) (c : Call) : State := { s with log := s.log ++ [c] }

def setFd (s : State) (i : Slot) (e : Pollfd) : State :=
  { s with fds := Function.update s.fds i e }

/-- `poll` fills in `revents`, ignoring the entries with a negative descriptor. -/
def poll (s : State) (revents : Slot → BitVec 16) : State :=
  { s with fds := fun i =>
      { s.fds i with revents := if (s.fds i).fd < 0 then 0 else revents i } }

/-- `accept` gave `client_fd`, which goes to the first free slot. -/
def newClient (s : State) (clientFd : ℤ) : State :=
  let s := s.call (.accept clientFd)
  -- the loop breaks at the first free slot
  match clientSlots.find? fun i => (s.fds i).fd = -1 with
  | some i => s.setFd i { s.fds i with fd := clientFd, events := pollIn }
  | none => s.call (.close clientFd)

/-- `close(fd); fds[i].fd = -1;` -/
def dropClient (s : State) (i : Slot) (fd : ℤ) : State :=
  (s.call (.close fd)).setFd i { s.fds i with fd := -1 }

def response : String := "echo from poll server"

/-- The branch for `POLLIN`. -/
def readClient (s : State) (i : Slot) (fd : ℤ) (answer : Recv) : State :=
  let s := s.call (.recv fd)
  match answer with
  | .data _ => s.call (.send fd response)
  | .eof => s.dropClient i fd
  | .failed errno =>
    if errno ≠ eagain ∧ errno ≠ ewouldblock then s.dropClient i fd else s

/-- One turn of the loop over the clients; `recv`, if it is called, gives `answer`. -/
def scanSlot (s : State) (i : Slot) (answer : Recv) : State :=
  let fd := (s.fds i).fd
  if fd = -1 then s
  else
    let s := if (s.fds i).Readable then s.readClient i fd answer else s
    -- the second test reads the table again, but `fd` is what it was at the start
    if (s.fds i).Broken then s.dropClient i fd else s

/-- The code behind the loop. -/
def shutdown (s : State) : State :=
  { s with
    log := s.log ++
      ((clientSlots.map fun i => (s.fds i).fd).filter (· ≠ -1)).map .close ++
      [.close s.serverFd]
    point := .done }

end State

/-- An answer of the kernel. -/
inductive Event where
  /-- `poll` returns and has filled in `revents` -/
  | polled (revents : Slot → BitVec 16)
  /-- `poll` returns `-1` -/
  | pollFailed (errno : ℕ)
  /-- `accept` returns a descriptor -/
  | accepted (fd : ℤ)
  /-- `accept` returns `-1` -/
  | acceptFailed (errno : ℕ)
  /-- what `recv` returns if this turn of the loop calls it -/
  | turn (answer : Recv)

/-- Where the turn after the one for slot `i` stands. -/
def next (i : Slot) : Point :=
  if h : i.val + 1 < maxClients + 1 then .scanning ⟨i.val + 1, h⟩ else .wait

/-- What the code does with an answer; `none` if the kernel cannot give it. -/
def exec (s : State) (e : Event) : Option State :=
  match s.point, e with
  | .wait, .polled revents =>
    let s := s.poll revents
    some { s with point := if (s.fds 0).Readable then .accepting else .scanning 1 }
  | .wait, .pollFailed errno => some (if errno = eintr then s else s.shutdown)
  | .accepting, .accepted fd =>
    if 0 ≤ fd ∧ fd ∉ s.openFds then some (s.newClient fd) else none
  | .accepting, .acceptFailed _ => some { s with point := .scanning 1 }
  | .scanning i, .turn answer => some { s.scanSlot i answer with point := next i }
  | _, _ => none

/-- The state at the first `poll`: the table is what the stack held, but for the
descriptors and the entry of the listening socket. -/
def start (serverFd : ℕ) (stack : Slot → Pollfd) : State where
  serverFd := serverFd
  fds := Function.update (fun i => { stack i with fd := -1 }) 0
    { stack 0 with fd := serverFd, events := pollIn }
  point := .wait
  log := []

end PollServer

end Network

end CsLab
