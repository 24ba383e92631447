/-
The server with a thread for each connection
(`06-network/03-thread-per-connection/server.c`).

`main` accepts a connection, stores its descriptor in a cell from `malloc`, and creates a
worker, to which it passes the address of the cell.  `main` and the workers are machines
that make one access to something shared at a step, and an `Event` says which of them is
next and what the kernel or the C library answers, so a run is any interleaving.

Numbers of descriptors and addresses of cells are used again after they were given back.
Connections and allocations are therefore counted, and a variable carries the count of what
was put into it (`Client`, `Arg`, the `client` of a worker).  The code does not see these
counts: a worker uses the number that it reads from the cell.

Not in the model: the set-up of the listening socket, and what is printed.
-/
import Mathlib.Logic.Function.Basic
import CsLab.Lib.Run
import CsLab.Network.Socket

namespace CsLab

namespace Network

namespace ThreadServer

abbrev ebadf : ℕ := 9

/-- A cell that `malloc` gave: the number of the allocation, and the `int` that was stored
in the cell, if one was. -/
structure Cell where
  alloc : ℕ
  value : Option ℤ
deriving DecidableEq

/-- `client_fd` in `main`, with the connection that `accept` returned it for. -/
structure Client where
  fd : ℤ
  conn : ℕ
deriving DecidableEq

/-- `arg`, with the allocation that it points to. -/
structure Arg where
  addr : ℕ
  alloc : ℕ
deriving DecidableEq

/-- Where `main` stands. -/
inductive MainPoint where
  /-- at `accept` -/
  | accepting
  /-- at `malloc` -/
  | allocating (client : Client)
  /-- at `*arg = client_fd` -/
  | storing (client : Client) (arg : Arg)
  /-- at `pthread_create` -/
  | creating (client : Client) (arg : Arg)
  /-- at `free(arg)`, after `pthread_create` has failed -/
  | freeing (client : Client) (arg : Arg)
  /-- at `close(client_fd)`, after `malloc` or `pthread_create` has failed -/
  | closing (client : Client)
  /-- at `pthread_detach` -/
  | detaching
deriving DecidableEq

/-- Where `handle_client` stands. -/
inductive WorkerPoint where
  /-- at `client_fd = *(int*)arg` -/
  | reading (arg : Arg)
  /-- at `free(arg)` -/
  | freeing (arg : Arg) (clientFd : ℤ)
  /-- at `recv` -/
  | receiving (clientFd : ℤ)
  /-- at `send` -/
  | sending (clientFd : ℤ)
  /-- at `close(client_fd)` -/
  | closing (clientFd : ℤ)
  /-- the thread has ended -/
  | returned
deriving DecidableEq

/-- A worker, with the client that it was created for. -/
structure Worker where
  client : Client
  point : WorkerPoint
deriving DecidableEq

inductive Thread where
  | main
  | worker (i : ℕ)
deriving DecidableEq

/-- A call on a descriptor. -/
inductive SocketCall where
  | accept
  | recv
  | send
  | close
deriving DecidableEq

/-- What is done with an argument cell. -/
inductive CellCall where
  | malloc
  | store
  /-- the `int` was read -/
  | read (value : ℤ)
  | free
deriving DecidableEq

/-- A step that was made, by which thread, and for which connection the thread is there. -/
inductive Entry where
  /-- `conn` is what the descriptor stood for. -/
  | socket (call : SocketCall) (thread : Thread) (owner : ℕ) (fd : ℤ) (conn : Option ℕ)
  /-- `cell` is what was allocated at the address. -/
  | cell (call : CellCall) (thread : Thread) (owner : ℕ) (addr : ℕ) (cell : Option Cell)
deriving DecidableEq

/-- The variables of all threads, and what the kernel and the C library keep for them. -/
structure State where
  serverFd : ℤ
  main : MainPoint
  workers : List Worker
  /-- The connection behind an open client descriptor. -/
  conn : ℤ → Option ℕ
  /-- How many connections were accepted. -/
  accepts : ℕ
  /-- The cells that are allocated. -/
  cells : ℕ → Option Cell
  /-- How many cells were allocated. -/
  allocs : ℕ
  /-- oldest first -/
  log : List Entry

namespace State

/-- The number is not that of an open descriptor. -/
def Unused (s : State) (fd : ℤ) : Prop := 0 ≤ fd ∧ fd ≠ s.serverFd ∧ s.conn fd = none

instance (s : State) (fd : ℤ) : Decidable (s.Unused fd) :=
  inferInstanceAs (Decidable (_ ∧ _ ∧ _))

/-- An `int` that a read of the cell can give: what was stored there, and anything if the
cell is not allocated or nothing was stored. -/
def CanRead (s : State) (addr : ℕ) (value : ℤ) : Prop :=
  ∀ v ∈ (s.cells addr).bind Cell.value, value = v

instance (s : State) (addr : ℕ) (value : ℤ) : Decidable (s.CanRead addr value) :=
  inferInstanceAs (Decidable (∀ v ∈ _, _))

/-- `recv` on a number that is not open fails with `EBADF`. -/
def CanReceive (s : State) (fd : ℤ) (answer : Recv) : Prop :=
  s.conn fd = none → answer = .failed ebadf

instance (s : State) (fd : ℤ) (answer : Recv) : Decidable (s.CanReceive fd answer) :=
  inferInstanceAs (Decidable (_ → _))

def socketCall (s : State) (call : SocketCall) (t : Thread) (owner : ℕ) (fd : ℤ) : State :=
  { s with log := s.log ++ [.socket call t owner fd (s.conn fd)] }

def cellCall (s : State) (call : CellCall) (t : Thread) (owner addr : ℕ) : State :=
  { s with log := s.log ++ [.cell call t owner addr (s.cells addr)] }

/-- `accept` returns `fd` for a new connection. -/
def accept (s : State) (fd : ℤ) : State :=
  { s with conn := Function.update s.conn fd (some s.accepts), accepts := s.accepts + 1 }.socketCall
    .accept .main s.accepts fd

/-- `malloc(sizeof(int))` returns `addr`. -/
def malloc (s : State) (owner addr : ℕ) : State :=
  { s with
    cells := Function.update s.cells addr (some ⟨s.allocs, none⟩)
    allocs := s.allocs + 1 }.cellCall .malloc .main owner addr

/-- `*arg = client_fd` -/
def store (s : State) (owner addr : ℕ) (fd : ℤ) : State :=
  { s.cellCall .store .main owner addr with
    cells := Function.update s.cells addr ((s.cells addr).map fun c => { c with value := some fd }) }

/-- `free(arg)` -/
def free (s : State) (t : Thread) (owner addr : ℕ) : State :=
  { s.cellCall .free t owner addr with cells := Function.update s.cells addr none }

/-- `close(client_fd)` -/
def close (s : State) (t : Thread) (owner : ℕ) (fd : ℤ) : State :=
  { s.socketCall .close t owner fd with conn := Function.update s.conn fd none }

def setMain (s : State) (p : MainPoint) : State := { s with main := p }

/-- The worker `i`, which was created for `client`, goes on to `p`. -/
def setWorker (s : State) (i : ℕ) (client : Client) (p : WorkerPoint) : State :=
  { s with workers := s.workers.set i ⟨client, p⟩ }

/-- A new thread runs `handle_client(arg)`. -/
def create (s : State) (client : Client) (arg : Arg) : State :=
  { s with workers := s.workers ++ [⟨client, .reading arg⟩] }

end State

/-- What `main` is answered. -/
inductive MainEvent where
  /-- `accept` returns a descriptor -/
  | accepted (fd : ℤ)
  /-- `accept` returns `-1` -/
  | acceptFailed
  /-- `malloc` returns an address, or `NULL` -/
  | allocated (addr : Option ℕ)
  | stored
  /-- `pthread_create` returns, and whether it returns `0` -/
  | created (ok : Bool)
  | freed
  | closed
  | detached
deriving DecidableEq

/-- What a worker is answered. -/
inductive WorkerEvent where
  | read (value : ℤ)
  | freed
  | received (answer : Recv)
  | sent (answer : Send)
  | closed
deriving DecidableEq

inductive Event where
  | main (e : MainEvent)
  | worker (i : ℕ) (e : WorkerEvent)
deriving DecidableEq

/-- A step of the loop of `main`; `none` if the answer cannot be given. -/
def mainStep (s : State) (e : MainEvent) : Option State :=
  match s.main, e with
  | .accepting, .accepted fd =>
    if s.Unused fd then some ((s.accept fd).setMain (.allocating ⟨fd, s.accepts⟩)) else none
  | .accepting, .acceptFailed => some s
  | .allocating client, .allocated none => some (s.setMain (.closing client))
  | .allocating client, .allocated (some addr) =>
    if s.cells addr = none then
      some ((s.malloc client.conn addr).setMain (.storing client ⟨addr, s.allocs⟩))
    else none
  | .storing client arg, .stored =>
    some ((s.store client.conn arg.addr client.fd).setMain (.creating client arg))
  | .creating client arg, .created true => some ((s.create client arg).setMain .detaching)
  | .creating client arg, .created false => some (s.setMain (.freeing client arg))
  | .freeing client arg, .freed =>
    some ((s.free .main client.conn arg.addr).setMain (.closing client))
  | .closing client, .closed =>
    some ((s.close .main client.conn client.fd).setMain .accepting)
  | .detaching, .detached => some (s.setMain .accepting)
  | _, _ => none

/-- A step of `handle_client` in the worker `i`. -/
def workerStep (s : State) (i : ℕ) (w : Worker) (e : WorkerEvent) : Option State :=
  let t := Thread.worker i
  let owner := w.client.conn
  match w.point, e with
  | .reading arg, .read value =>
    if s.CanRead arg.addr value then
      some ((s.cellCall (.read value) t owner arg.addr).setWorker i w.client (.freeing arg value))
    else none
  | .freeing arg fd, .freed =>
    some ((s.free t owner arg.addr).setWorker i w.client (.receiving fd))
  | .receiving fd, .received answer =>
    if s.CanReceive fd answer then
      let s := s.socketCall .recv t owner fd
      match answer with
      | .data _ => some (s.setWorker i w.client (.sending fd))
      -- `n <= 0`
      | .eof => some (s.setWorker i w.client (.closing fd))
      | .failed _ => some (s.setWorker i w.client (.closing fd))
    else none
  -- the result of `send` is not looked at
  | .sending fd, .sent _ =>
    some ((s.socketCall .send t owner fd).setWorker i w.client (.closing fd))
  | .closing fd, .closed => some ((s.close t owner fd).setWorker i w.client .returned)
  | _, _ => none

def exec (s : State) : Event → Option State
  | .main e => mainStep s e
  | .worker i e => (s.workers[i]?).bind fun w => workerStep s i w e

/-- The state at the first `accept`. -/
def start (serverFd : ℕ) : State where
  serverFd := serverFd
  main := .accepting
  workers := []
  conn := fun _ => none
  accepts := 0
  cells := fun _ => none
  allocs := 0
  log := []

/-! ### Steps -/

variable {s s' : State} {e : Event}

/-- One step of one thread. -/
abbrev Step : State → Event → State → Prop := stepOf exec

/-- What a step of `main` can be. -/
inductive MainMove (s : State) : State → Prop
  | accepted (fd : ℤ) (hs : s.main = .accepting) (hfd : s.Unused fd) :
      MainMove s ((s.accept fd).setMain (.allocating ⟨fd, s.accepts⟩))
  | acceptFailed (hs : s.main = .accepting) : MainMove s s
  | noMemory (client : Client) (hs : s.main = .allocating client) :
      MainMove s (s.setMain (.closing client))
  | allocated (client : Client) (addr : ℕ) (hs : s.main = .allocating client)
      (haddr : s.cells addr = none) :
      MainMove s ((s.malloc client.conn addr).setMain (.storing client ⟨addr, s.allocs⟩))
  | stored (client : Client) (arg : Arg) (hs : s.main = .storing client arg) :
      MainMove s ((s.store client.conn arg.addr client.fd).setMain (.creating client arg))
  | created (client : Client) (arg : Arg) (hs : s.main = .creating client arg) :
      MainMove s ((s.create client arg).setMain .detaching)
  | noThread (client : Client) (arg : Arg) (hs : s.main = .creating client arg) :
      MainMove s (s.setMain (.freeing client arg))
  | freed (client : Client) (arg : Arg) (hs : s.main = .freeing client arg) :
      MainMove s ((s.free .main client.conn arg.addr).setMain (.closing client))
  | closed (client : Client) (hs : s.main = .closing client) :
      MainMove s ((s.close .main client.conn client.fd).setMain .accepting)
  | detached (hs : s.main = .detaching) : MainMove s (s.setMain .accepting)

/-- What a step of the worker `i` can be. -/
inductive WorkerMove (s : State) (i : ℕ) (client : Client) : WorkerPoint → State → Prop
  | read (arg : Arg) (value : ℤ) (hcan : s.CanRead arg.addr value) :
      WorkerMove s i client (.reading arg)
        ((s.cellCall (.read value) (.worker i) client.conn arg.addr).setWorker i client
          (.freeing arg value))
  | freed (arg : Arg) (fd : ℤ) :
      WorkerMove s i client (.freeing arg fd)
        ((s.free (.worker i) client.conn arg.addr).setWorker i client (.receiving fd))
  | received (fd : ℤ) (p : WorkerPoint) (hp : p = .sending fd ∨ p = .closing fd) :
      WorkerMove s i client (.receiving fd)
        ((s.socketCall .recv (.worker i) client.conn fd).setWorker i client p)
  | sent (fd : ℤ) :
      WorkerMove s i client (.sending fd)
        ((s.socketCall .send (.worker i) client.conn fd).setWorker i client (.closing fd))
  | closed (fd : ℤ) :
      WorkerMove s i client (.closing fd)
        ((s.close (.worker i) client.conn fd).setWorker i client .returned)

lemma MainMove.of_step {e : MainEvent} (h : mainStep s e = some s') : MainMove s s' := by
  unfold mainStep at h
  split at h
  · next fd hs =>
    split at h
    · next hfd =>
      cases h
      exact .accepted fd hs hfd
    · cases h
  · next hs =>
    cases h
    exact .acceptFailed hs
  · next client hs =>
    cases h
    exact .noMemory client hs
  · next client addr hs =>
    split at h
    · next haddr =>
      cases h
      exact .allocated client addr hs haddr
    · cases h
  · next client arg hs =>
    cases h
    exact .stored client arg hs
  · next client arg hs =>
    cases h
    exact .created client arg hs
  · next client arg hs =>
    cases h
    exact .noThread client arg hs
  · next client arg hs =>
    cases h
    exact .freed client arg hs
  · next client hs =>
    cases h
    exact .closed client hs
  · next hs =>
    cases h
    exact .detached hs
  · cases h

lemma WorkerMove.of_step {i : ℕ} {w : Worker} {e : WorkerEvent}
    (h : workerStep s i w e = some s') : WorkerMove s i w.client w.point s' := by
  obtain ⟨client, point⟩ := w
  unfold workerStep at h
  dsimp only at h ⊢
  split at h
  · next arg value =>
    split at h
    · next hcan =>
      cases h
      exact .read arg value hcan
    · cases h
  · next arg fd =>
    cases h
    exact .freed arg fd
  · next fd answer =>
    split at h
    · split at h <;> cases h
      · exact .received fd _ (.inl rfl)
      · exact .received fd _ (.inr rfl)
      · exact .received fd _ (.inr rfl)
    · cases h
  · next fd _ =>
    cases h
    exact .sent fd
  · next fd =>
    cases h
    exact .closed fd
  · cases h

/-- A step is a move of `main` or of a worker. -/
lemma move_of_step (h : Step s e s') :
    MainMove s s' ∨ ∃ i w, s.workers[i]? = some w ∧ WorkerMove s i w.client w.point s' := by
  cases e with
  | main e => exact .inl (.of_step h)
  | worker i e =>
    obtain ⟨w, hw, hstep⟩ := Option.bind_eq_some_iff.mp h
    exact .inr ⟨i, w, hw, .of_step hstep⟩

end ThreadServer

end Network

end CsLab
