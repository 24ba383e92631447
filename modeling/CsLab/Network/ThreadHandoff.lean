/-
Who has which descriptor and which cell in the server with a thread for each connection.

At every moment each open connection, and each allocated cell, is in the hands of one thread
(`Shared`, on top of `Owned`).  `main` gives both to the worker when it creates it, or gives
them back itself when it cannot.  A thread therefore only touches what is its own, whatever
the others do meanwhile and whichever numbers and addresses are handed out again.
-/
import CsLab.Lib.Ledger
import CsLab.Lib.Log
import CsLab.Lib.Owned
import CsLab.Network.ThreadServer

namespace CsLab

namespace Network

namespace ThreadServer

open Ledger Log

variable {s s' : State} {e : Event} {es : List Event} {t : Thread} {fd : ℤ} {owner addr : ℕ}
  {cell : Cell}

/-! ### What the log says -/

/-- What a step does to the connections. -/
def Entry.connOp : Entry → Option (Op ℕ)
  | .socket .accept _ _ _ conn => conn.map .acquire
  | .socket .close _ _ _ conn => conn.map .release
  | _ => none

/-- What a step does to the allocations. -/
def Entry.cellOp : Entry → Option (Op ℕ)
  | .cell .malloc _ _ _ cell => cell.map fun c => .acquire c.alloc
  | .cell .free _ _ _ cell => cell.map fun c => .release c.alloc
  | _ => none

def connOps (log : List Entry) : List (Op ℕ) := log.filterMap Entry.connOp

def cellOps (log : List Entry) : List (Op ℕ) := log.filterMap Entry.cellOp

/-- The connections that are open after the steps of a log. -/
def openConns (log : List Entry) : Finset ℕ := held ∅ (connOps log)

/-- The allocations that were not freed in a log. -/
def liveAllocs (log : List Entry) : Finset ℕ := held ∅ (cellOps log)

/-- The step is right after the steps of a log.  A thread uses the descriptor of the
connection that it is there for, while that is open.  A cell is touched while it is
allocated, and what is read from it is the number that `accept` returned for the connection
of the reader. -/
def Rightful (log : List Entry) : Entry → Prop
  | .socket .accept _ _ _ _ => True
  | .socket _ _ owner _ conn => conn = some owner ∧ owner ∈ openConns log
  | .cell .malloc _ _ _ _ => True
  | .cell (.read fd) _ owner _ cell =>
    (∃ a, cell = some ⟨a, some fd⟩ ∧ a ∈ liveAllocs log) ∧
      .socket .accept .main owner fd (some owner) ∈ log
  | .cell _ _ _ _ cell => ∃ c, cell = some c ∧ c.alloc ∈ liveAllocs log

lemma connOps_append (log : List Entry) (e : Entry) :
    connOps (log ++ [e]) = connOps log ++ e.connOp.toList :=
  filterMap_append_singleton ..

lemma cellOps_append (log : List Entry) (e : Entry) :
    cellOps (log ++ [e]) = cellOps log ++ e.cellOp.toList :=
  filterMap_append_singleton ..

/-! ### What is shared, and who has it -/

/-- The number of the allocation at an address. -/
def State.allocAt (s : State) : ℕ → Option ℕ := Option.map Cell.alloc ∘ s.cells

/-- The open connections and the allocated cells are those of the log, and each is in the
hands of one thread: `clientOf` and `argOf` say what the threads have. -/
structure Shared (s : State) (clientOf : Thread → Option (ℤ × ℕ))
    (argOf : Thread → Option (ℕ × Cell)) : Prop where
  conns : Custody s.conn s.accepts (connOps s.log)
  clients : Owned s.conn clientOf
  allocs : Custody s.allocAt s.allocs (cellOps s.log)
  args : Owned s.cells argOf
  accepted : ∀ fd c, s.conn fd = some c → .socket .accept .main c fd (some c) ∈ s.log
  rightful : Throughout Rightful s.log

namespace Shared

variable {clientOf : Thread → Option (ℤ × ℕ)} {argOf : Thread → Option (ℕ × Cell)}

/-- Where the threads stand does not matter. -/
lemma control (h : Shared s clientOf argOf) (p : MainPoint) (ws : List Worker) :
    Shared { s with main := p, workers := ws } clientOf argOf :=
  ⟨h.conns, h.clients, h.allocs, h.args, h.accepted, h.rightful⟩

lemma mem_openConns (h : Shared s clientOf argOf) (ht : clientOf t = some (fd, owner)) :
    owner ∈ openConns s.log :=
  h.conns.mem_held (h.clients.agree t fd owner ht)

lemma mem_liveAllocs (h : Shared s clientOf argOf) (ht : argOf t = some (addr, cell)) :
    cell.alloc ∈ liveAllocs s.log := by
  refine h.allocs.mem_held (i := addr) ?_
  simp [State.allocAt, h.args.agree t addr cell ht]

/-- A call on the descriptor that the thread has. -/
lemma use (h : Shared s clientOf argOf) {call : SocketCall} (hacc : call ≠ .accept)
    (hclose : call ≠ .close) (ht : clientOf t = some (fd, owner)) :
    Shared (s.socketCall call t owner fd) clientOf argOf := by
  have hconn := h.clients.agree t fd owner ht
  have hop : Entry.connOp (.socket call t owner fd (s.conn fd)) = none := by
    cases call <;> simp_all [Entry.connOp]
  have hright : Rightful s.log (.socket call t owner fd (s.conn fd)) := by
    cases call <;> first | exact absurd rfl hacc | exact ⟨hconn, h.mem_openConns ht⟩
  refine ⟨?_, h.clients, ?_, h.args, ?_, throughout_append_singleton.mpr ⟨h.rightful, hright⟩⟩
  · simp only [State.socketCall, connOps_append, hop, Option.toList_none, List.append_nil]
    exact h.conns
  · simp only [State.socketCall, cellOps_append, Entry.cellOp, Option.toList_none,
      List.append_nil]
    exact h.allocs
  · exact fun fd' c hc => List.mem_append_left _ (h.accepted fd' c hc)

/-- `accept` gives an unused number to a new connection, and to `main`. -/
lemma accept (h : Shared s clientOf argOf) (ht : clientOf .main = none) (hfd : s.Unused fd) :
    Shared (s.accept fd) (Function.update clientOf .main (some (fd, s.accepts))) argOf := by
  obtain ⟨-, -, hfree⟩ := hfd
  have hconn : Function.update s.conn fd (some s.accepts) fd = some s.accepts :=
    Function.update_self ..
  constructor
  · simp only [State.accept, State.socketCall, connOps_append, Entry.connOp, hconn]
    exact h.conns.acquire hfree
  · exact h.clients.acquire ht hfree s.accepts
  · simp only [State.accept, State.socketCall, cellOps_append, Entry.cellOp, Option.toList_none,
      List.append_nil]
    exact h.allocs
  · exact h.args
  · intro fd' c hc
    simp only [State.accept, State.socketCall, Function.update_apply] at hc ⊢
    split at hc
    · next heq =>
      cases hc
      simp [heq]
    · exact List.mem_append_left _ (h.accepted fd' c hc)
  · exact throughout_append_singleton.mpr ⟨h.rightful, trivial⟩

/-- The thread closes its connection. -/
lemma close (h : Shared s clientOf argOf) (ht : clientOf t = some (fd, owner)) :
    Shared (s.close t owner fd) (Function.update clientOf t none) argOf := by
  have hconn := h.clients.agree t fd owner ht
  constructor
  · simp only [State.close, State.socketCall, connOps_append, Entry.connOp, hconn]
    exact h.conns.release hconn
  · exact h.clients.release ht
  · simp only [State.close, State.socketCall, cellOps_append, Entry.cellOp, Option.toList_none,
      List.append_nil]
    exact h.allocs
  · exact h.args
  · intro fd' c hc
    simp only [State.close, State.socketCall, Function.update_apply] at hc ⊢
    split at hc
    · cases hc
    · exact List.mem_append_left _ (h.accepted fd' c hc)
  · exact throughout_append_singleton.mpr ⟨h.rightful, hconn, h.mem_openConns ht⟩

/-- `malloc` gives a free address to `main`. -/
lemma malloc (h : Shared s clientOf argOf) (ht : argOf .main = none)
    (haddr : s.cells addr = none) :
    Shared (s.malloc owner addr) clientOf
      (Function.update argOf .main (some (addr, ⟨s.allocs, none⟩))) := by
  have hcell : Function.update s.cells addr (some ⟨s.allocs, none⟩) addr =
      some ⟨s.allocs, none⟩ := Function.update_self ..
  constructor
  · simp only [State.malloc, State.cellCall, connOps_append, Entry.connOp, Option.toList_none,
      List.append_nil]
    exact h.conns
  · exact h.clients
  · have halloc := h.allocs.acquire (i := addr) (by simp [State.allocAt, haddr])
    simp only [State.malloc, State.cellCall, State.allocAt, Function.comp_update, cellOps_append,
      Entry.cellOp, hcell]
    exact halloc
  · exact h.args.acquire ht haddr ⟨s.allocs, none⟩
  · exact fun fd c hc => List.mem_append_left _ (h.accepted fd c hc)
  · exact throughout_append_singleton.mpr ⟨h.rightful, trivial⟩

/-- `main` stores a number in its cell. -/
lemma store (h : Shared s clientOf argOf) (ht : argOf .main = some (addr, cell)) (v : ℤ) :
    Shared (s.store owner addr v) clientOf
      (Function.update argOf .main (some (addr, { cell with value := some v }))) := by
  have hcell := h.args.agree .main addr cell ht
  constructor
  · simp only [State.store, State.cellCall, connOps_append, Entry.connOp, Option.toList_none,
      List.append_nil]
    exact h.conns
  · exact h.clients
  · have hsame : Function.update s.allocAt addr (some cell.alloc) = s.allocAt := by
      rw [Function.update_eq_self_iff]
      simp [State.allocAt, hcell]
    simp only [State.store, State.cellCall, cellOps_append, Entry.cellOp, Option.toList_none,
      List.append_nil, hcell, Option.map_some]
    simp only [State.allocAt, Function.comp_update, Option.map_some] at hsame ⊢
    rw [hsame]
    exact h.allocs
  · simp only [State.store, State.cellCall, hcell, Option.map_some]
    exact h.args.change ht _
  · exact fun fd c hc => List.mem_append_left _ (h.accepted fd c hc)
  · exact throughout_append_singleton.mpr ⟨h.rightful, cell, hcell, h.mem_liveAllocs ht⟩

/-- The thread reads the number of its descriptor from its cell. -/
lemma read (h : Shared s clientOf argOf) (hc : clientOf t = some (fd, owner))
    (ha : argOf t = some (addr, cell)) (hv : cell.value = some fd) :
    Shared (s.cellCall (.read fd) t owner addr) clientOf argOf := by
  have hcell := h.args.agree t addr cell ha
  have hright : Rightful s.log (.cell (.read fd) t owner addr (s.cells addr)) := by
    refine ⟨⟨cell.alloc, ?_, h.mem_liveAllocs ha⟩,
      h.accepted fd owner (h.clients.agree t fd owner hc)⟩
    rw [hcell, ← hv]
  refine ⟨?_, h.clients, ?_, h.args, ?_, throughout_append_singleton.mpr ⟨h.rightful, hright⟩⟩
  · simp only [State.cellCall, connOps_append, Entry.connOp, Option.toList_none, List.append_nil]
    exact h.conns
  · simp only [State.cellCall, cellOps_append, Entry.cellOp, Option.toList_none, List.append_nil]
    exact h.allocs
  · exact fun fd' c hc' => List.mem_append_left _ (h.accepted fd' c hc')

/-- The thread frees its cell. -/
lemma free (h : Shared s clientOf argOf) (ht : argOf t = some (addr, cell)) :
    Shared (s.free t owner addr) clientOf (Function.update argOf t none) := by
  have hcell := h.args.agree t addr cell ht
  have hlive := h.mem_liveAllocs ht
  constructor
  · simp only [State.free, State.cellCall, connOps_append, Entry.connOp, Option.toList_none,
      List.append_nil]
    exact h.conns
  · exact h.clients
  · have halloc := h.allocs.release (i := addr) (a := cell.alloc) (by simp [State.allocAt, hcell])
    simp only [State.free, State.cellCall, State.allocAt, Function.comp_update, cellOps_append,
      Entry.cellOp, hcell, Option.map_some, Option.map_none]
    exact halloc
  · exact h.args.release ht
  · exact fun fd c hc => List.mem_append_left _ (h.accepted fd c hc)
  · exact throughout_append_singleton.mpr ⟨h.rightful, cell, hcell, hlive⟩

end Shared

end ThreadServer

end Network

end CsLab
