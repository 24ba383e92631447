/-
Runs of the server with a thread for each connection.

The variables of a thread say what it has in hand (`State.clientOf`, `State.argOf`), so every
step is one of the rules for what is shared (`Inv.main`, `Inv.worker`), in any interleaving.
-/
import CsLab.Network.ThreadHandoff

namespace CsLab

namespace Network

namespace ThreadServer

open Ledger Log

variable {s s' : State} {e : Event} {es : List Event}

/-! ### What the threads have -/

/-- The client that `main` is about to hand over or to turn away. -/
def MainPoint.client : MainPoint → Option Client
  | .accepting => none
  | .allocating client => some client
  | .storing client _ => some client
  | .creating client _ => some client
  | .freeing client _ => some client
  | .closing client => some client
  | .detaching => none

/-- The cell of `main`, with its address. -/
def MainPoint.cell : MainPoint → Option (ℕ × Cell)
  | .storing _ arg => some (arg.addr, ⟨arg.alloc, none⟩)
  | .creating client arg => some (arg.addr, ⟨arg.alloc, some client.fd⟩)
  | .freeing client arg => some (arg.addr, ⟨arg.alloc, some client.fd⟩)
  | _ => none

namespace WorkerPoint

/-- The worker has its client as long as it has not returned. -/
def hasClient : WorkerPoint → Bool
  | .returned => false
  | _ => true

def arg : WorkerPoint → Option Arg
  | .reading arg => some arg
  | .freeing arg _ => some arg
  | _ => none

/-- The variable `client_fd`, once it is set. -/
def clientFd : WorkerPoint → Option ℤ
  | .reading _ => none
  | .freeing _ fd => some fd
  | .receiving fd => some fd
  | .sending fd => some fd
  | .closing fd => some fd
  | .returned => none

end WorkerPoint

namespace Worker

def inHand (w : Worker) : Option (ℤ × ℕ) :=
  if w.point.hasClient then some (w.client.fd, w.client.conn) else none

/-- The cell of the worker, with its address: the number of its descriptor was stored there. -/
def cell (w : Worker) : Option (ℕ × Cell) :=
  w.point.arg.map fun arg => (arg.addr, ⟨arg.alloc, some w.client.fd⟩)

/-- The variable `client_fd` of the worker is right. -/
def Knows (w : Worker) : Prop := ∀ fd ∈ w.point.clientFd, fd = w.client.fd

end Worker

namespace State

/-- The connection that a thread has, with its descriptor. -/
def clientOf (s : State) : Thread → Option (ℤ × ℕ)
  | .main => s.main.client.map fun client => (client.fd, client.conn)
  | .worker i => s.workers[i]?.bind Worker.inHand

/-- The cell that a thread has, with its address. -/
def argOf (s : State) : Thread → Option (ℕ × Cell)
  | .main => s.main.cell
  | .worker i => s.workers[i]?.bind Worker.cell

lemma clientOf_setMain (s : State) (p : MainPoint) :
    (s.setMain p).clientOf = Function.update s.clientOf .main
      (p.client.map fun client => (client.fd, client.conn)) := by
  ext1 t
  cases t with
  | main => rw [Function.update_self]; rfl
  | worker i => rw [Function.update_of_ne (by simp)]; rfl

lemma argOf_setMain (s : State) (p : MainPoint) :
    (s.setMain p).argOf = Function.update s.argOf .main p.cell := by
  ext1 t
  cases t with
  | main => rw [Function.update_self]; rfl
  | worker i => rw [Function.update_of_ne (by simp)]; rfl

/-- What a worker has changes with the point it stands at. -/
lemma bind_set {α : Type*} {ws : List Worker} {i : ℕ} (hi : i < ws.length) (w : Worker)
    (f : Worker → Option α) (j : ℕ) :
    (ws.set i w)[j]?.bind f = if j = i then f w else ws[j]?.bind f := by
  rw [List.getElem?_set]
  by_cases hji : j = i
  · subst hji
    simp [hi]
  · simp [hji, Ne.symm hji]

lemma clientOf_setWorker (s : State) {i : ℕ} (hi : i < s.workers.length) (client : Client)
    (p : WorkerPoint) :
    (s.setWorker i client p).clientOf =
      Function.update s.clientOf (.worker i) (Worker.inHand ⟨client, p⟩) := by
  ext1 t
  cases t with
  | main => rw [Function.update_of_ne (by simp)]; rfl
  | worker j =>
    simp only [Function.update_apply, Thread.worker.injEq]
    exact bind_set hi _ _ j

lemma argOf_setWorker (s : State) {i : ℕ} (hi : i < s.workers.length) (client : Client)
    (p : WorkerPoint) :
    (s.setWorker i client p).argOf =
      Function.update s.argOf (.worker i) (Worker.cell ⟨client, p⟩) := by
  ext1 t
  cases t with
  | main => rw [Function.update_of_ne (by simp)]; rfl
  | worker j =>
    simp only [Function.update_apply, Thread.worker.injEq]
    exact bind_set hi _ _ j

lemma bind_append {α : Type*} (ws : List Worker) (w : Worker) (f : Worker → Option α) (j : ℕ) :
    (ws ++ [w])[j]?.bind f = if j = ws.length then f w else ws[j]?.bind f := by
  rcases Nat.lt_trichotomy j ws.length with hlt | rfl | hgt
  · rw [List.getElem?_append_left hlt, if_neg (Nat.ne_of_lt hlt)]
  · simp
  · rw [List.getElem?_eq_none (by simp; omega), List.getElem?_eq_none (Nat.le_of_lt hgt),
      if_neg (Nat.ne_of_gt hgt)]

lemma clientOf_create (s : State) (client : Client) (arg : Arg) :
    (s.create client arg).clientOf =
      Function.update s.clientOf (.worker s.workers.length) (some (client.fd, client.conn)) := by
  ext1 t
  cases t with
  | main => rw [Function.update_of_ne (by simp)]; rfl
  | worker j =>
    simp only [Function.update_apply, Thread.worker.injEq]
    exact bind_append _ _ _ j

lemma argOf_create (s : State) (client : Client) (arg : Arg) :
    (s.create client arg).argOf =
      Function.update s.argOf (.worker s.workers.length)
        (some (arg.addr, ⟨arg.alloc, some client.fd⟩)) := by
  ext1 t
  cases t with
  | main => rw [Function.update_of_ne (by simp)]; rfl
  | worker j =>
    simp only [Function.update_apply, Thread.worker.injEq]
    exact bind_append _ _ _ j

end State

/-! ### Steps -/

/-- What holds between two steps. -/
structure Inv (s : State) : Prop where
  shared : Shared s s.clientOf s.argOf
  knows : ∀ w ∈ s.workers, w.Knows

lemma Inv.start (serverFd : ℕ) : Inv (start serverFd) where
  shared :=
    { conns := Custody.start
      clients := by
        have hnone : (ThreadServer.start serverFd).clientOf = fun _ => none := by
          ext1 t
          cases t <;> rfl
        exact hnone ▸ Owned.start
      allocs := Custody.start
      args := by
        have hnone : (ThreadServer.start serverFd).argOf = fun _ => none := by
          ext1 t
          cases t <;> rfl
        exact hnone ▸ Owned.start
      accepted := by simp [ThreadServer.start]
      rightful := throughout_nil }
  knows := by simp [ThreadServer.start]

section Main

variable {clientOf : Thread → Option (ℤ × ℕ)} {argOf : Thread → Option (ℕ × Cell)}
  {s₁ : State} {p : MainPoint}

/-- `main` goes on to `p`, after a step that has led from `s` to `s₁`. -/
lemma Inv.setMain (h : Inv s) (hshared : Shared s₁ clientOf argOf) (hmain : s₁.main = s.main)
    (hworkers : s₁.workers = s.workers)
    (hclient : clientOf = Function.update s.clientOf .main
      (p.client.map fun client => (client.fd, client.conn)))
    (harg : argOf = Function.update s.argOf .main p.cell) : Inv (s₁.setMain p) := by
  have hclient₁ : s₁.clientOf = s.clientOf := by
    ext1 t
    cases t <;> simp [State.clientOf, hmain, hworkers]
  have harg₁ : s₁.argOf = s.argOf := by
    ext1 t
    cases t <;> simp [State.argOf, hmain, hworkers]
  refine ⟨?_, ?_⟩
  · rw [State.clientOf_setMain, State.argOf_setMain, hclient₁, harg₁, ← hclient, ← harg]
    exact hshared.control p s₁.workers
  · simp only [State.setMain, hworkers]
    exact h.knows

lemma keepClient (hp : s.main.client = p.client) :
    s.clientOf = Function.update s.clientOf .main
      (p.client.map fun client => (client.fd, client.conn)) := by
  rw [← hp]
  exact (Function.update_eq_self .main s.clientOf).symm

lemma keepCell (hp : s.main.cell = p.cell) :
    s.argOf = Function.update s.argOf .main p.cell := by
  rw [← hp]
  exact (Function.update_eq_self .main s.argOf).symm

/-- `main` hands its client and its cell to a new worker. -/
lemma Inv.create (h : Inv s) {client : Client} {arg : Arg} (hs : s.main = .creating client arg) :
    Inv ((s.create client arg).setMain .detaching) := by
  have hnew : ∀ i, s.workers[i]? = none → s.clientOf (.worker i) = none ∧
      s.argOf (.worker i) = none := fun i hi => by simp [State.clientOf, State.argOf, hi]
  obtain ⟨hnoClient, hnoArg⟩ := hnew s.workers.length (List.getElem?_eq_none le_rfl)
  have hclients := h.shared.clients.move (t := .main) (k := client.fd) (v := client.conn)
    (by simp [State.clientOf, hs, MainPoint.client]) hnoClient
  have hargs := h.shared.args.move (t := .main) (k := arg.addr) (v := ⟨arg.alloc, some client.fd⟩)
    (by simp [State.argOf, hs, MainPoint.cell]) hnoArg
  have hclient : ((s.create client arg).setMain .detaching).clientOf =
      Function.update (Function.update s.clientOf .main none) (.worker s.workers.length)
        (some (client.fd, client.conn)) := by
    rw [State.clientOf_setMain, State.clientOf_create, Function.update_comm (by simp)]
    rfl
  have harg : ((s.create client arg).setMain .detaching).argOf =
      Function.update (Function.update s.argOf .main none) (.worker s.workers.length)
        (some (arg.addr, ⟨arg.alloc, some client.fd⟩)) := by
    rw [State.argOf_setMain, State.argOf_create, Function.update_comm (by simp)]
    rfl
  refine ⟨?_, ?_⟩
  · rw [hclient, harg]
    exact ⟨h.shared.conns, hclients, h.shared.allocs, hargs, h.shared.accepted, h.shared.rightful⟩
  · intro w hw
    rcases List.mem_append.mp hw with hw | hw
    · exact h.knows w hw
    · rw [List.mem_singleton.mp hw]
      simp [Worker.Knows, WorkerPoint.clientFd]

lemma Inv.main (h : Inv s) (hmove : MainMove s s') : Inv s' := by
  cases hmove with
  | accepted fd hs hfd =>
    have hnone : s.clientOf .main = none := by simp [State.clientOf, hs, MainPoint.client]
    exact h.setMain (h.shared.accept hnone hfd) rfl rfl rfl
      (keepCell (by simp [hs, MainPoint.cell]))
  | acceptFailed => exact h
  | noMemory client hs =>
    exact h.setMain h.shared rfl rfl (keepClient (by simp [hs, MainPoint.client]))
      (keepCell (by simp [hs, MainPoint.cell]))
  | allocated client addr hs haddr =>
    have hnone : s.argOf .main = none := by simp [State.argOf, hs, MainPoint.cell]
    exact h.setMain (h.shared.malloc hnone haddr) rfl rfl
      (keepClient (by simp [hs, MainPoint.client])) rfl
  | stored client arg hs =>
    have harg : s.argOf .main = some (arg.addr, ⟨arg.alloc, none⟩) := by
      simp [State.argOf, hs, MainPoint.cell]
    exact h.setMain (h.shared.store harg client.fd) rfl rfl
      (keepClient (by simp [hs, MainPoint.client])) rfl
  | created client arg hs => exact h.create hs
  | noThread client arg hs =>
    exact h.setMain h.shared rfl rfl (keepClient (by simp [hs, MainPoint.client]))
      (keepCell (by simp [hs, MainPoint.cell]))
  | freed client arg hs =>
    have harg : s.argOf .main = some (arg.addr, ⟨arg.alloc, some client.fd⟩) := by
      simp [State.argOf, hs, MainPoint.cell]
    exact h.setMain (h.shared.free harg) rfl rfl
      (keepClient (by simp [hs, MainPoint.client])) rfl
  | closed client hs =>
    have hclient : s.clientOf .main = some (client.fd, client.conn) := by
      simp [State.clientOf, hs, MainPoint.client]
    exact h.setMain (h.shared.close hclient) rfl rfl rfl
      (keepCell (by simp [hs, MainPoint.cell]))
  | detached hs =>
    exact h.setMain h.shared rfl rfl (keepClient (by simp [hs, MainPoint.client]))
      (keepCell (by simp [hs, MainPoint.cell]))

end Main

section Worker

variable {clientOf : Thread → Option (ℤ × ℕ)} {argOf : Thread → Option (ℕ × Cell)}
  {s₁ : State} {i : ℕ} {client : Client} {q p : WorkerPoint}

/-- The worker `i` goes on to `p`, after a step that has led from `s` to `s₁`. -/
lemma Inv.setWorker (h : Inv s) (hi : s.workers[i]? = some ⟨client, q⟩)
    (hshared : Shared s₁ clientOf argOf) (hmain : s₁.main = s.main)
    (hworkers : s₁.workers = s.workers)
    (hclient : clientOf = Function.update s.clientOf (.worker i) (Worker.inHand ⟨client, p⟩))
    (harg : argOf = Function.update s.argOf (.worker i) (Worker.cell ⟨client, p⟩))
    (hknows : ∀ fd ∈ p.clientFd, fd = client.fd) : Inv (s₁.setWorker i client p) := by
  have hlt : i < s₁.workers.length := hworkers ▸ (List.getElem?_eq_some_iff.mp hi).1
  have hclient₁ : s₁.clientOf = s.clientOf := by
    ext1 t
    cases t <;> simp [State.clientOf, hmain, hworkers]
  have harg₁ : s₁.argOf = s.argOf := by
    ext1 t
    cases t <;> simp [State.argOf, hmain, hworkers]
  refine ⟨?_, ?_⟩
  · rw [State.clientOf_setWorker s₁ hlt, State.argOf_setWorker s₁ hlt, hclient₁, harg₁, ← hclient,
      ← harg]
    exact hshared.control s₁.main _
  · intro w hw
    rcases List.mem_or_eq_of_mem_set hw with hw | rfl
    · exact h.knows w (hworkers ▸ hw)
    · exact hknows

lemma keepInHand (hi : s.workers[i]? = some ⟨client, q⟩) (hp : q.hasClient = p.hasClient) :
    s.clientOf = Function.update s.clientOf (.worker i) (Worker.inHand ⟨client, p⟩) := by
  rw [eq_comm, Function.update_eq_self_iff]
  simp [State.clientOf, hi, Worker.inHand, hp]

lemma keepArg (hi : s.workers[i]? = some ⟨client, q⟩) (hp : q.arg = p.arg) :
    s.argOf = Function.update s.argOf (.worker i) (Worker.cell ⟨client, p⟩) := by
  rw [eq_comm, Function.update_eq_self_iff]
  simp [State.argOf, hi, Worker.cell, hp]

lemma Inv.worker (h : Inv s) (hi : s.workers[i]? = some ⟨client, q⟩)
    (hmove : WorkerMove s i client q s') : Inv s' := by
  have hclient : q.hasClient = true → s.clientOf (.worker i) = some (client.fd, client.conn) :=
    fun hq => by simp [State.clientOf, hi, Worker.inHand, hq]
  have harg : ∀ arg, q.arg = some arg →
      s.argOf (.worker i) = some (arg.addr, ⟨arg.alloc, some client.fd⟩) :=
    fun arg hq => by simp [State.argOf, hi, Worker.cell, hq]
  have hknows : ∀ fd ∈ q.clientFd, fd = client.fd := h.knows _ (List.mem_of_getElem? hi)
  cases hmove with
  | read arg value hcan =>
    have hcell := h.shared.args.agree _ _ _ (harg arg rfl)
    obtain rfl : value = client.fd := hcan client.fd (by simp [hcell])
    exact h.setWorker hi (h.shared.read (hclient rfl) (harg arg rfl) rfl) rfl rfl
      (keepInHand hi rfl) (keepArg hi rfl) (by simp [WorkerPoint.clientFd])
  | freed arg fd =>
    exact h.setWorker hi (h.shared.free (harg arg rfl)) rfl rfl (keepInHand hi rfl) rfl hknows
  | received fd p hp =>
    obtain rfl : fd = client.fd := hknows fd rfl
    refine h.setWorker hi (h.shared.use (by simp) (by simp) (hclient rfl)) rfl rfl
      (keepInHand hi ?_) (keepArg hi ?_) ?_
    · rcases hp with rfl | rfl <;> rfl
    · rcases hp with rfl | rfl <;> rfl
    · rcases hp with rfl | rfl <;> exact hknows
  | sent fd =>
    obtain rfl : fd = client.fd := hknows fd rfl
    exact h.setWorker hi (h.shared.use (by simp) (by simp) (hclient rfl)) rfl rfl
      (keepInHand hi rfl) (keepArg hi rfl) hknows
  | closed fd =>
    obtain rfl : fd = client.fd := hknows fd rfl
    exact h.setWorker hi (h.shared.close (hclient rfl)) rfl rfl rfl (keepArg hi rfl)
      (by simp [WorkerPoint.clientFd])

end Worker

lemma Inv.step (h : Inv s) (hstep : Step s e s') : Inv s' := by
  rcases move_of_step hstep with hmove | ⟨i, w, hi, hmove⟩
  · exact h.main hmove
  · exact h.worker hi hmove

lemma Inv.run {serverFd : ℕ} (hrun : Run Step (ThreadServer.start serverFd) es s) : Inv s :=
  hrun.invariant (fun _ _ _ h hstep => h.step hstep) (start serverFd)

/-- The connection is being handled: `main` is about to hand it over or to turn it away, or
its worker has not returned. -/
def Handling (s : State) (c : ℕ) : Prop :=
  (∃ client, s.main.client = some client ∧ client.conn = c) ∨
    ∃ w ∈ s.workers, w.client.conn = c ∧ w.point ≠ .returned

/-- The open connections are those that are being handled. -/
lemma Inv.handling_iff (h : Inv s) (c : ℕ) : Handling s c ↔ c ∈ openConns s.log := by
  constructor
  · rintro (⟨client, hclient, rfl⟩ | ⟨w, hw, rfl, hpoint⟩)
    · have ht : s.clientOf .main = some (client.fd, client.conn) := by
        simp [State.clientOf, hclient]
      exact h.shared.mem_openConns ht
    · obtain ⟨i, hi⟩ := List.mem_iff_getElem?.mp hw
      have hhas : w.point.hasClient = true := by
        cases hp : w.point <;> simp_all [WorkerPoint.hasClient]
      have ht : s.clientOf (.worker i) = some (w.client.fd, w.client.conn) := by
        simp [State.clientOf, hi, Worker.inHand, hhas]
      exact h.shared.mem_openConns ht
  · intro hc
    obtain ⟨fd, hfd⟩ := (h.shared.conns.tracks.mem_iff c).mp hc
    obtain ⟨t, ht⟩ := h.shared.clients.owner fd c hfd
    cases t with
    | main =>
      obtain ⟨client, hclient, heq⟩ := Option.map_eq_some_iff.mp ht
      cases heq
      exact .inl ⟨client, hclient, rfl⟩
    | worker i =>
      obtain ⟨w, hw, hhand⟩ := Option.bind_eq_some_iff.mp ht
      unfold Worker.inHand at hhand
      split at hhand
      · next hhas =>
        cases hhand
        refine .inr ⟨w, List.mem_of_getElem? hw, rfl, ?_⟩
        intro hpoint
        rw [hpoint] at hhas
        cases hhas
      · cases hhand

/-- **The hand-off is safe** in every interleaving: each thread uses the descriptor of its own
connection while that is open, reads from its cell the number that `accept` returned for this
connection, and touches no cell that was freed; no cell is freed twice; and a connection is
closed once its handling has ended, and only once. -/
theorem handoff_safe {serverFd : ℕ} (hrun : Run Step (start serverFd) es s) :
    Throughout Rightful s.log ∧
      (∀ a, (cellOps s.log).count (.acquire a) ≤ 1 ∧ (cellOps s.log).count (.release a) ≤ 1) ∧
      (∀ c, (connOps s.log).count (.acquire c) = if c < s.accepts then 1 else 0) ∧
      (∀ c, (connOps s.log).count (.release c) ≤ 1) ∧
      ∀ c < s.accepts, ¬ Handling s c → (connOps s.log).count (.release c) = 1 := by
  have h := Inv.run hrun
  have hconns := h.shared.conns.numbered
  have hcells := h.shared.allocs.numbered
  refine ⟨h.shared.rightful, fun a => ?_, hconns.count_acquire, fun c => ?_, ?_⟩
  · rw [hcells.count_acquire, hcells.count_release]
    constructor
    · split <;> omega
    · split <;> omega
  · rw [hconns.count_release]
    split <;> omega
  · intro c hc hended
    rw [h.handling_iff] at hended
    rw [hconns.count_release, if_pos ⟨hc, hended⟩]

/-- A worker has returned while the next client is being served; that one gets the number of
its descriptor and the address of its cell again.  For a third client there is no thread. -/
def handoffEvents : List Event :=
  [.main (.accepted 4), .main (.allocated (some 16)), .main .stored, .main (.created true),
    .worker 0 (.read 4), .main .detached, .worker 0 .freed, .worker 0 (.received .eof),
    .worker 0 .closed, .main (.accepted 4), .main (.allocated (some 16)), .main .stored,
    .main (.created true), .main .detached, .main (.accepted 5), .worker 1 (.read 4),
    .main (.allocated (some 32)), .main .stored, .main (.created false), .worker 1 .freed,
    .main .freed, .worker 1 (.received (.data ⟨[97], by decide, by decide⟩)), .main .closed]

theorem handoff_safe_reuse :
    ∃ s, Run Step (start 3) handoffEvents s ∧
      Throughout Rightful s.log ∧
        (∀ a, (cellOps s.log).count (.acquire a) ≤ 1 ∧
          (cellOps s.log).count (.release a) ≤ 1) ∧
        (∀ c, (connOps s.log).count (.acquire c) = if c < s.accepts then 1 else 0) ∧
        (∀ c, (connOps s.log).count (.release c) ≤ 1) ∧
        ∀ c < s.accepts, ¬ Handling s c → (connOps s.log).count (.release c) = 1 := by
  have hsome : (handoffEvents.foldlM exec (start 3)).isSome := by decide +kernel
  obtain ⟨s, hs⟩ := Option.isSome_iff_exists.mp hsome
  have hrun : Run Step (start 3) handoffEvents s := .of_foldlM hs
  exact ⟨s, hrun, handoff_safe hrun⟩

end ThreadServer

end Network

end CsLab
