/-
Runs of the poll server.

`Sound` is what the server owes its descriptors: no descriptor in two slots, the table in
step with the descriptors that were accepted and not closed, and one `close` for each of
them.  A run keeps it exactly as long as no turn of the loop over the clients meets an
entry with `POLLIN` and an error flag and then an end of the stream, or an error, in
`recv` (`sound_iff_closesOnce`): the turn closes the descriptor for the one and again for
the other.
-/
import CsLab.Network.PollClients

namespace CsLab

namespace Network

namespace PollServer

open Ledger

variable {s s' : State} {e : Event} {es : List Event}

/-- One step of the server. -/
abbrev Step : State → Event → State → Prop := stepOf exec

/-- What a step can be. -/
inductive Move (s : State) : Event → State → Prop
  | polled (revents : Slot → BitVec 16) (p : Point) (hs : s.point = .wait)
      (hp : p = .accepting ∨ p = .scanning 1) :
      Move s (.polled revents) { s.poll revents with point := p }
  | interrupted (hs : s.point = .wait) : Move s (.pollFailed eintr) s
  | pollFailed (errno : ℕ) (hs : s.point = .wait) : Move s (.pollFailed errno) s.shutdown
  | accepted (fd : ℤ) (hs : s.point = .accepting) (hfd : 0 ≤ fd) (hnew : fd ∉ s.openFds) :
      Move s (.accepted fd) (s.newClient fd)
  | acceptFailed (errno : ℕ) (hs : s.point = .accepting) :
      Move s (.acceptFailed errno) { s with point := .scanning 1 }
  | turn (i : Slot) (answer : Recv) (hs : s.point = .scanning i) :
      Move s (.turn answer) { s.scanSlot i answer with point := next i }

lemma Move.of_step (h : Step s e s') : Move s e s' := by
  unfold Step stepOf exec at h
  split at h
  · next revents hs =>
    cases h
    refine .polled revents _ hs ?_
    split
    · exact .inl rfl
    · exact .inr rfl
  · next errno hs =>
    cases h
    split
    · next herr =>
      subst herr
      exact .interrupted hs
    · exact .pollFailed errno hs
  · next fd hs =>
    split at h
    · next hok =>
      cases h
      exact .accepted fd hs hok.1 hok.2
    · cases h
  · next errno hs =>
    cases h
    exact .acceptFailed errno hs
  · next i answer hs =>
    cases h
    exact .turn i answer hs
  · cases h

/-! ### The invariant -/

/-- What holds in every reachable state. -/
structure Inv (s : State) : Prop where
  live : s.point ≠ .done → Live s
  scanning : ∀ i, s.point = .scanning i → i ≠ 0
  one_slot : ∀ i j fd, s.table i = some fd → s.table j = some fd → i = j
  all_closed : s.point = .done → s.openFds = ∅

namespace Inv

/-- The invariant of a state in which the server runs. -/
lemma of_live (h : Live s) (hs : s.point ≠ .done) (hscan : ∀ i, s.point = .scanning i → i ≠ 0) :
    Inv s :=
  ⟨fun _ => h, hscan, h.tracks.inj, fun hdone => absurd hdone hs⟩

lemma next_ne_done (i : Slot) : next i ≠ .done := by
  unfold next
  split <;> simp

lemma next_eq_scanning {i j : Slot} (h : next i = .scanning j) : j ≠ 0 := by
  unfold next at h
  split at h
  · cases h
    rw [Ne, Fin.ext_iff]
    simp
  · cases h

lemma start (serverFd : ℕ) (stack : Slot → Pollfd) : Inv (start serverFd stack) := by
  have hfree : ∀ i, (PollServer.start serverFd stack).table i = none := by
    intro i
    by_cases hi : i = 0
    · exact State.table_eq_none.mpr (.inl hi)
    · exact State.table_eq_none.mpr (.inr (by simp [PollServer.start, hi]))
  refine of_live ⟨⟨?_, ?_⟩, ?_, ?_⟩ (by simp [PollServer.start]) (by simp [PollServer.start])
  · simp [hfree]
  · intro fd
    simp only [hfree]
    simp [State.accepted, State.ops, PollServer.start]
  · simp [State.ops, PollServer.start]
  · simp [State.openFds, State.ops, PollServer.start]

lemma step (h : Inv s) (hstep : Step s e s') : Inv s' := by
  cases Move.of_step hstep with
  | polled revents p hs hp =>
    have hlive := (h.live (by simp [hs])).poll revents
    refine of_live (hlive.same rfl rfl rfl) ?_ ?_
    · rcases hp with rfl | rfl <;> simp
    · rintro i hi
      rcases hp with rfl | rfl <;> cases hi
      decide
  | interrupted => exact h
  | pollFailed errno hs =>
    have hlive := h.live (by simp [hs])
    exact ⟨fun hdone => absurd rfl hdone, fun i hi => (by cases hi), h.one_slot,
      fun _ => hlive.openFds_shutdown⟩
  | accepted fd hs hfd hnew =>
    have hpoint : (s.newClient fd).point = .accepting := by rw [s.newClient_point, hs]
    refine of_live ((h.live (by simp [hs])).newClient hfd hnew) ?_ ?_
    · simp [hpoint]
    · simp [hpoint]
  | acceptFailed errno hs =>
    refine of_live ((h.live (by simp [hs])).same rfl rfl rfl) (by simp) ?_
    rintro i hi
    cases hi
    decide
  | turn i answer hs =>
    have hlive := (h.live (by simp [hs])).scanSlot (h.scanning i hs) answer
    exact of_live (hlive.same rfl rfl rfl) (next_ne_done i) fun j => next_eq_scanning

lemma run {serverFd : ℕ} {stack : Slot → Pollfd}
    (hrun : Run Step (PollServer.start serverFd stack) es s) : Inv s :=
  hrun.invariant (fun _ _ _ h hstep => h.step hstep) (start serverFd stack)

end Inv

/-! ### What the server owes its descriptors -/

/-- The descriptors are handled as they should be, up to this state. -/
structure Sound (s : State) : Prop where
  /-- No descriptor is in two slots. -/
  one_slot : ∀ i j, i ≠ 0 → j ≠ 0 → (s.fds i).fd = (s.fds j).fd → (s.fds i).fd ≠ -1 → i = j
  /-- While the server runs, the occupied slots hold the descriptors that were accepted and
  not closed. -/
  slots : s.point ≠ .done → ∀ fd, (fd ≠ -1 ∧ ∃ i, i ≠ 0 ∧ (s.fds i).fd = fd) ↔ fd ∈ s.accepted
  /-- Nothing is closed that is not open. -/
  closes_open : Balanced {s.serverFd} s.ops
  /-- From one `accept` of a descriptor on it is closed once, or is still open. -/
  closes_once : ReleasedOnce {s.serverFd} s.ops
  /-- In the end nothing is open. -/
  all_closed : s.point = .done → s.openFds = ∅

/-- The step is not one that closes a descriptor twice: no turn for an entry with both
`POLLIN` and an error flag in which `recv` ends the connection. -/
def ClosesOnce (s : State) (e : Event) : Prop :=
  ∀ i answer, s.point = .scanning i → e = .turn answer →
    ¬ ((s.fds i).fd ≠ -1 ∧ (s.fds i).Readable ∧ (s.fds i).Broken ∧ answer.Ends)

lemma Inv.sound_iff (h : Inv s) : Sound s ↔ Balanced {s.serverFd} s.ops := by
  constructor
  · exact Sound.closes_open
  · intro hb
    refine ⟨?_, ?_, hb, hb.releasedOnce, h.all_closed⟩
    · intro i j hi hj heq hfd
      exact h.one_slot i j _ (State.table_eq_some.mpr ⟨hi, hfd, rfl⟩)
        (State.table_eq_some.mpr ⟨hj, hfd, heq.symm⟩)
    · intro hs fd
      rw [(h.live hs).tracks.mem_iff]
      simp only [State.table_eq_some]
      tauto

/-- What one step does to the balance of the ledger. -/
lemma Inv.balanced_step (h : Inv s) (hstep : Step s e s') :
    Balanced {s'.serverFd} s'.ops ↔ Balanced {s.serverFd} s.ops ∧ ClosesOnce s e := by
  -- all steps but a turn of the loop meet the condition
  have hother : (∀ i, s.point ≠ .scanning i) → ClosesOnce s e :=
    fun hs i _ hi => absurd hi (hs i)
  cases Move.of_step hstep with
  | polled revents p hs hp => exact (and_iff_left (hother (by simp [hs]))).symm
  | interrupted hs => exact (and_iff_left (hother (by simp [hs]))).symm
  | pollFailed errno hs =>
    rw [and_iff_left (hother (by simp [hs]))]
    exact (h.live (by simp [hs])).balanced_shutdown
  | accepted fd hs hfd hnew =>
    rw [and_iff_left (hother (by simp [hs])), s.newClient_serverFd]
    exact balanced_newClient hfd hnew
  | acceptFailed errno hs => exact (and_iff_left (hother (by simp [hs]))).symm
  | turn i answer hs =>
    have hlive := h.live (by simp [hs])
    have hturn := balanced_scanSlot hlive (h.scanning i hs) answer
    have hcond : ClosesOnce s (.turn answer) ↔
        ¬ ((s.fds i).fd ≠ -1 ∧ (s.fds i).Readable ∧ (s.fds i).Broken ∧ answer.Ends) := by
      constructor
      · intro hc
        exact hc i answer hs rfl
      · rintro hc j answer' hj ⟨⟩
        rw [hs] at hj
        cases hj
        exact hc
    rw [hcond, ← hturn, ← s.scanSlot_serverFd i answer]
    rfl

/-- In a run of the server its descriptors are handled as they should be, in every state,
exactly if every step of the run closes once. -/
theorem sound_iff_closesOnce {serverFd : ℕ} {stack : Slot → Pollfd}
    (hrun : Run Step (start serverFd stack) es s) :
    (∀ es₁ s₁, es₁ <+: es → Run Step (start serverFd stack) es₁ s₁ → Sound s₁) ↔
      ∀ es₁ e s₁, es₁ ++ [e] <+: es → Run Step (start serverFd stack) es₁ s₁ →
        ClosesOnce s₁ e := by
  refine hrun.always_iff (P := fun _ => Sound) (stepOf_unique exec) ?_ ?_
  · rw [(Inv.start serverFd stack).sound_iff]
    exact balanced_nil
  · intro es₁ s₁ e s₂ hrun₁ hsound hstep
    have hinv := Inv.run hrun₁
    rw [(hinv.step hstep).sound_iff, hinv.balanced_step hstep]
    exact and_iff_right hsound.closes_open

/-- A client comes, and when it hangs up `poll` reports `POLLIN` and `POLLHUP` for it. -/
def hangupEvents : List Event :=
  [.polled fun i => if i.val = 0 then pollIn else 0, .accepted 4, .acceptFailed eagain] ++
    List.replicate maxClients (.turn .eof) ++
    [.polled fun i => if i.val = 1 then pollIn ||| pollHup else 0, .turn .eof]

/-- The descriptor of the client that hung up is closed twice. -/
lemma exists_hangup_run : ∃ s, Run Step (start 3 fun _ => ⟨0, 0, 0⟩) hangupEvents s ∧
    s.ops = [.acquire 4, .release 4, .release 4] := by
  have hops : (hangupEvents.foldlM exec (start 3 fun _ => ⟨0, 0, 0⟩)).map State.ops =
      some [.acquire 4, .release 4, .release 4] := by decide +kernel
  obtain ⟨s, hrun, hs⟩ := Option.map_eq_some_iff.mp hops
  exact ⟨s, .of_foldlM hrun, hs⟩

theorem not_sound : ¬ ∀ (serverFd : ℕ) (stack : Slot → Pollfd) (es : List Event) (s : State),
    Run Step (start serverFd stack) es s → Sound s := by
  intro h
  obtain ⟨s, hrun, hops⟩ := exists_hangup_run
  have honce := (h 3 _ _ s hrun).closes_once [] 4 [.release 4, .release 4] [] hops (by decide)
  by_cases hopen : (4 : ℤ) ∈ held {s.serverFd} ([] ++ .acquire 4 :: [.release 4, .release 4])
  · exact absurd (honce.1 hopen) (by decide)
  · exact absurd (honce.2 hopen) (by decide)

theorem sound_iff_closesOnce_hangup :
    ∃ s, Run Step (start 3 fun _ => ⟨0, 0, 0⟩) hangupEvents s ∧
      ((∀ es₁ s₁, es₁ <+: hangupEvents →
          Run Step (start 3 fun _ => ⟨0, 0, 0⟩) es₁ s₁ → Sound s₁) ↔
        ∀ es₁ e s₁, es₁ ++ [e] <+: hangupEvents →
          Run Step (start 3 fun _ => ⟨0, 0, 0⟩) es₁ s₁ → ClosesOnce s₁ e) := by
  obtain ⟨s, hrun, -⟩ := exists_hangup_run
  exact ⟨s, hrun, sound_iff_closesOnce hrun⟩

end PollServer

end Network

end CsLab
