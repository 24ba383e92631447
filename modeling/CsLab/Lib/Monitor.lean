/-
Threads with a mutex and a condition variable.

Every thread has a program: at a point of it there is one `Act` to do.  The events say which
thread goes on, and for a signal whom it wakes up.  A sleeping thread may also wake up without
a signal.

A program is `Disciplined` if it takes the mutex and gives it back, and uses the shared data
only in between.  Then there is one thread at most that holds the mutex (`Excl`), it is never
the one that cannot go on (`Stuck.owner`), and if there is a `Budget` then a run only gets
long by wake-ups without a signal (`run_length_le`).
-/
import Mathlib.Algebra.BigOperators.Group.Finset.Basic
import Mathlib.Algebra.Group.Action.Defs
import Mathlib.Algebra.Order.BigOperators.Group.Finset
import Mathlib.Data.Fintype.Basic
import Mathlib.Tactic.Common
import CsLab.Lib.Run

namespace CsLab

namespace Monitor

/-- What a thread does at a point, and where it goes on. -/
inductive Act (ι σ Q : Type*) where
  | lock (next : Q)
  | unlock (next : Q)
  /-- Give the mutex back and sleep; go on with the mutex. -/
  | wait (next : Q)
  | signal (next : Q)
  /-- Use the shared data. -/
  | access (f : σ → σ × Q)
  | create (u : ι) (next : Q)
  | join (u : ι) (next : Q)
  /-- The thread has ended. -/
  | stop

inductive Phase where
  /-- not created yet -/
  | unborn
  | running
  /-- in the queue of the condition variable -/
  | asleep
  /-- out of the queue, and waits for the mutex -/
  | woken
deriving DecidableEq

structure State (ι σ : Type*) (Q : ι → Type*) where
  data : σ
  /-- Who holds the mutex. -/
  owner : Option ι
  point : ∀ t, Q t
  phase : ι → Phase

inductive Event (ι : Type*) where
  /-- the act of a thread, unless it is a signal -/
  | act (t : ι)
  /-- a signal, and whom it wakes up -/
  | signal (t : ι) (woken : List ι)
  /-- a thread that was woken up gets the mutex -/
  | resume (t : ι)
  /-- a thread wakes up without a signal -/
  | spurious (t : ι)
deriving DecidableEq

def Event.Spurious {ι : Type*} : Event ι → Bool
  | .spurious _ => true
  | _ => false

variable {ι σ : Type*} {Q : ι → Type*}

def Act.Stops {A : Type*} : Act ι σ A → Bool
  | .stop => true
  | _ => false

lemma Act.stops_iff {A : Type*} {a : Act ι σ A} : a.Stops = true ↔ a = .stop := by
  cases a <;> simp [Stops]

namespace State

variable [DecidableEq ι]

def goto (s : State ι σ Q) (t : ι) (q : Q t) : State ι σ Q :=
  { s with point := Function.update s.point t q }

def turn (s : State ι σ Q) (t : ι) (p : Phase) : State ι σ Q :=
  { s with phase := Function.update s.phase t p }

def own (s : State ι σ Q) (o : Option ι) : State ι σ Q := { s with owner := o }

def wakeAll (s : State ι σ Q) (woken : List ι) : State ι σ Q :=
  { s with phase := fun u => if u ∈ woken then .woken else s.phase u }

variable (s : State ι σ Q) (t u : ι) (q : Q t) (p : Phase) (o : Option ι)

@[simp] lemma data_goto : (s.goto t q).data = s.data := rfl

@[simp] lemma owner_goto : (s.goto t q).owner = s.owner := rfl

@[simp] lemma phase_goto : (s.goto t q).phase = s.phase := rfl

@[simp] lemma point_goto : (s.goto t q).point = Function.update s.point t q := rfl

@[simp] lemma data_turn : (s.turn t p).data = s.data := rfl

@[simp] lemma owner_turn : (s.turn t p).owner = s.owner := rfl

@[simp] lemma point_turn : (s.turn t p).point = s.point := rfl

@[simp] lemma phase_turn : (s.turn t p).phase = Function.update s.phase t p := rfl

omit [DecidableEq ι] in
@[simp] lemma data_own : (s.own o).data = s.data := rfl

omit [DecidableEq ι] in
@[simp] lemma owner_own : (s.own o).owner = o := rfl

omit [DecidableEq ι] in
@[simp] lemma phase_own : (s.own o).phase = s.phase := rfl

omit [DecidableEq ι] in
@[simp] lemma point_own : (s.own o).point = s.point := rfl

@[simp] lemma data_wakeAll (woken : List ι) : (s.wakeAll woken).data = s.data := rfl

@[simp] lemma owner_wakeAll (woken : List ι) : (s.wakeAll woken).owner = s.owner := rfl

@[simp] lemma point_wakeAll (woken : List ι) : (s.wakeAll woken).point = s.point := rfl

lemma phase_wakeAll (woken : List ι) :
    (s.wakeAll woken).phase u = if u ∈ woken then .woken else s.phase u := rfl

end State

/-! ### Steps -/

section Steps

variable [DecidableEq ι] [Fintype ι]

/-- What a signal can do: it wakes up sleeping threads, and at least one if there are any. -/
def Wakes (s : State ι σ Q) (woken : List ι) : Prop :=
  (∀ u ∈ woken, s.phase u = .asleep) ∧ (woken = [] → ∀ u, s.phase u ≠ .asleep)

instance (s : State ι σ Q) (woken : List ι) : Decidable (Wakes s woken) :=
  inferInstanceAs (Decidable (_ ∧ _))

/-- The thread has ended. -/
def Ended (P : ∀ t, Q t → Act ι σ (Q t)) (s : State ι σ Q) (t : ι) : Prop :=
  s.phase t = .running ∧ (P t (s.point t)).Stops = true

instance (P : ∀ t, Q t → Act ι σ (Q t)) (s : State ι σ Q) (t : ι) : Decidable (Ended P s t) :=
  inferInstanceAs (Decidable (_ ∧ _))

def exec (P : ∀ t, Q t → Act ι σ (Q t)) (s : State ι σ Q) : Event ι → Option (State ι σ Q)
  | .act t =>
    if s.phase t = .running then
      match P t (s.point t) with
      | .lock next => if s.owner = none then some ((s.goto t next).own (some t)) else none
      | .unlock next => if s.owner = some t then some ((s.goto t next).own none) else none
      | .wait _ => if s.owner = some t then some ((s.turn t .asleep).own none) else none
      | .signal _ => none
      | .access f => some { s.goto t (f s.data).2 with data := (f s.data).1 }
      | .create u next =>
        if s.phase u = .unborn then some ((s.goto t next).turn u .running) else none
      | .join u next => if Ended P s u then some (s.goto t next) else none
      | .stop => none
    else none
  | .signal t woken =>
    if s.phase t = .running then
      match P t (s.point t) with
      | .signal next => if Wakes s woken then some ((s.goto t next).wakeAll woken) else none
      | _ => none
    else none
  | .resume t =>
    if s.phase t = .woken ∧ s.owner = none then
      match P t (s.point t) with
      | .wait next => some (((s.goto t next).turn t .running).own (some t))
      | _ => none
    else none
  | .spurious t => if s.phase t = .asleep then some (s.turn t .woken) else none

abbrev Step (P : ∀ t, Q t → Act ι σ (Q t)) : State ι σ Q → Event ι → State ι σ Q → Prop :=
  stepOf (exec P)

/-- What a step can be. -/
inductive Move (P : ∀ t, Q t → Act ι σ (Q t)) (s : State ι σ Q) : Event ι → State ι σ Q → Prop
  | lock (t : ι) (next : Q t) (hrun : s.phase t = .running) (hact : P t (s.point t) = .lock next)
      (howner : s.owner = none) : Move P s (.act t) ((s.goto t next).own (some t))
  | unlock (t : ι) (next : Q t) (hrun : s.phase t = .running)
      (hact : P t (s.point t) = .unlock next) (howner : s.owner = some t) :
      Move P s (.act t) ((s.goto t next).own none)
  | wait (t : ι) (next : Q t) (hrun : s.phase t = .running) (hact : P t (s.point t) = .wait next)
      (howner : s.owner = some t) : Move P s (.act t) ((s.turn t .asleep).own none)
  | access (t : ι) (f : σ → σ × Q t) (hrun : s.phase t = .running)
      (hact : P t (s.point t) = .access f) :
      Move P s (.act t) { s.goto t (f s.data).2 with data := (f s.data).1 }
  | create (t u : ι) (next : Q t) (hrun : s.phase t = .running)
      (hact : P t (s.point t) = .create u next) (hunborn : s.phase u = .unborn) :
      Move P s (.act t) ((s.goto t next).turn u .running)
  | join (t u : ι) (next : Q t) (hrun : s.phase t = .running)
      (hact : P t (s.point t) = .join u next) (hended : Ended P s u) :
      Move P s (.act t) (s.goto t next)
  | signal (t : ι) (next : Q t) (woken : List ι) (hrun : s.phase t = .running)
      (hact : P t (s.point t) = .signal next) (hwakes : Wakes s woken) :
      Move P s (.signal t woken) ((s.goto t next).wakeAll woken)
  | resume (t : ι) (next : Q t) (hwoken : s.phase t = .woken) (howner : s.owner = none)
      (hact : P t (s.point t) = .wait next) :
      Move P s (.resume t) (((s.goto t next).turn t .running).own (some t))
  | spurious (t : ι) (hasleep : s.phase t = .asleep) : Move P s (.spurious t) (s.turn t .woken)

variable {P : ∀ t, Q t → Act ι σ (Q t)} {s s' : State ι σ Q} {e : Event ι} {es : List (Event ι)}

lemma Move.of_step (h : Step P s e s') : Move P s e s' := by
  cases e with
  | act t =>
    by_cases hrun : s.phase t = .running
    · simp only [Step, stepOf, exec, if_pos hrun] at h
      split at h
      · next next hact =>
        split_ifs at h with howner
        cases h
        exact .lock t next hrun hact howner
      · next next hact =>
        split_ifs at h with howner
        cases h
        exact .unlock t next hrun hact howner
      · next next hact =>
        split_ifs at h with howner
        cases h
        exact .wait t next hrun hact howner
      · cases h
      · next f hact =>
        cases h
        exact .access t f hrun hact
      · next u next hact =>
        split_ifs at h with hunborn
        cases h
        exact .create t u next hrun hact hunborn
      · next u next hact =>
        split_ifs at h with hended
        cases h
        exact .join t u next hrun hact hended
      · cases h
    · simp only [Step, stepOf, exec, if_neg hrun] at h
      cases h
  | signal t woken =>
    by_cases hrun : s.phase t = .running
    · simp only [Step, stepOf, exec, if_pos hrun] at h
      split at h
      · next next hact =>
        split_ifs at h with hwakes
        cases h
        exact .signal t next woken hrun hact hwakes
      · cases h
    · simp only [Step, stepOf, exec, if_neg hrun] at h
      cases h
  | resume t =>
    by_cases hwoken : s.phase t = .woken ∧ s.owner = none
    · simp only [Step, stepOf, exec, if_pos hwoken] at h
      split at h
      · next next hact =>
        cases h
        exact .resume t next hwoken.1 hwoken.2 hact
      · cases h
    · simp only [Step, stepOf, exec, if_neg hwoken] at h
      cases h
  | spurious t =>
    simp only [Step, stepOf, exec] at h
    split_ifs at h with hasleep
    cases h
    exact .spurious t hasleep

lemma Move.step (h : Move P s e s') : Step P s e s' := by
  cases h with
  | lock t next hrun hact howner => simp [Step, stepOf, exec, hrun, hact, howner]
  | unlock t next hrun hact howner => simp [Step, stepOf, exec, hrun, hact, howner]
  | wait t next hrun hact howner => simp [Step, stepOf, exec, hrun, hact, howner]
  | access t f hrun hact => simp [Step, stepOf, exec, hrun, hact]
  | create t u next hrun hact hunborn => simp [Step, stepOf, exec, hrun, hact, hunborn]
  | join t u next hrun hact hended => simp [Step, stepOf, exec, hrun, hact, hended]
  | signal t next woken hrun hact hwakes => simp [Step, stepOf, exec, hrun, hact, hwakes]
  | resume t next hwoken howner hact => simp [Step, stepOf, exec, hwoken, howner, hact]
  | spurious t hasleep => simp [Step, stepOf, exec, hasleep]

/-! ### The mutex -/

/-- The act keeps to the rules of the mutex; `held` is whether the thread has it. -/
@[simp]
def Act.Disciplined {A : Type*} (holds : A → Bool) (held : Bool) : Act ι σ A → Prop
  | .lock next => held = false ∧ holds next = true
  | .unlock next => held = true ∧ holds next = false
  | .wait next => held = true ∧ holds next = true
  | .signal next => held = true ∧ holds next = true
  | .access f => held = true ∧ ∀ x, holds (f x).2 = true
  | .create _ next => held = false ∧ holds next = false
  | .join _ next => held = false ∧ holds next = false
  | .stop => held = false

/-- `holds` is where the threads have the mutex. -/
def Disciplined (P : ∀ t, Q t → Act ι σ (Q t)) (holds : ∀ t, Q t → Bool) : Prop :=
  ∀ t q, (P t q).Disciplined (holds t) (holds t q)

/-- Mutual exclusion: the owner of the mutex is the one thread that is where it has to have
it. -/
structure Excl (P : ∀ t, Q t → Act ι σ (Q t)) (holds : ∀ t, Q t → Bool) (s : State ι σ Q) :
    Prop where
  owner : ∀ t, s.owner = some t ↔ s.phase t = .running ∧ holds t (s.point t) = true
  waiting : ∀ t, s.phase t = .asleep ∨ s.phase t = .woken → ∃ next, P t (s.point t) = .wait next
  unborn : ∀ t, s.phase t = .unborn → holds t (s.point t) = false

omit [DecidableEq ι] [Fintype ι] in
/-- Two threads that have the mutex are one. -/
lemma Excl.eq {holds : ∀ t, Q t → Bool} (h : Excl P holds s) {t u : ι} (ht : s.phase t = .running)
    (hu : s.phase u = .running) (htq : holds t (s.point t) = true)
    (huq : holds u (s.point u) = true) : t = u := by
  have hown := (h.owner t).mpr ⟨ht, htq⟩
  rw [(h.owner u).mpr ⟨hu, huq⟩] at hown
  exact (Option.some.inj hown).symm

omit [DecidableEq ι] [Fintype ι] in
/-- One thread changes. -/
lemma Excl.change {holds : ∀ t, Q t → Bool} (h : Excl P holds s) (t : ι)
    (hother : ∀ u, u ≠ t → s'.phase u = s.phase u ∧ s'.point u = s.point u ∧
      (s'.owner = some u ↔ s.owner = some u))
    (howner : s'.owner = some t ↔ s'.phase t = .running ∧ holds t (s'.point t) = true)
    (hwaiting : s'.phase t = .asleep ∨ s'.phase t = .woken → ∃ next, P t (s'.point t) = .wait next)
    (hunborn : s'.phase t = .unborn → holds t (s'.point t) = false) : Excl P holds s' where
  owner u := by
    by_cases hu : u = t
    · rw [hu]
      exact howner
    · obtain ⟨hphase, hpoint, hown⟩ := hother u hu
      rw [hown, hphase, hpoint]
      exact h.owner u
  waiting u := by
    by_cases hu : u = t
    · rw [hu]
      exact hwaiting
    · obtain ⟨hphase, hpoint, -⟩ := hother u hu
      rw [hphase, hpoint]
      exact h.waiting u
  unborn u := by
    by_cases hu : u = t
    · rw [hu]
      exact hunborn
    · obtain ⟨hphase, hpoint, -⟩ := hother u hu
      rw [hphase, hpoint]
      exact h.unborn u

omit [Fintype ι] in
/-- A running thread goes on, and has the mutex as before. -/
lemma Excl.goto {holds : ∀ t, Q t → Bool} (h : Excl P holds s) {t : ι} {q : Q t}
    (hrun : s.phase t = .running) (hq : holds t q = holds t (s.point t)) :
    Excl P holds (s.goto t q) := by
  refine h.change t (fun u hu => ⟨rfl, by simp [hu], Iff.rfl⟩) ?_ ?_ ?_
  · simpa [hq] using h.owner t
  · simp [hrun]
  · simp [hrun]

lemma Excl.step {holds : ∀ t, Q t → Bool} (hd : Disciplined P holds) (h : Excl P holds s)
    (hstep : Step P s e s') : Excl P holds s' := by
  cases Move.of_step hstep with
  | lock t next hrun hact howner =>
    have hq := hd t (s.point t)
    rw [hact] at hq
    refine h.change t (fun u hu => ⟨rfl, by simp [hu], ?_⟩) ?_ ?_ ?_
    · simp [howner, Ne.symm hu]
    · simp [hrun, hq.2]
    · simp [hrun]
    · simp [hrun]
  | unlock t next hrun hact howner =>
    have hq := hd t (s.point t)
    rw [hact] at hq
    refine h.change t (fun u hu => ⟨rfl, by simp [hu], ?_⟩) ?_ ?_ ?_
    · simp [howner, Ne.symm hu]
    · simp [hq.2]
    · simp [hrun]
    · simp [hrun]
  | wait t next hrun hact howner =>
    refine h.change t (fun u hu => ⟨by simp [hu], rfl, ?_⟩) ?_ ?_ ?_
    · simp [howner, Ne.symm hu]
    · simp
    · exact fun _ => ⟨next, hact⟩
    · simp
  | access t f hrun hact =>
    have hq := hd t (s.point t)
    rw [hact] at hq
    have hgoto := h.goto hrun ((hq.2 s.data).trans hq.1.symm)
    exact ⟨hgoto.owner, hgoto.waiting, hgoto.unborn⟩
  | create t u next hrun hact hunborn =>
    have hq := hd t (s.point t)
    rw [hact] at hq
    have hne : u ≠ t := fun heq => by simp [heq, hrun] at hunborn
    have hfree : ¬ s.owner = some u := fun hown => by simp [((h.owner u).mp hown).1] at hunborn
    refine (h.goto hrun (hq.2.trans hq.1.symm)).change u (fun v hv => ⟨?_, rfl, Iff.rfl⟩) ?_ ?_ ?_
    · simp [hv]
    · simp [hfree, hne, h.unborn u hunborn]
    · simp
    · simp
  | join t u next hrun hact hended =>
    have hq := hd t (s.point t)
    rw [hact] at hq
    exact h.goto hrun (hq.2.trans hq.1.symm)
  | signal t next woken hrun hact hwakes =>
    have hq := hd t (s.point t)
    rw [hact] at hq
    have hgoto := h.goto hrun (hq.2.trans hq.1.symm)
    -- those that are woken up were asleep, and stay without the mutex
    have hphase : ∀ u, ((s.goto t next).wakeAll woken).phase u = s.phase u ∨
        s.phase u = .asleep ∧ ((s.goto t next).wakeAll woken).phase u = .woken := fun u => by
      by_cases hu : u ∈ woken
      · exact .inr ⟨hwakes.1 u hu, by rw [State.phase_wakeAll, if_pos hu]⟩
      · exact .inl (by rw [State.phase_wakeAll, if_neg hu, State.phase_goto])
    refine ⟨fun u => ?_, fun u hu => ?_, fun u hu => ?_⟩
    · rcases hphase u with hsame | ⟨hasleep, hwoken⟩
      · rw [hsame]
        exact hgoto.owner u
      · rw [hwoken]
        have hown := hgoto.owner u
        rw [State.phase_goto, hasleep] at hown
        simpa using hown
    · rcases hphase u with hsame | ⟨hasleep, -⟩
      · rw [hsame] at hu
        exact hgoto.waiting u hu
      · exact hgoto.waiting u (.inl hasleep)
    · rcases hphase u with hsame | ⟨-, hwoken⟩
      · rw [hsame] at hu
        exact hgoto.unborn u hu
      · rw [hwoken] at hu
        cases hu
  | resume t next hwoken howner hact =>
    have hq := hd t (s.point t)
    rw [hact] at hq
    refine h.change t (fun u hu => ⟨by simp [hu], by simp [hu], ?_⟩) ?_ ?_ ?_
    · simp [howner, Ne.symm hu]
    · simp [hq.2]
    · simp
    · simp
  | spurious t hasleep =>
    have hfree : ¬ s.owner = some t := fun hown => by simp [((h.owner t).mp hown).1] at hasleep
    refine h.change t (fun u hu => ⟨by simp [hu], rfl, Iff.rfl⟩) ?_ ?_ ?_
    · simp [hfree]
    · exact fun _ => h.waiting t (.inl hasleep)
    · simp

/-! ### Where nothing goes on -/

/-- No thread goes on, unless it wakes up without a signal. -/
def Stuck (P : ∀ t, Q t → Act ι σ (Q t)) (s : State ι σ Q) : Prop :=
  ∀ e s', Step P s e s' → e.Spurious = true

/-- Where nothing goes on, the mutex is free. -/
lemma Stuck.owner {holds : ∀ t, Q t → Bool} (hd : Disciplined P holds) (hexcl : Excl P holds s)
    (h : Stuck P s) : s.owner = none := by
  rw [Option.eq_none_iff_forall_ne_some]
  intro t howner
  obtain ⟨hrun, hholds⟩ := (hexcl.owner t).mp howner
  have hq := hd t (s.point t)
  rw [hholds] at hq
  cases hact : P t (s.point t) with
  | lock next =>
    rw [hact] at hq
    exact Bool.noConfusion hq.1
  | unlock next => exact Bool.noConfusion (h _ _ (Move.unlock t next hrun hact howner).step)
  | wait next => exact Bool.noConfusion (h _ _ (Move.wait t next hrun hact howner).step)
  | signal next =>
    have hmem : ∀ u, u ∈ (Finset.univ.filter (s.phase · = .asleep)).toList ↔
        s.phase u = .asleep := fun u => by
      rw [Finset.mem_toList, Finset.mem_filter]
      exact and_iff_right (Finset.mem_univ u)
    have hwakes : Wakes s (Finset.univ.filter (s.phase · = .asleep)).toList := by
      refine ⟨fun u hu => (hmem u).mp hu, fun hnil u hasleep => ?_⟩
      have hu := (hmem u).mpr hasleep
      rw [hnil] at hu
      cases hu
    exact Bool.noConfusion (h _ _ (Move.signal t next _ hrun hact hwakes).step)
  | access f => exact Bool.noConfusion (h _ _ (Move.access t f hrun hact).step)
  | create u next =>
    rw [hact] at hq
    exact Bool.noConfusion hq.1
  | join u next =>
    rw [hact] at hq
    exact Bool.noConfusion hq.1
  | stop =>
    rw [hact] at hq
    exact Bool.noConfusion hq

/-- Where nothing goes on, nobody waits for the mutex. -/
lemma Stuck.not_woken {holds : ∀ t, Q t → Bool} (hd : Disciplined P holds) (hexcl : Excl P holds s)
    (h : Stuck P s) (t : ι) : s.phase t ≠ .woken := by
  intro hwoken
  obtain ⟨next, hact⟩ := hexcl.waiting t (.inr hwoken)
  exact Bool.noConfusion (h _ _ (Move.resume t next hwoken (h.owner hd hexcl) hact).step)

/-- Where nothing goes on, a thread that runs has ended, or joins one that has not ended, or
creates one again. -/
lemma Stuck.running {holds : ∀ t, Q t → Bool} (hd : Disciplined P holds) (hexcl : Excl P holds s)
    (h : Stuck P s) {t : ι} (hrun : s.phase t = .running) :
    P t (s.point t) = .stop ∨ (∃ u next, P t (s.point t) = .join u next ∧ ¬ Ended P s u) ∨
      ∃ u next, P t (s.point t) = .create u next ∧ s.phase u ≠ .unborn := by
  have hfree := h.owner hd hexcl
  have hholds : holds t (s.point t) ≠ true := fun hholds => by
    simp [(hexcl.owner t).mpr ⟨hrun, hholds⟩] at hfree
  have hq := hd t (s.point t)
  cases hact : P t (s.point t) with
  | lock next => exact Bool.noConfusion (h _ _ (Move.lock t next hrun hact hfree).step)
  | unlock next =>
    rw [hact] at hq
    exact absurd hq.1 hholds
  | wait next =>
    rw [hact] at hq
    exact absurd hq.1 hholds
  | signal next =>
    rw [hact] at hq
    exact absurd hq.1 hholds
  | access f =>
    rw [hact] at hq
    exact absurd hq.1 hholds
  | create u next =>
    refine .inr (.inr ⟨u, next, rfl, fun hunborn => ?_⟩)
    exact Bool.noConfusion (h _ _ (Move.create t u next hrun hact hunborn).step)
  | join u next =>
    refine .inr (.inl ⟨u, next, rfl, fun hended => ?_⟩)
    exact Bool.noConfusion (h _ _ (Move.join t u next hrun hact hended).step)
  | stop => exact .inl rfl

/-! ### How long a run is -/

/-- The act costs at least one of `n`.  A thread that sleeps has paid one for it, and to be
woken up gives it `k`; a signal pays for all threads. -/
@[simp]
def Act.Within {A : Type*} (b : A → ℕ) (k m n : ℕ) : Act ι σ A → Prop
  | .lock next => b next < n
  | .unlock next => b next < n
  | .wait next => 0 < n ∧ b next + 2 ≤ n + k
  | .signal next => b next + m * k < n
  | .access f => ∀ x, b (f x).2 < n
  | .create _ next => b next < n
  | .join _ next => b next < n
  | .stop => True

def Budget (P : ∀ t, Q t → Act ι σ (Q t)) (b : ∀ t, Q t → ℕ) (k : ℕ) : Prop :=
  ∀ t q, (P t q).Within (b t) k (Fintype.card ι) (b t q)

/-- What a thread can still pay. -/
def credit (b : ∀ t, Q t → ℕ) (k : ℕ) (s : State ι σ Q) (t : ι) : ℕ :=
  match s.phase t with
  | .asleep => b t (s.point t) - 1
  | .woken => b t (s.point t) - 1 + k
  | _ => b t (s.point t)

def credits (b : ∀ t, Q t → ℕ) (k : ℕ) (s : State ι σ Q) : ℕ := ∑ t, credit b k s t

section Credits

variable {b : ∀ t, Q t → ℕ} {k : ℕ}

/-- One thread pays, and the others have no more than they had. -/
lemma credits_change (t : ι) (m n : ℕ) (hother : ∀ u, u ≠ t → credit b k s' u ≤ credit b k s u)
    (hself : credit b k s' t + m ≤ credit b k s t + n) :
    credits b k s' + m ≤ credits b k s + n := by
  have hsum : ∑ u ∈ Finset.univ.erase t, credit b k s' u ≤
      ∑ u ∈ Finset.univ.erase t, credit b k s u :=
    Finset.sum_le_sum fun u hu => hother u (Finset.ne_of_mem_erase hu)
  have h := Finset.add_sum_erase Finset.univ (credit b k s) (Finset.mem_univ t)
  have h' := Finset.add_sum_erase Finset.univ (credit b k s') (Finset.mem_univ t)
  simp only [credits]
  omega

/-- A running thread goes on. -/
lemma credits_goto {t : ι} {q : Q t} {m : ℕ} (hrun : s.phase t = .running)
    (hq : b t q + m ≤ b t (s.point t)) : credits b k (s.goto t q) + m ≤ credits b k s := by
  refine credits_change t m 0 (fun u hu => ?_) ?_
  · simp [credit, hu]
  · simpa [credit, hrun] using hq

/-- Each thread that is woken up gets `k`. -/
lemma credits_wakeAll {woken : List ι} (hwakes : ∀ u ∈ woken, s.phase u = .asleep) :
    credits b k (s.wakeAll woken) ≤ credits b k s + Fintype.card ι * k := by
  have hle : ∀ u ∈ Finset.univ, credit b k (s.wakeAll woken) u ≤ credit b k s u + k := by
    intro u _
    by_cases hu : u ∈ woken
    · simp [credit, State.phase_wakeAll, hu, hwakes u hu]
    · simp [credit, State.phase_wakeAll, hu]
  have hsum := Finset.sum_le_sum hle
  rw [Finset.sum_add_distrib, Finset.sum_const, Finset.card_univ, smul_eq_mul] at hsum
  exact hsum

/-- Every step is paid for, and a thread that wakes up without a signal gets something. -/
lemma credits_step (hb : Budget P b k) (hstep : Step P s e s') :
    credits b k s' + 1 ≤ credits b k s + if e.Spurious = true then k + 1 else 0 := by
  cases Move.of_step hstep with
  | lock t next hrun hact howner =>
    have hq := hb t (s.point t)
    rw [hact] at hq
    change credits b k (s.goto t next) + 1 ≤ credits b k s
    exact credits_goto hrun hq
  | unlock t next hrun hact howner =>
    have hq := hb t (s.point t)
    rw [hact] at hq
    change credits b k (s.goto t next) + 1 ≤ credits b k s
    exact credits_goto hrun hq
  | wait t next hrun hact howner =>
    have hq := hb t (s.point t)
    rw [hact] at hq
    refine credits_change t 1 0 (fun u hu => ?_) ?_
    · simp [credit, hu]
    · have hpos := hq.1
      simp only [credit, State.phase_own, State.phase_turn, State.point_own, State.point_turn,
        Function.update_self, hrun]
      omega
  | access t f hrun hact =>
    have hq := hb t (s.point t)
    rw [hact] at hq
    change credits b k (s.goto t (f s.data).2) + 1 ≤ credits b k s
    exact credits_goto hrun (hq s.data)
  | create t u next hrun hact hunborn =>
    have hq := hb t (s.point t)
    rw [hact] at hq
    have hne : t ≠ u := fun heq => by simp [← heq, hrun] at hunborn
    refine credits_change t 1 0 (fun v hv => ?_) ?_
    · by_cases hvu : v = u
      · simp [credit, hvu, hne.symm, hunborn]
      · simp [credit, hvu, hv]
    · simp only [credit, State.phase_turn, State.phase_goto, State.point_turn, State.point_goto,
        Function.update_self, Function.update_of_ne hne, hrun]
      exact hq
  | join t u next hrun hact hended =>
    have hq := hb t (s.point t)
    rw [hact] at hq
    change credits b k (s.goto t next) + 1 ≤ credits b k s
    exact credits_goto hrun hq
  | signal t next woken hrun hact hwakes =>
    have hq := hb t (s.point t)
    rw [hact] at hq
    have hgoto : credits b k (s.goto t next) + (Fintype.card ι * k + 1) ≤ credits b k s := by
      refine credits_goto hrun ?_
      simp only [Act.Within] at hq
      omega
    have hwake : credits b k ((s.goto t next).wakeAll woken) ≤ _ := credits_wakeAll hwakes.1
    simp only [Event.Spurious, Bool.false_eq_true, if_false, Nat.add_zero]
    omega
  | resume t next hwoken howner hact =>
    have hq := hb t (s.point t)
    rw [hact] at hq
    refine credits_change t 1 0 (fun u hu => ?_) ?_
    · simp [credit, hu]
    · simp only [Act.Within] at hq
      simp only [credit, State.phase_own, State.phase_turn, State.point_own, State.point_turn,
        State.point_goto, Function.update_self, hwoken]
      omega
  | spurious t hasleep =>
    refine credits_change t 1 (k + 1) (fun u hu => ?_) ?_
    · simp [credit, hu]
    · simp only [credit, State.phase_turn, State.point_turn, Function.update_self, hasleep]
      omega

/-- A run is only long if threads wake up without a signal. -/
theorem run_length_le (hb : Budget P b k) (h : Run (Step P) s es s') :
    es.length + credits b k s' ≤ credits b k s + (k + 1) * es.countP Event.Spurious := by
  induction h with
  | nil => simp
  | cons hstep _ ih =>
    have hpay := credits_step hb hstep
    rw [List.length_cons, List.countP_cons]
    split_ifs at hpay ⊢ with hspurious
    · rw [Nat.mul_add]
      omega
    · simp only [Nat.add_zero] at hpay ⊢
      omega

end Credits

end Steps

end Monitor

end CsLab
