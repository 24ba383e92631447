/-
`03-thread/condition-variable/producer_consumer.c`: a producer and a consumer with a mutex and
a condition variable.

A step is one call or one access to the two global variables, so that the threads may take
turns in between.  `pthread_cond_wait` may also return without a signal, and a signal wakes up
at least one of the threads that wait.

Not in the model: what is printed, `sleep`, and a `pthread_create` that fails.
-/
import CsLab.Lib.Monitor

namespace CsLab

namespace Thread

open Monitor

inductive Name where
  | main
  | producer
  | consumer
deriving DecidableEq

instance : Fintype Name := ⟨{.main, .producer, .consumer}, fun t => by cases t <;> decide⟩

/-- The global variables. -/
structure Globals where
  data : ℤ
  hasData : ℤ
deriving DecidableEq

inductive MainPoint where
  | createConsumer
  | createProducer
  | joinProducer
  | joinConsumer
  | returned
deriving DecidableEq

inductive ProducerPoint where
  | lock
  | setData
  | setHasData
  | signal
  | unlock
  | returned
deriving DecidableEq

/-- Where the consumer stands, with the data that it has received. -/
inductive ConsumerPoint where
  | lock
  | test
  | wait
  | read
  | clear (received : ℤ)
  | unlock (received : ℤ)
  | returned (received : ℤ)
deriving DecidableEq

abbrev Point : Name → Type
  | .main => MainPoint
  | .producer => ProducerPoint
  | .consumer => ConsumerPoint

def main : MainPoint → Act Name Globals MainPoint
  | .createConsumer => .create .consumer .createProducer
  | .createProducer => .create .producer .joinProducer
  | .joinProducer => .join .producer .joinConsumer
  | .joinConsumer => .join .consumer .returned
  | .returned => .stop

def producer : ProducerPoint → Act Name Globals ProducerPoint
  | .lock => .lock .setData
  | .setData => .access fun g => ({ g with data := 100 }, .setHasData)
  | .setHasData => .access fun g => ({ g with hasData := 1 }, .signal)
  | .signal => .signal .unlock
  | .unlock => .unlock .returned
  | .returned => .stop

def consumer : ConsumerPoint → Act Name Globals ConsumerPoint
  | .lock => .lock .test
  -- `while (has_data == 0)`
  | .test => .access fun g => (g, if g.hasData = 0 then .wait else .read)
  | .wait => .wait .test
  | .read => .access fun g => (g, .clear g.data)
  | .clear received => .access fun g => ({ g with hasData := 0 }, .unlock received)
  | .unlock received => .unlock (.returned received)
  | .returned _ => .stop

def program : ∀ t, Point t → Act Name Globals (Point t)
  | .main => main
  | .producer => producer
  | .consumer => consumer

/-- The program at the start of `main`. -/
def start : State Name Globals Point where
  data := ⟨0, 0⟩
  owner := none
  point
    | .main => .createConsumer
    | .producer => .lock
    | .consumer => .lock
  phase
    | .main => .running
    | _ => .unborn

abbrev Step : State Name Globals Point → Event Name → State Name Globals Point → Prop :=
  Monitor.Step program

/-- Where a thread has the mutex. -/
def holds : ∀ t, Point t → Bool
  | .main, _ => false
  | .producer, .lock => false
  | .producer, .returned => false
  | .producer, _ => true
  | .consumer, .lock => false
  | .consumer, .returned _ => false
  | .consumer, _ => true

lemma disciplined : Disciplined program holds := by
  intro t q
  cases t
  case consumer =>
    cases q
    case test =>
      refine ⟨rfl, fun g => ?_⟩
      by_cases h : g.hasData = 0 <;> simp [h, holds]
    all_goals simp [program, consumer, holds]
  all_goals cases q <;> simp [program, main, producer, holds]

/-- How much a thread still does, if it is not woken up again. -/
def budget : ∀ t, Point t → ℕ
  | .main, .createConsumer => 4
  | .main, .createProducer => 3
  | .main, .joinProducer => 2
  | .main, .joinConsumer => 1
  | .main, .returned => 0
  | .producer, .lock => 14
  | .producer, .setData => 13
  | .producer, .setHasData => 12
  | .producer, .signal => 11
  | .producer, .unlock => 1
  | .producer, .returned => 0
  | .consumer, .lock => 6
  | .consumer, .test => 5
  | .consumer, .wait => 4
  | .consumer, .read => 3
  | .consumer, .clear _ => 2
  | .consumer, .unlock _ => 1
  | .consumer, .returned _ => 0

lemma budget_ok : Budget program budget 3 := by
  have hcard : Fintype.card Name = 3 := rfl
  intro t q
  cases t
  case consumer =>
    cases q
    case test =>
      intro g
      by_cases h : g.hasData = 0 <;> simp [h, budget]
    all_goals simp [program, consumer, budget]
  all_goals cases q <;> simp [program, main, producer, budget, hcard]

/-! ### The invariant -/

/-- `has_data` was set. -/
def ProducerPoint.produced : ProducerPoint → Bool
  | .signal => true
  | .unlock => true
  | .returned => true
  | _ => false

/-- `has_data` was reset. -/
def ConsumerPoint.consumed : ConsumerPoint → Bool
  | .unlock _ => true
  | .returned _ => true
  | _ => false

/-- The consumer has not seen that there is data. -/
def ConsumerPoint.blind : ConsumerPoint → Bool
  | .lock => true
  | .test => true
  | .wait => true
  | _ => false

/-- What the consumer has received, if anything. -/
def ConsumerPoint.received : ConsumerPoint → Option ℤ
  | .clear received => some received
  | .unlock received => some received
  | .returned received => some received
  | _ => none

/-- Which threads there are, and which have been joined. -/
structure Births (m : MainPoint) (p : ProducerPoint) (c : ConsumerPoint) (phase : Name → Phase) :
    Prop where
  main : phase .main = .running
  producer : phase .producer = .running ∨ phase .producer = .unborn
  producer_unborn : phase .producer = .unborn ↔ m = .createConsumer ∨ m = .createProducer
  consumer_unborn : phase .consumer = .unborn ↔ m = .createConsumer
  not_started : m = .createConsumer → c = .lock
  joined : m = .joinConsumer ∨ m = .returned → p = .returned
  returned : m = .returned → ∃ received, c = .returned received

/-- What the global variables hold. -/
structure Stored (p : ProducerPoint) (c : ConsumerPoint) (g : Globals) : Prop where
  /-- `has_data` is set from when it is produced to when it is consumed. -/
  hasData : g.hasData = if p.produced && !c.consumed then 1 else 0
  data : p.produced = true → g.data = 100
  set : p = .setHasData → g.data = 100
  seen : c.blind = false → p.produced = true
  received : ∀ received, c.received = some received → received = 100

/-- A consumer that waits, or is about to, will get a signal. -/
def Awaits (p : ProducerPoint) (c : ConsumerPoint) (phase : Phase) : Prop :=
  c = .wait → phase ≠ .woken → p.produced = false ∨ phase = .asleep ∧ p = .signal

/-- What holds of the program at any time. -/
structure Inv (s : State Name Globals Point) : Prop where
  excl : Excl program holds s
  births : Births (s.point .main) (s.point .producer) (s.point .consumer) s.phase
  stored : Stored (s.point .producer) (s.point .consumer) s.data
  awaits : Awaits (s.point .producer) (s.point .consumer) (s.phase .consumer)

lemma ConsumerPoint.consumed_of_blind {q : ConsumerPoint} (h : q.blind = true) :
    q.consumed = false := by
  cases q <;> first | rfl | cases h

section Values

variable {m : MainPoint} {p : ProducerPoint} {c : ConsumerPoint} {phase : Name → Phase}
  {g : Globals} {received : ℤ}

/-! The accesses to the global variables. -/

lemma Stored.setData (h : Stored .setData c g) : Stored .setHasData c { g with data := 100 } where
  hasData := h.hasData
  data hp := Bool.noConfusion hp
  set _ := rfl
  seen := h.seen
  received := h.received

lemma Stored.setHasData (h : Stored .setHasData c g) :
    Stored .signal c { g with hasData := 1 } where
  hasData := by
    have hblind : c.blind = true := by
      by_contra hsaw
      exact Bool.noConfusion (h.seen (Bool.eq_false_iff.mpr hsaw))
    simp [ConsumerPoint.consumed_of_blind hblind, ProducerPoint.produced]
  data _ := h.set rfl
  set hp := by cases hp
  seen _ := rfl
  received := h.received

lemma Stored.not_produced (h : Stored p .test g) (hzero : g.hasData = 0) : p.produced = false := by
  by_contra hp
  have hhas := h.hasData
  simp [Bool.not_eq_false _ ▸ hp, hzero, ConsumerPoint.consumed] at hhas

lemma Stored.test (h : Stored p .test g) : Stored p (if g.hasData = 0 then .wait else .read) g := by
  have hhas := h.hasData
  split
  · exact ⟨hhas, h.data, h.set, fun hblind => Bool.noConfusion hblind, fun _ hr => by cases hr⟩
  · next hne =>
    refine ⟨hhas, h.data, h.set, fun _ => ?_, fun _ hr => by cases hr⟩
    by_contra hp
    simp [hp] at hhas
    exact hne hhas

lemma Stored.read (h : Stored p .read g) : Stored p (.clear g.data) g where
  hasData := h.hasData
  data := h.data
  set := h.set
  seen _ := h.seen rfl
  received received hr := by
    rw [← Option.some.inj hr]
    exact h.data (h.seen rfl)

lemma Stored.clear (h : Stored p (.clear received) g) :
    Stored p (.unlock received) { g with hasData := 0 } where
  hasData := by simp [ConsumerPoint.consumed]
  data := h.data
  set := h.set
  seen _ := h.seen rfl
  received := h.received

/-! The other steps. -/

lemma Stored.producer_moves (h : Stored p c g) (p' : ProducerPoint)
    (hproduced : p'.produced = p.produced) (hset : p' ≠ .setHasData) : Stored p' c g where
  hasData := by
    rw [hproduced]
    exact h.hasData
  data := by
    rw [hproduced]
    exact h.data
  set heq := absurd heq hset
  seen := by
    rw [hproduced]
    exact h.seen
  received := h.received

lemma Stored.consumer_moves (h : Stored p c g) (c' : ConsumerPoint)
    (hconsumed : c'.consumed = c.consumed) (hblind : c'.blind = c.blind)
    (hreceived : c'.received = c.received) : Stored p c' g where
  hasData := by
    rw [hconsumed]
    exact h.hasData
  data := h.data
  set := h.set
  seen := by
    rw [hblind]
    exact h.seen
  received := by
    rw [hreceived]
    exact h.received

lemma Births.producer_moves (h : Births m p c phase) (p' : ProducerPoint) (hp : p ≠ .returned) :
    Births m p' c phase where
  main := h.main
  producer := h.producer
  producer_unborn := h.producer_unborn
  consumer_unborn := h.consumer_unborn
  not_started := h.not_started
  joined hm := absurd (h.joined hm) hp
  returned := h.returned

lemma Births.consumer_moves {phase' : Name → Phase} (h : Births m p c phase) (c' : ConsumerPoint)
    (hc : ∀ received, .returned received ≠ c) (hborn : phase .consumer ≠ .unborn)
    (hborn' : phase' .consumer ≠ .unborn) (hmain : phase' .main = phase .main)
    (hproducer : phase' .producer = phase .producer) : Births m p c' phase' where
  main := hmain.trans h.main
  producer := by
    rw [hproducer]
    exact h.producer
  producer_unborn := by
    rw [hproducer]
    exact h.producer_unborn
  consumer_unborn := iff_of_false hborn' fun hm => hborn (h.consumer_unborn.mpr hm)
  not_started hm := absurd (h.consumer_unborn.mpr hm) hborn
  joined := h.joined
  returned hm := (h.returned hm).elim fun received heq => absurd heq.symm (hc received)

/-- The consumer goes on and is not put to sleep. -/
lemma Births.consumer_acts (h : Births m p c phase) (c' : ConsumerPoint)
    (hc : ∀ received, .returned received ≠ c) (hrun : phase .consumer = .running) :
    Births m p c' phase := by
  have hborn : phase .consumer ≠ .unborn := by
    rw [hrun]
    decide
  exact h.consumer_moves c' hc hborn hborn rfl rfl

lemma Awaits.of_ne {phase : Phase} (c : ConsumerPoint) (hc : c ≠ .wait) : Awaits p c phase :=
  fun heq => absurd heq hc

end Values

lemma ended_producer {s : State Name Globals Point} (h : Ended program s .producer) :
    s.point .producer = .returned := by
  have hstop := Act.stops_iff.mp h.2
  cases hq : s.point .producer <;> rw [hq] at hstop <;> first | rfl | cases hstop

lemma ended_consumer {s : State Name Globals Point} (h : Ended program s .consumer) :
    ∃ received, s.point .consumer = .returned received := by
  have hstop := Act.stops_iff.mp h.2
  cases hq : s.point .consumer <;> rw [hq] at hstop <;> first | exact ⟨_, rfl⟩ | cases hstop

lemma inv_start : Inv start where
  excl := ⟨fun t => by cases t <;> decide, fun t => by cases t <;> simp [start],
    fun t => by cases t <;> decide⟩
  births := ⟨rfl, .inr rfl, by decide, by decide, fun _ => rfl, by decide, fun hm => by cases hm⟩
  stored := ⟨rfl, by decide, by decide, by decide, fun _ hr => by cases hr⟩
  awaits := .of_ne _ (by decide)

section Step

variable {s s' : State Name Globals Point} {e : Event Name}

variable {t u : Name}

/-- A thread takes the mutex. -/
lemma Inv.lock (h : Inv s) {next : Point t} (hrun : s.phase t = .running)
    (hact : program t (s.point t) = .lock next)
    (hexcl' : Excl program holds ((s.goto t next).own (some t))) :
    Inv ((s.goto t next).own (some t)) := by
  obtain ⟨hexcl, hbirths, hstored, hawaits⟩ := h
  cases t
  · cases hq : s.point .main <;> rw [hq] at hact <;> cases hact
  · cases hq : s.point .producer <;> rw [hq] at hact <;> cases hact
    rw [hq] at hbirths hstored hawaits
    exact ⟨hexcl', hbirths.producer_moves _ (by decide),
      hstored.producer_moves .setData rfl (by decide), fun _ _ => .inl rfl⟩
  · cases hq : s.point .consumer <;> rw [hq] at hact <;> cases hact
    rw [hq] at hbirths hstored
    exact ⟨hexcl', hbirths.consumer_acts .test (fun _ h => by cases h) hrun,
      hstored.consumer_moves .test rfl rfl rfl, .of_ne .test (by decide)⟩

/-- A thread gives the mutex back. -/
lemma Inv.unlock (h : Inv s) {next : Point t} (hrun : s.phase t = .running)
    (hact : program t (s.point t) = .unlock next)
    (hexcl' : Excl program holds ((s.goto t next).own none)) : Inv ((s.goto t next).own none) := by
  obtain ⟨hexcl, hbirths, hstored, hawaits⟩ := h
  cases t
  · cases hq : s.point .main <;> rw [hq] at hact <;> cases hact
  · cases hq : s.point .producer <;> rw [hq] at hact <;> cases hact
    rw [hq] at hbirths hstored hawaits
    refine ⟨hexcl', hbirths.producer_moves _ (by decide),
      hstored.producer_moves .returned rfl (by decide), fun hc hphase => ?_⟩
    rcases hawaits hc hphase with hp | ⟨-, hp⟩ <;> cases hp
  · cases hq : s.point .consumer <;> rw [hq] at hact <;> cases hact
    rw [hq] at hbirths hstored
    exact ⟨hexcl', hbirths.consumer_acts (.returned _) (fun _ h => by cases h) hrun,
      hstored.consumer_moves (.returned _) rfl rfl rfl,
      .of_ne (.returned _) (fun h => by cases h)⟩

/-- Only the consumer waits. -/
lemma Inv.wait (h : Inv s) {next : Point t} (hrun : s.phase t = .running)
    (hact : program t (s.point t) = .wait next)
    (hexcl' : Excl program holds ((s.turn t .asleep).own none)) :
    Inv ((s.turn t .asleep).own none) := by
  obtain ⟨hexcl, hbirths, hstored, hawaits⟩ := h
  cases t
  · cases hq : s.point .main <;> rw [hq] at hact <;> cases hact
  · cases hq : s.point .producer <;> rw [hq] at hact <;> cases hact
  · cases hq : s.point .consumer <;> rw [hq] at hact <;> cases hact
    have hborn : s.phase .consumer ≠ .unborn := by
      rw [hrun]
      decide
    refine ⟨hexcl', ?_, hstored, fun _ _ => ?_⟩
    · exact hbirths.consumer_moves _ (fun _ h => by rw [hq] at h; cases h) hborn (by simp) rfl rfl
    · rcases hawaits hq (by rw [hrun]; decide) with hp | ⟨hp, -⟩
      · exact .inl hp
      · rw [hrun] at hp
        cases hp

/-- An access to the global variables. -/
lemma Inv.access (h : Inv s) {f : Globals → Globals × Point t}
    (hrun : s.phase t = .running) (hact : program t (s.point t) = .access f)
    (hexcl' : Excl program holds { s.goto t (f s.data).2 with data := (f s.data).1 }) :
    Inv { s.goto t (f s.data).2 with data := (f s.data).1 } := by
  obtain ⟨hexcl, hbirths, hstored, hawaits⟩ := h
  cases t
  · cases hq : s.point .main <;> rw [hq] at hact <;> cases hact
  · cases hq : s.point .producer <;> rw [hq] at hact <;> cases hact
    · rw [hq] at hbirths hstored
      exact ⟨hexcl', hbirths.producer_moves _ (by decide), hstored.setData, fun _ _ => .inl rfl⟩
    · rw [hq] at hbirths hstored
      refine ⟨hexcl', hbirths.producer_moves _ (by decide), hstored.setHasData,
        fun hc hphase => .inr ⟨?_, rfl⟩⟩
      change s.phase .consumer = .asleep
      cases hphase' : s.phase .consumer with
      | unborn =>
        have hlock := hbirths.not_started (hbirths.consumer_unborn.mp hphase')
        cases hlock.symm.trans hc
      | running =>
        -- the consumer is not inside at the same time
        have hwait : s.point .consumer = .wait := hc
        have hsame := hexcl.eq hrun hphase' (by rw [hq]; rfl) (by rw [hwait]; rfl)
        cases hsame
      | asleep => rfl
      | woken => exact absurd hphase' hphase
  · cases hq : s.point .consumer <;> rw [hq] at hact <;> cases hact
    · rw [hq] at hbirths hstored
      have hmoved := hbirths.consumer_acts (if s.data.hasData = 0 then .wait else .read)
        (fun _ h => by cases h) hrun
      refine ⟨hexcl', hmoved, hstored.test, fun hc _ => .inl ?_⟩
      have hzero : s.data.hasData = 0 := by
        by_contra hne
        have hread : (if s.data.hasData = 0 then ConsumerPoint.wait else .read) = .wait := hc
        rw [if_neg hne] at hread
        cases hread
      exact hstored.not_produced hzero
    · rw [hq] at hbirths hstored
      exact ⟨hexcl', hbirths.consumer_acts (.clear _) (fun _ h => by cases h) hrun,
        hstored.read, .of_ne (.clear _) (fun h => by cases h)⟩
    · rw [hq] at hbirths hstored
      exact ⟨hexcl', hbirths.consumer_acts (.unlock _) (fun _ h => by cases h) hrun,
        hstored.clear, .of_ne (.unlock _) (fun h => by cases h)⟩

/-- Only `main` starts threads. -/
lemma Inv.create (h : Inv s) {next : Point t}
    (hact : program t (s.point t) = .create u next)
    (hexcl' : Excl program holds ((s.goto t next).turn u .running)) :
    Inv ((s.goto t next).turn u .running) := by
  obtain ⟨hexcl, hbirths, hstored, hawaits⟩ := h
  cases t
  · cases hq : s.point .main <;> rw [hq] at hact <;> cases hact
    · rw [hq] at hbirths
      have hlock := hbirths.not_started rfl
      have hproducer := hbirths.producer_unborn.mpr (.inl rfl)
      refine ⟨hexcl', ⟨hbirths.main, .inr hproducer, iff_of_true hproducer (.inr rfl),
        iff_of_false (fun h => by cases h) (fun h => by cases h), (fun h => by cases h),
        fun h => ?_, fun h => by cases h⟩, hstored, .of_ne _ (fun h => ?_)⟩
      · rcases h with h | h <;> cases h
      · cases hlock.symm.trans h
    · rw [hq] at hbirths
      have hconsumer : s.phase .consumer ≠ .unborn := fun h => by
        cases hbirths.consumer_unborn.mp h
      refine ⟨hexcl', ⟨hbirths.main, .inl rfl, iff_of_false (fun h => by cases h) (fun h => ?_),
        iff_of_false hconsumer (fun h => by cases h), (fun h => by cases h), fun h => ?_,
        fun h => by cases h⟩, hstored, hawaits⟩
      · rcases h with h | h <;> cases h
      · rcases h with h | h <;> cases h
  · cases hq : s.point .producer <;> rw [hq] at hact <;> cases hact
  · cases hq : s.point .consumer <;> rw [hq] at hact <;> cases hact

/-- Only `main` joins threads. -/
lemma Inv.join (h : Inv s) {next : Point t}
    (hact : program t (s.point t) = .join u next) (hended : Ended program s u)
    (hexcl' : Excl program holds (s.goto t next)) : Inv (s.goto t next) := by
  obtain ⟨hexcl, hbirths, hstored, hawaits⟩ := h
  cases t
  · have hconsumer : s.point .main ≠ .createConsumer → s.phase .consumer ≠ .unborn :=
      fun hne h => hne (hbirths.consumer_unborn.mp h)
    cases hq : s.point .main <;> rw [hq] at hact hbirths hconsumer <;> cases hact
    · have hborn := hconsumer (by decide)
      refine ⟨hexcl', ⟨hbirths.main, .inl hended.1, iff_of_false ?_ (fun h => ?_),
        iff_of_false hborn (fun h => by cases h), (fun h => by cases h),
        fun _ => ended_producer hended, fun h => by cases h⟩, hstored, hawaits⟩
      · exact fun h => by cases hended.1.symm.trans h
      · rcases h with h | h <;> cases h
    · have hborn := hconsumer (by decide)
      refine ⟨hexcl', ⟨hbirths.main, hbirths.producer, iff_of_false (fun h => ?_) (fun h => ?_),
        iff_of_false hborn (fun h => by cases h), (fun h => by cases h),
        fun _ => hbirths.joined (.inl rfl), fun _ => ended_consumer hended⟩, hstored, hawaits⟩
      · rcases hbirths.producer_unborn.mp h with h | h <;> cases h
      · rcases h with h | h <;> cases h
  · cases hq : s.point .producer <;> rw [hq] at hact <;> cases hact
  · cases hq : s.point .consumer <;> rw [hq] at hact <;> cases hact

/-- Only the producer signals. -/
lemma Inv.signal (h : Inv s) {next : Point t} {woken : List Name}
    (hrun : s.phase t = .running) (hact : program t (s.point t) = .signal next)
    (hwakes : Wakes s woken)
    (hexcl' : Excl program holds ((s.goto t next).wakeAll woken)) :
    Inv ((s.goto t next).wakeAll woken) := by
  obtain ⟨hexcl, hbirths, hstored, hawaits⟩ := h
  cases t
  · cases hq : s.point .main <;> rw [hq] at hact <;> cases hact
  · cases hq : s.point .producer <;> rw [hq] at hact <;> cases hact
    rw [hq] at hbirths hstored hawaits
    -- nobody but the consumer sleeps
    have hmain : Name.main ∉ woken := fun h => by cases hbirths.main.symm.trans (hwakes.1 _ h)
    have hproducer : Name.producer ∉ woken := fun h => by cases hrun.symm.trans (hwakes.1 _ h)
    have hphase : ∀ u, u ∉ woken →
        ((s.goto .producer .unlock).wakeAll woken).phase u = s.phase u := fun u hu => by
      rw [State.phase_wakeAll, if_neg hu, State.phase_goto]
    have hunborn : ((s.goto .producer .unlock).wakeAll woken).phase .consumer = .unborn ↔
        s.phase .consumer = .unborn := by
      by_cases hconsumer : Name.consumer ∈ woken
      · rw [State.phase_wakeAll, if_pos hconsumer, hwakes.1 _ hconsumer]
        decide
      · rw [hphase _ hconsumer]
    refine ⟨hexcl', ⟨(hphase _ hmain).trans hbirths.main,
      .inl ((hphase _ hproducer).trans hrun), ?_,
      hunborn.trans hbirths.consumer_unborn, hbirths.not_started, fun h => ?_, hbirths.returned⟩,
      hstored.producer_moves .unlock rfl (by decide), fun hc h => ?_⟩
    · rw [hphase _ hproducer]
      exact hbirths.producer_unborn
    · cases hbirths.joined h
    · have hconsumer : Name.consumer ∉ woken := fun hin => by
        rw [State.phase_wakeAll, if_pos hin] at h
        exact h rfl
      rw [hphase _ hconsumer] at h
      rcases hawaits hc h with hp | ⟨hasleep, -⟩
      · cases hp
      · refine absurd hasleep (hwakes.2 (List.eq_nil_iff_forall_not_mem.mpr fun u hu => ?_) _)
        cases u
        · exact hmain hu
        · exact hproducer hu
        · exact hconsumer hu
  · cases hq : s.point .consumer <;> rw [hq] at hact <;> cases hact

/-- Only the consumer returns from waiting. -/
lemma Inv.resume (h : Inv s) {next : Point t} (hwoken : s.phase t = .woken)
    (hact : program t (s.point t) = .wait next)
    (hexcl' : Excl program holds (((s.goto t next).turn t .running).own (some t))) :
    Inv (((s.goto t next).turn t .running).own (some t)) := by
  obtain ⟨hexcl, hbirths, hstored, hawaits⟩ := h
  cases t
  · cases hq : s.point .main <;> rw [hq] at hact <;> cases hact
  · cases hq : s.point .producer <;> rw [hq] at hact <;> cases hact
  · cases hq : s.point .consumer <;> rw [hq] at hact <;> cases hact
    rw [hq] at hbirths hstored
    have hborn : s.phase .consumer ≠ .unborn := by
      rw [hwoken]
      decide
    exact ⟨hexcl', hbirths.consumer_moves .test (fun _ h => by cases h) hborn (by simp) rfl rfl,
      hstored.consumer_moves .test rfl rfl rfl, .of_ne .test (by decide)⟩

/-- Only the consumer can be woken up. -/
lemma Inv.spurious (h : Inv s) (hasleep : s.phase t = .asleep)
    (hexcl' : Excl program holds (s.turn t .woken)) : Inv (s.turn t .woken) := by
  obtain ⟨hexcl, hbirths, hstored, hawaits⟩ := h
  cases t
  · cases hbirths.main.symm.trans hasleep
  · rcases hbirths.producer with hp | hp <;> cases hp.symm.trans hasleep
  · have hmain : s.point .main ≠ .createConsumer := fun h => by
      cases (hbirths.consumer_unborn.mpr h).symm.trans hasleep
    exact ⟨hexcl', ⟨hbirths.main, hbirths.producer, hbirths.producer_unborn,
      iff_of_false (fun h => by cases h) hmain, hbirths.not_started, hbirths.joined,
      hbirths.returned⟩, hstored, fun _ h => absurd rfl h⟩

lemma Inv.step (h : Inv s) (hstep : Step s e s') : Inv s' := by
  have hexcl := h.excl.step disciplined hstep
  cases Move.of_step hstep with
  | lock _ _ hrun hact => exact h.lock hrun hact hexcl
  | unlock _ _ hrun hact => exact h.unlock hrun hact hexcl
  | wait _ _ hrun hact => exact h.wait hrun hact hexcl
  | access _ _ hrun hact => exact h.access hrun hact hexcl
  | create _ _ _ _ hact => exact h.create hact hexcl
  | join _ _ _ _ hact hended => exact h.join hact hended hexcl
  | signal _ _ _ hrun hact hwakes => exact h.signal hrun hact hwakes hexcl
  | resume _ _ hwoken _ hact => exact h.resume hwoken hact hexcl
  | spurious _ hasleep => exact h.spurious hasleep hexcl

/-! ### Runs -/

variable {es : List (Event Name)}

lemma inv_of_run (h : Run Step start es s) : Inv s :=
  Run.invariant (fun _ _ _ => Inv.step) inv_start h

/-- **Nothing is lost or seen too early**, in whatever order the threads take their turns: only
one thread at a time has the mutex, what the consumer receives is what the producer has
produced, and when `main` returns the data is consumed. -/
theorem producer_consumer_safe (h : Run Step start es s) :
    (∀ t u, s.phase t = .running → s.phase u = .running → holds t (s.point t) = true →
      holds u (s.point u) = true → t = u) ∧
    (∀ received, (s.point .consumer).received = some received → received = 100) ∧
    (s.point .main = .returned → s.point .producer = .returned ∧
      s.point .consumer = .returned 100 ∧ s.data = ⟨100, 0⟩) := by
  obtain ⟨hexcl, hbirths, hstored, -⟩ := inv_of_run h
  refine ⟨fun t u => hexcl.eq, hstored.received, fun hm => ?_⟩
  have hp := hbirths.joined (.inr hm)
  obtain ⟨received, hc⟩ := hbirths.returned hm
  have hreceived := hstored.received received (by rw [hc]; rfl)
  have hdata := hstored.data (by rw [hp]; rfl)
  have hhas := hstored.hasData
  simp only [hc, ConsumerPoint.consumed, Bool.not_true, Bool.and_false] at hhas
  refine ⟨hp, by rw [hc, hreceived], ?_⟩
  cases hg : s.data with
  | mk data hasData =>
    rw [hg] at hdata hhas
    exact congrArg₂ Globals.mk hdata hhas

/-- Where nothing goes on, `main` has returned. -/
lemma returned_of_stuck (h : Inv s) (hstuck : Stuck program s) : s.point .main = .returned := by
  obtain ⟨hexcl, hbirths, -, hawaits⟩ := h
  have hrunning := fun t (hrun : s.phase t = .running) => hstuck.running disciplined hexcl hrun
  rcases hrunning .main hbirths.main with
    hstop | ⟨u, next, hjoin, hended⟩ | ⟨u, next, hcreate, hborn⟩
  · cases hq : s.point .main <;> rw [hq] at hstop <;> first | rfl | cases hstop
  · cases hq : s.point .main <;> rw [hq] at hjoin hbirths <;> cases hjoin
    · -- the producer does not wait for anything but the mutex
      have hrun : s.phase .producer = .running := hbirths.producer.resolve_right fun hp => by
        rcases hbirths.producer_unborn.mp hp with h | h <;> cases h
      rcases hrunning .producer hrun with hstop | ⟨_, _, hact, -⟩ | ⟨_, _, hact, -⟩
      · exact absurd ⟨hrun, Act.stops_iff.mpr hstop⟩ hended
      · cases hq : s.point .producer <;> rw [hq] at hact <;> cases hact
      · cases hq : s.point .producer <;> rw [hq] at hact <;> cases hact
    · -- the consumer does not sleep, since the producer has ended
      have hp := hbirths.joined (.inl rfl)
      cases hphase : s.phase .consumer with
      | unborn => cases hbirths.consumer_unborn.mp hphase
      | running =>
        rcases hrunning .consumer hphase with hstop | ⟨_, _, hact, -⟩ | ⟨_, _, hact, -⟩
        · exact absurd ⟨hphase, Act.stops_iff.mpr hstop⟩ hended
        · cases hq : s.point .consumer <;> rw [hq] at hact <;> cases hact
        · cases hq : s.point .consumer <;> rw [hq] at hact <;> cases hact
      | asleep =>
        obtain ⟨next, hwait⟩ := hexcl.waiting .consumer (.inl hphase)
        have hc : s.point .consumer = .wait := by
          cases hq : s.point .consumer <;> rw [hq] at hwait <;> first | rfl | cases hwait
        rcases hawaits hc (by rw [hphase]; decide) with hno | ⟨-, hsignal⟩
        · rw [hp] at hno
          cases hno
        · cases hp.symm.trans hsignal
      | woken => exact absurd hphase (hstuck.not_woken disciplined hexcl .consumer)
  · cases hq : s.point .main <;> rw [hq] at hcreate hbirths <;> cases hcreate
    · exact absurd (hbirths.consumer_unborn.mpr rfl) hborn
    · exact absurd (hbirths.producer_unborn.mpr (.inr rfl)) hborn

/-- **No wake-up is lost**: until `main` has returned some thread can go on, without a wake-up
that comes from nowhere, and a run has 24 steps at most, and four more for each such wake-up. -/
theorem producer_consumer_live (h : Run Step start es s) :
    es.length ≤ 24 + 4 * es.countP Event.Spurious ∧
      (s.point .main = .returned ∨ ∃ e s', e.Spurious = false ∧ Step s e s') := by
  constructor
  · have hstart : credits budget 3 start = 24 := rfl
    have hlen := run_length_le budget_ok h
    omega
  · by_cases hstuck : Stuck program s
    · exact .inl (returned_of_stuck (inv_of_run h) hstuck)
    · simp only [Stuck, not_forall, Bool.not_eq_true] at hstuck
      obtain ⟨e, s', hstep, hspurious⟩ := hstuck
      exact .inr ⟨e, s', hspurious, hstep⟩

/-- The consumer comes first, wakes up for nothing, sleeps again, and gets the signal. -/
def wakings : List (Event Name) :=
  [.act .main, .act .consumer, .act .consumer, .act .consumer, .act .main, .spurious .consumer,
    .resume .consumer, .act .consumer, .act .consumer, .act .producer, .act .producer,
    .act .producer, .signal .producer [.consumer], .act .producer, .resume .consumer,
    .act .main, .act .consumer, .act .consumer, .act .consumer, .act .consumer, .act .main]

lemma run_wakings : ∃ s, Run Step start wakings s ∧ s.point .main = .returned :=
  Run.exists_of_foldlM (f := fun s : State Name Globals Point => s.point .main) (by decide)

theorem producer_consumer_safe_wakings : ∃ s, Run Step start wakings s ∧ s.data = ⟨100, 0⟩ := by
  obtain ⟨s, hrun, hmain⟩ := run_wakings
  exact ⟨s, hrun, ((producer_consumer_safe hrun).2.2 hmain).2.2⟩

theorem producer_consumer_live_wakings :
    wakings.length ≤ 24 + 4 * wakings.countP Event.Spurious := by
  obtain ⟨s, hrun, -⟩ := run_wakings
  exact (producer_consumer_live hrun).1

end Step

end Thread

end CsLab
