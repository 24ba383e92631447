/-
Two programs that talk over a connection.

A `Pipe` is a stream from a writer to a reader, with what was written and what was taken out
so far.  A `Session` is a connection of two such pipes with a program at each end: at a point
of a program there is one `Act` to do, and the `Answer` decides where the program goes on.
What the answers are is up to the environment, within what the pipes allow, and any call may
fail.  Connections are not reset: what is sent to a program that has closed its end can be taken
like anything else, and it does not end the program that sends it.

There are two general results.  A session only gets stuck where both programs wait for data
of the other (`progress`), and it comes to an end if the programs have a `Budget`
(`run_length_le`).
-/
import Mathlib.Data.List.Infix
import Mathlib.Tactic.Common
import CsLab.Lib.Run

namespace CsLab

/-! ### Pipes -/

/-- A stream from a writer to a reader. -/
structure Pipe (α : Type*) where
  /-- What the writer has put in, oldest first. -/
  written : List α
  /-- What the reader has taken out. -/
  taken : List α
  taken_le : taken <+: written
  /-- The writer has ended the stream. -/
  ended : Bool

namespace Pipe

variable {α : Type*} {p : Pipe α} {data : List α} {cap : ℕ}

/-- A pipe that was not used. -/
def fresh : Pipe α := ⟨[], [], List.prefix_rfl, false⟩

def write (p : Pipe α) (data : List α) : Pipe α :=
  { p with
    written := p.written ++ data
    taken_le := p.taken_le.trans (List.prefix_append _ _) }

def take (p : Pipe α) (data : List α) (h : p.taken ++ data <+: p.written) : Pipe α :=
  { p with taken := p.taken ++ data, taken_le := h }

def finish (p : Pipe α) : Pipe α := { p with ended := true }

/-- How much is on its way. -/
def inFlight (p : Pipe α) : ℕ := p.written.length - p.taken.length

@[simp] lemma written_write : (p.write data).written = p.written ++ data := rfl

@[simp] lemma taken_write : (p.write data).taken = p.taken := rfl

@[simp] lemma ended_write : (p.write data).ended = p.ended := rfl

@[simp] lemma written_take (h : p.taken ++ data <+: p.written) :
    (p.take data h).written = p.written := rfl

@[simp] lemma taken_take (h : p.taken ++ data <+: p.written) :
    (p.take data h).taken = p.taken ++ data := rfl

@[simp] lemma ended_take (h : p.taken ++ data <+: p.written) :
    (p.take data h).ended = p.ended := rfl

@[simp] lemma written_finish : p.finish.written = p.written := rfl

@[simp] lemma taken_finish : p.finish.taken = p.taken := rfl

@[simp] lemma ended_finish : p.finish.ended = true := rfl

@[simp] lemma written_fresh : (fresh : Pipe α).written = [] := rfl

@[simp] lemma taken_fresh : (fresh : Pipe α).taken = [] := rfl

@[simp] lemma ended_fresh : (fresh : Pipe α).ended = false := rfl

/-- A read of at most `cap` may give this. -/
def Offers (p : Pipe α) (cap : ℕ) (data : List α) : Prop :=
  data ≠ [] ∧ data.length ≤ cap ∧ p.taken ++ data <+: p.written

/-- A read finds the end of the stream. -/
def Drained (p : Pipe α) : Prop := p.ended = true ∧ p.taken = p.written

instance [DecidableEq α] (p : Pipe α) (cap : ℕ) (data : List α) : Decidable (p.Offers cap data) :=
  inferInstanceAs (Decidable (_ ∧ _ ∧ _))

instance [DecidableEq α] (p : Pipe α) : Decidable p.Drained :=
  inferInstanceAs (Decidable (_ ∧ _))

/-- There is something to read, unless all was taken. -/
lemma exists_offers (hcap : 0 < cap) (h : p.taken ≠ p.written) : ∃ x, p.Offers cap [x] := by
  obtain ⟨rest, hrest⟩ := p.taken_le
  cases rest with
  | nil => exact absurd (by simpa using hrest) h
  | cons x rest =>
    refine ⟨x, by simp, hcap, rest, ?_⟩
    rw [List.append_assoc, List.singleton_append, hrest]

lemma inFlight_write : (p.write data).inFlight = p.inFlight + data.length := by
  have hle := p.taken_le.length_le
  simp only [inFlight, written_write, taken_write, List.length_append]
  omega

lemma inFlight_take (h : p.taken ++ data <+: p.written) :
    (p.take data h).inFlight + data.length = p.inFlight := by
  have hle := h.length_le
  rw [List.length_append] at hle
  simp only [inFlight, written_take, taken_take, List.length_append]
  omega

end Pipe

namespace Session

/-! ### Programs -/

/-- What a read returns. -/
inductive Reply (α : Type*) where
  | data (bytes : List α)
  /-- the end of the stream -/
  | eof
  | failed

/-- What a program does at a point, and where it goes on. -/
inductive Act (α Q : Type*) where
  /-- Write `data`; the result is how much was taken, `none` for a failure. -/
  | send (data : List α) (next : Option ℕ → Q)
  /-- Read at most `cap`. -/
  | recv (cap : ℕ) (next : Reply α → Q)
  /-- End the own stream. -/
  | shutdown (next : Q)
  /-- End the own stream, and read no more. -/
  | close (next : Q)
  /-- The program has ended. -/
  | stop

/-- What the environment answers. -/
inductive Answer (α : Type*) where
  | sent (k : ℕ)
  | sendFailed
  | got (data : List α)
  | eof
  | recvFailed
  /-- `shutdown` or `close` returns -/
  | done
deriving DecidableEq

/-- The call failed. -/
def Answer.Fault {α : Type*} : Answer α → Prop
  | .sendFailed => True
  | .recvFailed => True
  | _ => False

instance {α : Type*} : DecidablePred (@Answer.Fault α)
  | .sendFailed => inferInstanceAs (Decidable True)
  | .recvFailed => inferInstanceAs (Decidable True)
  | .sent _ => inferInstanceAs (Decidable False)
  | .got _ => inferInstanceAs (Decidable False)
  | .eof => inferInstanceAs (Decidable False)
  | .done => inferInstanceAs (Decidable False)

namespace Act

variable {α Q : Type*} {a : Act α Q} {q : Q} {inp out inp' out' : Pipe α} {answer : Answer α}

/-- An act with an answer: where the program goes on, and the pipes that it reads from and
writes to.  A write takes a part of the data only if it takes something. -/
def exec [DecidableEq α] (a : Act α Q) (inp out : Pipe α) (answer : Answer α) :
    Option (Q × Pipe α × Pipe α) :=
  match a, answer with
  | .send data next, .sent k =>
    if k ≤ data.length ∧ (k = 0 → data = []) then
      some (next (some k), inp, out.write (data.take k))
    else none
  | .send _ next, .sendFailed => some (next none, inp, out)
  | .recv cap next, .got data =>
    if h : inp.Offers cap data then some (next (.data data), inp.take data h.2.2, out) else none
  | .recv _ next, .eof => if inp.Drained then some (next .eof, inp, out) else none
  | .recv _ next, .recvFailed => some (next .failed, inp, out)
  | .shutdown next, .done => some (next, inp, out.finish)
  | .close next, .done => some (next, inp, out.finish)
  | _, _ => none

/-- What an act can come to. -/
inductive Move (inp out : Pipe α) : Act α Q → Answer α → Q → Pipe α → Pipe α → Prop
  | sent (data : List α) (next : Option ℕ → Q) (k : ℕ) (hk : k ≤ data.length)
      (hpos : k = 0 → data = []) :
      Move inp out (.send data next) (.sent k) (next (some k)) inp (out.write (data.take k))
  | sendFailed (data : List α) (next : Option ℕ → Q) :
      Move inp out (.send data next) .sendFailed (next none) inp out
  | got (cap : ℕ) (next : Reply α → Q) (data : List α) (h : inp.Offers cap data) :
      Move inp out (.recv cap next) (.got data) (next (.data data)) (inp.take data h.2.2) out
  | eof (cap : ℕ) (next : Reply α → Q) (h : inp.Drained) :
      Move inp out (.recv cap next) .eof (next .eof) inp out
  | recvFailed (cap : ℕ) (next : Reply α → Q) :
      Move inp out (.recv cap next) .recvFailed (next .failed) inp out
  | shutdown (next : Q) : Move inp out (.shutdown next) .done next inp out.finish
  | close (next : Q) : Move inp out (.close next) .done next inp out.finish

lemma Move.of_exec [DecidableEq α] (h : a.exec inp out answer = some (q, inp', out')) :
    Move inp out a answer q inp' out' := by
  unfold exec at h
  split at h
  · next data next k =>
    split at h
    · next hk =>
      cases h
      exact .sent data next k hk.1 hk.2
    · cases h
  · cases h
    exact .sendFailed ..
  · next cap next data =>
    split at h
    · next hoffers =>
      cases h
      exact .got cap next data hoffers
    · cases h
  · split at h
    · next hdrained =>
      cases h
      exact .eof _ _ hdrained
    · cases h
  · cases h
    exact .recvFailed ..
  · cases h
    exact .shutdown _
  · cases h
    exact .close _
  · cases h

/-- The act has to wait for the other program. -/
def Waits (inp : Pipe α) : Act α Q → Prop
  | .recv cap _ => ¬ inp.Drained ∧ ∀ data, ¬ inp.Offers cap data
  | _ => False

/-- An act that has to wait can only fail. -/
lemma Move.fault_of_waits (h : Move inp out a answer q inp' out') (hwait : a.Waits inp) :
    answer.Fault := by
  cases h with
  | got cap next data hoffers => exact absurd hoffers (hwait.2 data)
  | eof cap next hdrained => exact absurd hdrained hwait.1
  | recvFailed => trivial
  | sent => exact hwait.elim
  | sendFailed => exact hwait.elim
  | shutdown => exact hwait.elim
  | close => exact hwait.elim

/-- A program that has ended does nothing. -/
lemma not_move_stop : ¬ Move inp out (.stop : Act α Q) answer q inp' out' := fun h => by cases h

/-- An act that does not have to wait can be done without a failure. -/
lemma exists_exec [DecidableEq α] (out : Pipe α) (hstop : a ≠ .stop) (hwait : ¬ a.Waits inp) :
    ∃ answer, ¬ answer.Fault ∧ (a.exec inp out answer).isSome := by
  cases a with
  | send data next =>
    refine ⟨.sent data.length, id, ?_⟩
    simp only [exec]
    rw [if_pos ⟨le_rfl, List.length_eq_zero_iff.mp⟩]
    rfl
  | recv cap next =>
    by_cases hdrained : inp.Drained
    · refine ⟨.eof, id, ?_⟩
      simp only [exec]
      rw [if_pos hdrained]
      rfl
    · obtain ⟨data, hdata⟩ : ∃ data, inp.Offers cap data := by
        by_contra hno
        exact hwait ⟨hdrained, not_exists.mp hno⟩
      refine ⟨.got data, id, ?_⟩
      simp only [exec]
      rw [dif_pos hdata]
      rfl
  | shutdown next => exact ⟨.done, id, rfl⟩
  | close next => exact ⟨.done, id, rfl⟩
  | stop => exact absurd rfl hstop

/-- A read has to wait if all was taken and the stream is not at its end. -/
lemma waits_recv {cap : ℕ} {next : Reply α → Q} (hcap : 0 < cap) :
    (recv cap next).Waits inp ↔ inp.taken = inp.written ∧ inp.ended = false := by
  constructor
  · rintro ⟨hdrained, hno⟩
    have htaken : inp.taken = inp.written := by
      by_contra hne
      obtain ⟨x, hx⟩ := Pipe.exists_offers hcap hne
      exact hno [x] hx
    exact ⟨htaken, by simpa [Pipe.Drained, htaken] using hdrained⟩
  · rintro ⟨htaken, hended⟩
    refine ⟨fun h => by simp [h.1] at hended, fun data hoffers => ?_⟩
    have hle := hoffers.2.2.length_le
    rw [htaken, List.length_append] at hle
    exact hoffers.1 (List.length_eq_zero_iff.mp (by omega))

end Act

namespace Act

variable {α Q : Type*}

/-- The act costs at least one of `n`: each element that it reads brings `w`, each element that
it writes costs `w'`, and `b` is for what comes behind. -/
@[simp]
def Within (w w' : ℕ) (b : Q → ℕ) (n : ℕ) : Act α Q → Prop
  | .send data next => ∀ k, b (next k) + w' * data.length < n
  | .recv _ next =>
    (∀ data, data ≠ [] → b (next (.data data)) < n + w * data.length) ∧
      b (next .eof) < n ∧ b (next .failed) < n
  | .shutdown next => b next < n
  | .close next => b next < n
  | .stop => True

end Act

/-- An upper bound for what a program still does: `b q` more steps, and `w` for each element
that it reads.  It pays `w'` for each element that it writes. -/
def Budget {α Q : Type*} (w w' : ℕ) (P : Q → Act α Q) (b : Q → ℕ) : Prop :=
  ∀ q, (P q).Within w w' b (b q)

/-- Every act spends some of the budget or of what is on its way. -/
lemma Budget.spend {α Q : Type*} {w w' : ℕ} {P : Q → Act α Q} {b : Q → ℕ} (h : Budget w w' P b)
    {q q' : Q} {inp out inp' out' : Pipe α} {answer : Answer α}
    (hmove : Act.Move inp out (P q) answer q' inp' out') :
    b q' + w * inp'.inFlight + w' * out'.inFlight <
      b q + w * inp.inFlight + w' * out.inFlight := by
  have hb := h q
  generalize P q = a at hb hmove
  cases hmove with
  | sent data next k hk =>
    have hless := hb (some k)
    have hpaid := Nat.mul_le_mul_left w' hk
    rw [Pipe.inFlight_write, List.length_take_of_le hk, Nat.mul_add]
    omega
  | sendFailed data next =>
    have hless := hb none
    omega
  | got cap next data hoffers =>
    have hless := hb.1 data hoffers.1
    rw [← Pipe.inFlight_take hoffers.2.2, Nat.mul_add]
    omega
  | eof cap next =>
    have hless := hb.2.1
    omega
  | recvFailed cap next =>
    have hless := hb.2.2
    omega
  | shutdown =>
    have hless : b q' < b q := hb
    have hflight : out.finish.inFlight = out.inFlight := rfl
    rw [hflight]
    omega
  | close =>
    have hless : b q' < b q := hb
    have hflight : out.finish.inFlight = out.inFlight := rfl
    rw [hflight]
    omega

/-! ### What a program keeps by itself

What a program has read, what it has written and whether it has ended its stream only changes
by its own acts. -/

namespace Act

variable {α Q : Type*} {L : Q → List α → List α → Bool → Prop} {allow : Answer α → Prop}

/-- The act leads to `L` of the next point, of what was read and written so far and of the end
of the stream, if the answer is one of those in `allow`. -/
@[simp]
def Leads (allow : Answer α → Prop) (L : Q → List α → List α → Bool → Prop)
    (taken written : List α) (ended : Bool) : Act α Q → Prop
  | .send data next =>
    (∀ k, allow (.sent k) → k ≤ data.length → (k = 0 → data = []) →
      L (next (some k)) taken (written ++ data.take k) ended) ∧
    (allow .sendFailed → L (next none) taken written ended)
  | .recv cap next =>
    (∀ data, allow (.got data) → data ≠ [] → data.length ≤ cap →
      L (next (.data data)) (taken ++ data) written ended) ∧
    (allow .eof → L (next .eof) taken written ended) ∧
    (allow .recvFailed → L (next .failed) taken written ended)
  | .shutdown next => L next taken written true
  | .close next => L next taken written true
  | .stop => True

/-- Every act of the program keeps `L`. -/
def Keeps (allow : Answer α → Prop) (P : Q → Act α Q) (L : Q → List α → List α → Bool → Prop) :
    Prop :=
  ∀ q taken written ended, L q taken written ended → (P q).Leads allow L taken written ended

lemma Keeps.move {P : Q → Act α Q} (h : Keeps allow P L) {q q' : Q} {inp out inp' out' : Pipe α}
    {answer : Answer α} (hL : L q inp.taken out.written out.ended) (hallow : allow answer)
    (hmove : Move inp out (P q) answer q' inp' out') :
    L q' inp'.taken out'.written out'.ended := by
  have hleads := h q _ _ _ hL
  generalize P q = a at hleads hmove
  cases hmove with
  | sent data next k hk hpos => exact hleads.1 k hallow hk hpos
  | sendFailed data next => exact hleads.2 hallow
  | got cap next data hoffers => exact hleads.1 data hallow hoffers.1 hoffers.2.1
  | eof cap next => exact hleads.2.1 hallow
  | recvFailed cap next => exact hleads.2.2 hallow
  | shutdown => exact hleads
  | close => exact hleads

/-- The act leads to `K` of the next point, of the pipe that is read from and of what was
written so far, if the answer is one of those in `allow`. -/
@[simp]
def Informs (allow : Answer α → Prop) (K : Q → Pipe α → List α → Prop) (inp : Pipe α)
    (written : List α) : Act α Q → Prop
  | .send data next =>
    (∀ k, allow (.sent k) → k ≤ data.length → (k = 0 → data = []) →
      K (next (some k)) inp (written ++ data.take k)) ∧
    (allow .sendFailed → K (next none) inp written)
  | .recv cap next =>
    (∀ data, (h : inp.Offers cap data) → allow (.got data) →
      K (next (.data data)) (inp.take data h.2.2) written) ∧
    (allow .eof → inp.Drained → K (next .eof) inp written) ∧
    (allow .recvFailed → K (next .failed) inp written)
  | .shutdown next => K next inp written
  | .close next => K next inp written
  | .stop => True

/-- Every act of the program keeps `K`.  Of the pipe that is read from, `K` may only depend on
what was taken and on the end of the stream. -/
structure Learns (allow : Answer α → Prop) (P : Q → Act α Q) (K : Q → Pipe α → List α → Prop) :
    Prop where
  act : ∀ q inp written, K q inp written → (P q).Informs allow K inp written
  frame : ∀ q inp inp' written, inp'.taken = inp.taken → (inp.Drained → inp'.Drained) →
    K q inp written → K q inp' written

lemma Learns.move {P : Q → Act α Q} {K : Q → Pipe α → List α → Prop} (h : Learns allow P K)
    {q q' : Q} {inp out inp' out' : Pipe α} {answer : Answer α} (hK : K q inp out.written)
    (hallow : allow answer) (hmove : Move inp out (P q) answer q' inp' out') :
    K q' inp' out'.written := by
  have hinforms := h.act q _ _ hK
  generalize P q = a at hinforms hmove
  cases hmove with
  | sent data next k hk hpos => exact hinforms.1 k hallow hk hpos
  | sendFailed data next => exact hinforms.2 hallow
  | got cap next data hoffers => exact hinforms.1 data hoffers hallow
  | eof cap next hdrained => exact hinforms.2.1 hallow hdrained
  | recvFailed cap next => exact hinforms.2.2 hallow
  | shutdown => exact hinforms
  | close => exact hinforms

/-- An act of the other program changes nothing of this. -/
lemma Move.frame {R : Type*} {a : Act α R} {r : R} {inp out inp' out' : Pipe α}
    {answer : Answer α} (h : Move inp out a answer r inp' out') :
    out'.taken = out.taken ∧ inp'.written = inp.written ∧ inp'.ended = inp.ended := by
  cases h <;> exact ⟨rfl, rfl, rfl⟩

/-- A stream that was read to its end stays so, unless something is written behind the end. -/
lemma Move.drained {a : Act α Q} {q : Q} {inp out inp' out' : Pipe α} {answer : Answer α}
    (h : Move inp out a answer q inp' out') (hdrained : out.Drained)
    (hquiet : ∀ data next, a ≠ .send data next) : out'.Drained := by
  cases h with
  | sent data next => exact absurd rfl (hquiet data next)
  | sendFailed => exact hdrained
  | got => exact hdrained
  | eof => exact hdrained
  | recvFailed => exact hdrained
  | shutdown => exact ⟨rfl, hdrained.2⟩
  | close => exact ⟨rfl, hdrained.2⟩

end Act

end Session

/-! ### Sessions -/

/-- A connection with a program at each end. -/
structure Session (α Q R : Type*) where
  left : Q
  right : R
  /-- from left to right -/
  up : Pipe α
  /-- from right to left -/
  down : Pipe α

namespace Session

/-- Whose step it is, and the answer. -/
inductive Turn (α : Type*) where
  | left (answer : Answer α)
  | right (answer : Answer α)
deriving DecidableEq

def Turn.answer {α : Type*} : Turn α → Answer α
  | .left answer => answer
  | .right answer => answer

def Turn.swap {α : Type*} : Turn α → Turn α
  | .left answer => .right answer
  | .right answer => .left answer

variable {α Q R : Type*} {P : Q → Act α Q} {P' : R → Act α R} {s s' : Session α Q R} {t : Turn α}
  {es : List (Turn α)}

/-- The session before the first step. -/
def start (q : Q) (r : R) : Session α Q R := ⟨q, r, .fresh, .fresh⟩

def exec [DecidableEq α] (P : Q → Act α Q) (P' : R → Act α R) (s : Session α Q R) :
    Turn α → Option (Session α Q R)
  | .left answer =>
    ((P s.left).exec s.down s.up answer).map fun out => ⟨out.1, s.right, out.2.2, out.2.1⟩
  | .right answer =>
    ((P' s.right).exec s.up s.down answer).map fun out => ⟨s.left, out.1, out.2.1, out.2.2⟩

/-- One step of one of the programs. -/
abbrev Step [DecidableEq α] (P : Q → Act α Q) (P' : R → Act α R) :
    Session α Q R → Turn α → Session α Q R → Prop :=
  stepOf (exec P P')

/-- Both programs have ended. -/
def Finished (P : Q → Act α Q) (P' : R → Act α R) (s : Session α Q R) : Prop :=
  P s.left = .stop ∧ P' s.right = .stop

/-- Each of the programs has ended or waits for the other one. -/
def Stuck (P : Q → Act α Q) (P' : R → Act α R) (s : Session α Q R) : Prop :=
  (P s.left = .stop ∨ (P s.left).Waits s.down) ∧ (P' s.right = .stop ∨ (P' s.right).Waits s.up)

/-- What a step can be. -/
lemma move_of_step [DecidableEq α] (h : Step P P' s t s') :
    (∃ answer, t = .left answer ∧ s'.right = s.right ∧
      Act.Move s.down s.up (P s.left) answer s'.left s'.down s'.up) ∨
    (∃ answer, t = .right answer ∧ s'.left = s.left ∧
      Act.Move s.up s.down (P' s.right) answer s'.right s'.up s'.down) := by
  cases t with
  | left answer =>
    obtain ⟨⟨q, inp, out⟩, hexec, rfl⟩ := Option.map_eq_some_iff.mp h
    exact .inl ⟨answer, rfl, rfl, .of_exec hexec⟩
  | right answer =>
    obtain ⟨⟨q, inp, out⟩, hexec, rfl⟩ := Option.map_eq_some_iff.mp h
    exact .inr ⟨answer, rfl, rfl, .of_exec hexec⟩

/-- **Progress**: a session that is not stuck has a step in which no call fails. -/
theorem progress [DecidableEq α] (h : ¬ Stuck P P' s) :
    ∃ t s', ¬ t.answer.Fault ∧ Step P P' s t s' := by
  rw [Stuck, not_and_or, not_or, not_or] at h
  rcases h with ⟨hstop, hwait⟩ | ⟨hstop, hwait⟩
  · obtain ⟨answer, hfault, hexec⟩ := Act.exists_exec s.up hstop hwait
    obtain ⟨out, hout⟩ := Option.isSome_iff_exists.mp hexec
    exact ⟨.left answer, _, hfault, Option.map_eq_some_iff.mpr ⟨out, hout, rfl⟩⟩
  · obtain ⟨answer, hfault, hexec⟩ := Act.exists_exec s.down hstop hwait
    obtain ⟨out, hout⟩ := Option.isSome_iff_exists.mp hexec
    exact ⟨.right answer, _, hfault, Option.map_eq_some_iff.mpr ⟨out, hout, rfl⟩⟩

/-- A stuck session goes on only if a call fails. -/
theorem Stuck.fault [DecidableEq α] (h : Stuck P P' s) (hstep : Step P P' s t s') :
    t.answer.Fault := by
  rcases move_of_step hstep with ⟨answer, rfl, -, hmove⟩ | ⟨answer, rfl, -, hmove⟩
  · rcases h.1 with hstop | hwait
    · rw [hstop] at hmove
      exact absurd hmove Act.not_move_stop
    · exact hmove.fault_of_waits hwait
  · rcases h.2 with hstop | hwait
    · rw [hstop] at hmove
      exact absurd hmove Act.not_move_stop
    · exact hmove.fault_of_waits hwait

/-- What the left program keeps by itself holds all along a session. -/
theorem left_keeps [DecidableEq α] {allow : Answer α → Prop}
    {L : Q → List α → List α → Bool → Prop} (hP : Act.Keeps allow P L)
    (hs : L s.left s.down.taken s.up.written s.up.ended) (h : Run (Step P P') s es s')
    (hallow : ∀ answer, .left answer ∈ es → allow answer) :
    L s'.left s'.down.taken s'.up.written s'.up.ended := by
  induction h with
  | nil => exact hs
  | cons hstep _ ih =>
    refine ih ?_ (fun answer ht => hallow answer (List.mem_cons_of_mem _ ht))
    rcases move_of_step hstep with ⟨answer, rfl, -, hmove⟩ | ⟨answer, -, hleft, hmove⟩
    · exact hP.move hs (hallow _ (List.mem_cons_self ..)) hmove
    · obtain ⟨htaken, hwritten, hended⟩ := hmove.frame
      rw [hleft, htaken, hwritten, hended]
      exact hs

/-- What the left program has learnt of the pipe that it reads from stays true if the right
program writes nothing behind the end of its stream. -/
theorem left_learns [DecidableEq α] {allow allow' : Answer α → Prop}
    {K : Q → Pipe α → List α → Prop} {L : R → List α → List α → Bool → Prop}
    (hP : Act.Learns allow P K) (hP' : Act.Keeps allow' P' L)
    (hquiet : ∀ r taken written data next, L r taken written true → P' r ≠ .send data next)
    (hs : K s.left s.down s.up.written) (hL : L s.right s.up.taken s.down.written s.down.ended)
    (h : Run (Step P P') s es s') (hallow : ∀ answer, .left answer ∈ es → allow answer)
    (hallow' : ∀ answer, .right answer ∈ es → allow' answer) :
    K s'.left s'.down s'.up.written := by
  induction h with
  | nil => exact hs
  | cons hstep _ ih =>
    have hrest := fun answer ha => hallow answer (List.mem_cons_of_mem _ ha)
    have hrest' := fun answer ha => hallow' answer (List.mem_cons_of_mem _ ha)
    rcases move_of_step hstep with ⟨answer, rfl, hright, hmove⟩ | ⟨answer, rfl, hleft, hmove⟩
    · refine ih (hP.move hs (hallow _ (List.mem_cons_self ..)) hmove) ?_ hrest hrest'
      obtain ⟨htaken, hwritten, hended⟩ := hmove.frame
      rw [hright, htaken, hwritten, hended]
      exact hL
    · refine ih ?_ (hP'.move hL (hallow' _ (List.mem_cons_self ..)) hmove) hrest hrest'
      rw [hleft, hmove.frame.2.1]
      refine hP.frame _ _ _ _ hmove.frame.1 (fun hdrained => ?_) hs
      rw [hdrained.1] at hL
      exact hmove.drained hdrained fun data next => hquiet _ _ _ data next hL

/-! The same for the right program: the session is looked at from the other end. -/

def swap (s : Session α Q R) : Session α R Q := ⟨s.right, s.left, s.down, s.up⟩

lemma step_swap [DecidableEq α] (h : Step P P' s t s') : Step P' P s.swap t.swap s'.swap := by
  cases t with
  | left answer =>
    obtain ⟨out, hexec, rfl⟩ := Option.map_eq_some_iff.mp h
    exact Option.map_eq_some_iff.mpr ⟨out, hexec, rfl⟩
  | right answer =>
    obtain ⟨out, hexec, rfl⟩ := Option.map_eq_some_iff.mp h
    exact Option.map_eq_some_iff.mpr ⟨out, hexec, rfl⟩

lemma run_swap [DecidableEq α] (h : Run (Step P P') s es s') :
    Run (Step P' P) s.swap (es.map Turn.swap) s'.swap := by
  induction h with
  | nil => exact .nil _
  | cons hstep _ ih => exact .cons (step_swap hstep) ih

lemma left_mem_map_swap {answer : Answer α} (h : .left answer ∈ es.map Turn.swap) :
    .right answer ∈ es := by
  obtain ⟨t, ht, heq⟩ := List.mem_map.mp h
  cases t <;> cases heq
  exact ht

lemma right_mem_map_swap {answer : Answer α} (h : .right answer ∈ es.map Turn.swap) :
    .left answer ∈ es := by
  obtain ⟨t, ht, heq⟩ := List.mem_map.mp h
  cases t <;> cases heq
  exact ht

/-- What the right program keeps by itself holds all along a session. -/
theorem right_keeps [DecidableEq α] {allow : Answer α → Prop}
    {L : R → List α → List α → Bool → Prop} (hP' : Act.Keeps allow P' L)
    (hs : L s.right s.up.taken s.down.written s.down.ended) (h : Run (Step P P') s es s')
    (hallow : ∀ answer, .right answer ∈ es → allow answer) :
    L s'.right s'.up.taken s'.down.written s'.down.ended :=
  left_keeps hP' (s := s.swap) hs (run_swap h) fun answer ha => hallow answer (left_mem_map_swap ha)

/-- What the right program has learnt of the pipe that it reads from. -/
theorem right_learns [DecidableEq α] {allow allow' : Answer α → Prop}
    {K : R → Pipe α → List α → Prop} {L : Q → List α → List α → Bool → Prop}
    (hP' : Act.Learns allow' P' K) (hP : Act.Keeps allow P L)
    (hquiet : ∀ q taken written data next, L q taken written true → P q ≠ .send data next)
    (hs : K s.right s.up s.down.written) (hL : L s.left s.down.taken s.up.written s.up.ended)
    (h : Run (Step P P') s es s') (hallow : ∀ answer, .left answer ∈ es → allow answer)
    (hallow' : ∀ answer, .right answer ∈ es → allow' answer) :
    K s'.right s'.up s'.down.written :=
  left_learns (s := s.swap) hP' hP hquiet hs hL (run_swap h)
    (fun answer ha => hallow' answer (left_mem_map_swap ha))
    (fun answer ha => hallow answer (right_mem_map_swap ha))

/-- What the programs still do, and what is on its way; an element counts as `w` on the way to
the right, and as `w'` on the way to the left. -/
def cost (w w' : ℕ) (b : Q → ℕ) (b' : R → ℕ) (s : Session α Q R) : ℕ :=
  b s.left + b' s.right + w * s.up.inFlight + w' * s.down.inFlight

lemma cost_start (w w' : ℕ) (b : Q → ℕ) (b' : R → ℕ) (q : Q) (r : R) :
    (start q r : Session α Q R).cost w w' b b' = b q + b' r := by
  simp [cost, start, Pipe.inFlight]

lemma cost_step [DecidableEq α] {w w' : ℕ} {b : Q → ℕ} {b' : R → ℕ} (hb : Budget w' w P b)
    (hb' : Budget w w' P' b') (h : Step P P' s t s') : s'.cost w w' b b' < s.cost w w' b b' := by
  rcases move_of_step h with ⟨answer, -, hright, hmove⟩ | ⟨answer, -, hleft, hmove⟩
  · have hspend := hb.spend hmove
    rw [cost, cost, hright]
    omega
  · have hspend := hb'.spend hmove
    rw [cost, cost, hleft]
    omega

/-- **Termination**: a run of programs with budgets has an end. -/
theorem run_length_le [DecidableEq α] {w w' : ℕ} {b : Q → ℕ} {b' : R → ℕ}
    (hb : Budget w' w P b) (hb' : Budget w w' P' b') (h : Run (Step P P') s es s') :
    es.length + s'.cost w w' b b' ≤ s.cost w w' b b' := by
  induction h with
  | nil => simp
  | cons hstep _ ih =>
    have hless := cost_step hb hb' hstep
    rw [List.length_cons]
    omega

/-- Whatever happens, the session comes to an end, and it can always go on without a failure
until both programs have ended. -/
def Completes [DecidableEq α] (P : Q → Act α Q) (P' : R → Act α R) (s : Session α Q R) : Prop :=
  ∃ n, ∀ es s', Run (Step P P') s es s' → es.length ≤ n ∧
    (Finished P P' s' ∨ ∃ t s'', ¬ t.answer.Fault ∧ Step P P' s' t s'')

/-- The rule for `Completes`: the programs have budgets, and where the session is stuck both
have ended. -/
theorem Completes.of_budget [DecidableEq α] {w w' : ℕ} {b : Q → ℕ} {b' : R → ℕ}
    (hb : Budget w' w P b) (hb' : Budget w w' P' b')
    (hstuck : ∀ es s', Run (Step P P') s es s' → Stuck P P' s' → Finished P P' s') :
    Completes P P' s := by
  refine ⟨s.cost w w' b b', fun es s' hrun => ⟨?_, ?_⟩⟩
  · exact (Nat.le_add_right _ _).trans (run_length_le hb hb' hrun)
  · by_cases h : Stuck P P' s'
    · exact .inl (hstuck es s' hrun h)
    · exact .inr (progress h)

/-- A session that completes can be finished without a failure. -/
theorem Completes.exists_run [DecidableEq α] (h : Completes P P' s) :
    ∃ es s', Run (Step P P') s es s' ∧ (∀ t ∈ es, ¬ t.answer.Fault) ∧ Finished P P' s' := by
  obtain ⟨n, hn⟩ := h
  -- the longest run without a failure ends where both have ended
  suffices H : ∀ k es s', es.length + k = n + 1 → Run (Step P P') s es s' →
      (∀ t ∈ es, ¬ t.answer.Fault) →
      ∃ es s', Run (Step P P') s es s' ∧ (∀ t ∈ es, ¬ t.answer.Fault) ∧ Finished P P' s' by
    exact H (n + 1) [] s (by simp) (.nil s) (by simp)
  intro k
  induction k with
  | zero =>
    intro es s' hlen hrun
    have hle := (hn es s' hrun).1
    omega
  | succ k ih =>
    intro es s' hlen hrun hfault
    rcases (hn es s' hrun).2 with hfin | ⟨t, s'', ht, hstep⟩
    · exact ⟨es, s', hrun, hfault, hfin⟩
    · refine ih (es ++ [t]) s'' ?_ (hrun.append (.single hstep)) ?_
      · rw [List.length_append, List.length_singleton]
        omega
      · intro t' ht'
        rcases List.mem_append.mp ht' with ht' | ht'
        · exact hfault t' ht'
        · rw [List.mem_singleton.mp ht']
          exact ht

end Session

end CsLab
