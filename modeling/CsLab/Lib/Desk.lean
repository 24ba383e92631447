/-
A server with a line of clients.

Clients connect one after the other, and the server accepts them in this order.  Each of them has
a `Session` with the server, in which it may act as soon as it is connected, and the server once
it has accepted it.  When the server may accept the next client, and where it stands with it
then, is up to the server (`Rules.admits`): it may be busy with those that it has accepted, or
have somebody else talk to them.

Seen by itself each session is one of the two programs alone (`seen_alone`), with exactly the
events that were its own.  So what is known of a session holds for all of them, and the whole
comes to an end if each session does (`length_le`, `progress`).
-/
import Mathlib.Algebra.BigOperators.Group.Finset.Piecewise
import Mathlib.Algebra.Order.BigOperators.Group.Finset
import CsLab.Lib.Log
import CsLab.Lib.Session

namespace CsLab

/-- The sessions in the order in which their clients have connected. -/
structure Desk (α C Q R : Type*) where
  line : List (C × Session α Q R)
  /-- How many of them the server has accepted. -/
  accepted : ℕ

namespace Desk

open Session

/-- What a client of a kind does, and what the server does with each. -/
structure Rules (α C Q R : Type*) where
  client : C → Q → Act α Q
  server : R → Act α R
  first : C → Q
  /-- where the server stands with a client that it has not accepted -/
  idle : R
  /-- The server may accept a client and start at the point with it, if these are the sessions
  that it has accepted. -/
  admits : List (C × Session α Q R) → R → Bool

inductive Event (α C R : Type*) where
  | connect (c : C)
  | accept (r : R)
  /-- a step in the session with a number -/
  | talk (i : ℕ) (t : Turn α)
deriving DecidableEq

/-- A call fails. -/
def Event.Fault {α C R : Type*} : Event α C R → Prop
  | .talk _ t => t.answer.Fault
  | _ => False

/-- The step in the session `i`, if the event is one. -/
def Event.turnOf {α C R : Type*} (i : ℕ) : Event α C R → Option (Turn α)
  | .talk j t => if j = i then some t else none
  | _ => none

/-- The steps in the session `i`. -/
def turnsOf {α C R : Type*} (i : ℕ) (es : List (Event α C R)) : List (Turn α) :=
  es.filterMap (Event.turnOf i)

/-- It is the client's step. -/
def OfClient {α : Type*} : Turn α → Bool
  | .left _ => true
  | .right _ => false

variable {α C Q R : Type*} [DecidableEq α] {rules : Rules α C Q R} {d d' : Desk α C Q R}
  {e : Event α C R} {es : List (Event α C R)} {i : ℕ} {c : C} {s : Session α Q R}

/-- Nobody has connected yet. -/
def empty : Desk α C Q R := ⟨[], 0⟩

def exec (rules : Rules α C Q R) (d : Desk α C Q R) : Event α C R → Option (Desk α C Q R)
  | .connect c =>
    some { d with line := d.line ++ [(c, Session.start (rules.first c) rules.idle)] }
  | .accept r =>
    match d.line[d.accepted]? with
    | some (c, s) =>
      if rules.admits (d.line.take d.accepted) r then
        some ⟨d.line.set d.accepted (c, { s with right := r }), d.accepted + 1⟩
      else none
    | none => none
  | .talk i t =>
    match d.line[i]? with
    | some (c, s) =>
      if OfClient t ∨ i < d.accepted then
        (Session.exec (rules.client c) rules.server s t).map fun s' =>
          { d with line := d.line.set i (c, s') }
      else none
    | none => none

abbrev Step (rules : Rules α C Q R) : Desk α C Q R → Event α C R → Desk α C Q R → Prop :=
  stepOf (exec rules)

/-- What a step can be. -/
inductive Move (rules : Rules α C Q R) (d : Desk α C Q R) :
    Event α C R → Desk α C Q R → Prop
  | connect (c : C) : Move rules d (.connect c)
      { d with line := d.line ++ [(c, Session.start (rules.first c) rules.idle)] }
  | accept (c : C) (s : Session α Q R) (r : R) (hs : d.line[d.accepted]? = some (c, s))
      (hadmits : rules.admits (d.line.take d.accepted) r) : Move rules d (.accept r)
        ⟨d.line.set d.accepted (c, { s with right := r }), d.accepted + 1⟩
  | talk (i : ℕ) (t : Turn α) (c : C) (s s' : Session α Q R) (hs : d.line[i]? = some (c, s))
      (hturn : OfClient t ∨ i < d.accepted)
      (hstep : Session.Step (rules.client c) rules.server s t s') :
      Move rules d (.talk i t) { d with line := d.line.set i (c, s') }

lemma Move.of_step (h : Step rules d e d') : Move rules d e d' := by
  unfold Step stepOf exec at h
  split at h
  · next c =>
    cases h
    exact .connect c
  · next r =>
    split at h
    · next c s hs =>
      split at h
      · next hadmits =>
        cases h
        exact .accept c s r hs hadmits
      · cases h
    · cases h
  · next i t =>
    split at h
    · next c s hs =>
      split at h
      · next hturn =>
        obtain ⟨s', hexec, rfl⟩ := Option.map_eq_some_iff.mp h
        exact .talk i t c s s' hs hturn hexec
      · cases h
    · cases h

omit [DecidableEq α] in
lemma turnsOf_append (i : ℕ) (es : List (Event α C R)) (e : Event α C R) :
    turnsOf i (es ++ [e]) = turnsOf i es ++ (e.turnOf i).toList :=
  Log.filterMap_append_singleton ..

omit [DecidableEq α] in
lemma mem_turnsOf {t : Turn α} : t ∈ turnsOf i es ↔ .talk i t ∈ es := by
  simp only [turnsOf, List.mem_filterMap]
  constructor
  · rintro ⟨e, he, hturn⟩
    cases e with
    | connect c => cases hturn
    | accept r => cases hturn
    | talk j t' =>
      simp only [Event.turnOf, Option.ite_none_right_eq_some] at hturn
      obtain ⟨rfl, ht⟩ := hturn
      cases ht
      exact he
  · intro h
    exact ⟨_, h, by simp [Event.turnOf]⟩

/-- A run of a session is a run of the desk. -/
lemma run_talk {s' : Session α Q R} {ts : List (Turn α)} (hs : d.line[i]? = some (c, s))
    (hturn : ∀ t ∈ ts, OfClient t ∨ i < d.accepted)
    (hrun : Run (Session.Step (rules.client c) rules.server) s ts s') :
    Run (Step rules) d (ts.map (.talk i)) { d with line := d.line.set i (c, s') } := by
  induction hrun generalizing d with
  | nil s =>
    obtain ⟨hlt, heq⟩ := List.getElem?_eq_some_iff.mp hs
    rw [← heq, List.set_getElem_self]
    exact .nil d
  | @cons s₁ s₂ s₃ t ts hstep _ ih =>
    rw [List.forall_mem_cons] at hturn
    have hlt := (List.getElem?_eq_some_iff.mp hs).1
    have hrest := ih (d := { d with line := d.line.set i (c, s₂) })
      (List.getElem?_set_self hlt) hturn.2
    rw [List.set_set] at hrest
    refine .cons ?_ hrest
    have hexec : Session.exec (rules.client c) rules.server s₁ t = some s₂ := hstep
    simp [Step, stepOf, exec, hs, hturn.1, hexec]

/-! ### What is in a line after it was changed -/

lemma cases_of_set {β : Type*} {l : List β} {a b : β} {j : ℕ} (hlt : i < l.length)
    (h : (l.set i a)[j]? = some b) : (j = i ∧ b = a) ∨ (j ≠ i ∧ l[j]? = some b) := by
  by_cases heq : j = i
  · subst heq
    rw [List.getElem?_set_self hlt] at h
    cases h
    exact .inl ⟨rfl, rfl⟩
  · rw [List.getElem?_set_ne (Ne.symm heq)] at h
    exact .inr ⟨heq, h⟩

lemma cases_of_concat {β : Type*} {l : List β} {a b : β} {j : ℕ}
    (h : (l ++ [a])[j]? = some b) : l[j]? = some b ∨ (j = l.length ∧ b = a) := by
  rcases Nat.lt_trichotomy j l.length with hlt | rfl | hgt
  · rw [List.getElem?_append_left hlt] at h
    exact .inl h
  · rw [List.getElem?_concat_length] at h
    cases h
    exact .inr ⟨rfl, rfl⟩
  · rw [List.getElem?_eq_none (by simp; omega)] at h
    cases h

/-! ### One session -/

/-- While the server is not concerned, it does not matter where it stands. -/
lemma run_of_client {P : Q → Act α Q} {P' : R → Act α R} {s s' : Session α Q R}
    {ts : List (Turn α)} (h : Run (Session.Step P P') s ts s')
    (hclient : ∀ t ∈ ts, OfClient t) (r : R) :
    Run (Session.Step P P') { s with right := r } ts { s' with right := r } := by
  induction h with
  | nil => exact .nil _
  | @cons s₁ s₂ _ t _ hstep _ ih =>
    rw [List.forall_mem_cons] at hclient
    refine .cons ?_ (ih hclient.2)
    cases t with
    | left answer =>
      obtain ⟨out, hexec, rfl⟩ := Option.map_eq_some_iff.mp hstep
      exact Option.map_eq_some_iff.mpr ⟨out, hexec, rfl⟩
    | right answer => exact absurd hclient.1 Bool.false_ne_true

/-- While the server is not concerned, it writes nothing. -/
lemma written_of_client {P : Q → Act α Q} {P' : R → Act α R} {s s' : Session α Q R}
    {ts : List (Turn α)} (h : Run (Session.Step P P') s ts s')
    (hclient : ∀ t ∈ ts, OfClient t) : s'.down.written = s.down.written := by
  induction h with
  | nil => rfl
  | cons hstep _ ih =>
    rw [List.forall_mem_cons] at hclient
    rw [ih hclient.2]
    rcases move_of_step hstep with ⟨answer, -, -, hmove⟩ | ⟨answer, rfl, -, -⟩
    · exact hmove.frame.2.1
    · exact absurd hclient.1 Bool.false_ne_true

/-- The session with the number `i`, seen by itself. -/
structure Alone (rules : Rules α C Q R) (es : List (Event α C R)) (d : Desk α C Q R) (i : ℕ)
    (c : C) (s : Session α Q R) : Prop where
  /-- The server has accepted it, and started with it somewhere. -/
  inside : i < d.accepted → ∃ l r, .accept r ∈ es ∧ rules.admits l r = true ∧
    Run (Session.Step (rules.client c) rules.server) (.start (rules.first c) r) (turnsOf i es) s
  /-- The server has not accepted it. -/
  outside : d.accepted ≤ i → (∀ t ∈ turnsOf i es, OfClient t) ∧
    Run (Session.Step (rules.client c) rules.server) (.start (rules.first c) rules.idle)
      (turnsOf i es) s

/-- What holds after the events `es`. -/
structure Held (rules : Rules α C Q R) (es : List (Event α C R)) (d : Desk α C Q R) : Prop where
  alone : ∀ i c s, d.line[i]? = some (c, s) → Alone rules es d i c s
  quiet : ∀ i, d.line.length ≤ i → turnsOf i es = []
  accepted_le : d.accepted ≤ d.line.length
  count : es.length = d.line.length + d.accepted +
    ∑ i ∈ Finset.range d.line.length, (turnsOf i es).length

lemma held_empty : Held rules [] empty := by
  refine ⟨fun i c s hs => ?_, fun i _ => rfl, le_rfl, rfl⟩
  simp [empty] at hs

omit [DecidableEq α] in
/-- The events that are not in a session leave the sessions alone. -/
lemma turnsOf_quiet (h : ∀ j t, e ≠ .talk j t) (i : ℕ) : turnsOf i (es ++ [e]) = turnsOf i es := by
  have hnone : e.turnOf i = none := by
    cases e with
    | connect c => rfl
    | accept r => rfl
    | talk j t => exact absurd rfl (h j t)
  rw [turnsOf_append, hnone, Option.toList_none, List.append_nil]

lemma Held.connect (h : Held rules es d) (c : C) : Held rules (es ++ [.connect c])
    { d with line := d.line ++ [(c, Session.start (rules.first c) rules.idle)] } := by
  have hturns : ∀ i, turnsOf i (es ++ [.connect c]) = turnsOf i es :=
    turnsOf_quiet (by simp)
  refine ⟨fun i c' s hs => ?_, fun i hi => ?_, ?_, ?_⟩
  · rcases cases_of_concat hs with hs | ⟨rfl, ⟨⟩⟩
    · obtain ⟨hin, hout⟩ := h.alone i c' s hs
      refine ⟨fun hlt' => ?_, by rwa [hturns]⟩
      obtain ⟨l, r, hr, hl, hrun⟩ := hin hlt'
      rw [hturns]
      exact ⟨l, r, List.mem_append_left _ hr, hl, hrun⟩
    · have hle := h.accepted_le
      refine ⟨fun hlt => absurd hlt (not_lt.mpr hle), fun _ => ?_⟩
      rw [hturns, h.quiet _ le_rfl]
      exact ⟨by simp, .nil _⟩
  · rw [List.length_append, List.length_singleton] at hi
    rw [hturns]
    exact h.quiet i (by omega)
  · have hle := h.accepted_le
    simp
    omega
  · have hcount := h.count
    simp only [hturns, List.length_append, List.length_singleton, Finset.sum_range_succ,
      h.quiet _ le_rfl, List.length_nil]
    omega

lemma Held.accept (h : Held rules es d) {r : R} (hs : d.line[d.accepted]? = some (c, s))
    (hadmits : rules.admits (d.line.take d.accepted) r) : Held rules (es ++ [.accept r])
    ⟨d.line.set d.accepted (c, { s with right := r }), d.accepted + 1⟩ := by
  have hturns : ∀ i, turnsOf i (es ++ [.accept r]) = turnsOf i es :=
    turnsOf_quiet (by simp)
  have hlt : d.accepted < d.line.length := (List.getElem?_eq_some_iff.mp hs).1
  refine ⟨fun i c' s' hs' => ?_, fun i hi => ?_, ?_, ?_⟩
  · rcases cases_of_set hlt hs' with ⟨rfl, ⟨⟩⟩ | ⟨hi, hs'⟩
    · obtain ⟨hclient, hrun⟩ := (h.alone _ c s hs).outside le_rfl
      refine ⟨fun _ => ⟨_, r, by simp, hadmits, ?_⟩, fun hle => absurd hle (by simp)⟩
      rw [hturns]
      exact run_of_client hrun hclient r
    · obtain ⟨hin, hout⟩ := h.alone i c' s' hs'
      refine ⟨fun hlt' => ?_, fun hle => ?_⟩
      · obtain ⟨l, r', hr', hl, hrun⟩ := hin (by simp only at hlt'; omega)
        rw [hturns]
        exact ⟨l, r', List.mem_append_left _ hr', hl, hrun⟩
      · rw [hturns]
        exact hout (by simp only at hle; omega)
  · rw [hturns]
    exact h.quiet i (by simpa using hi)
  · rw [List.length_set]
    exact hlt
  · have hcount := h.count
    simp only [hturns, List.length_append, List.length_singleton, List.length_set]
    omega

lemma Held.talk (h : Held rules es d) {t : Turn α} {s' : Session α Q R}
    (hs : d.line[i]? = some (c, s)) (hturn : OfClient t ∨ i < d.accepted)
    (hstep : Session.Step (rules.client c) rules.server s t s') :
    Held rules (es ++ [.talk i t]) { d with line := d.line.set i (c, s') } := by
  have hlt : i < d.line.length := (List.getElem?_eq_some_iff.mp hs).1
  have hself : turnsOf i (es ++ [.talk i t]) = turnsOf i es ++ [t] := by
    simp [turnsOf_append, Event.turnOf]
  have hother : ∀ j, j ≠ i → turnsOf j (es ++ [.talk i t]) = turnsOf j es := fun j hj => by
    simp [turnsOf_append, Event.turnOf, hj.symm]
  refine ⟨fun j c' s₁ hs₁ => ?_, fun j hj => ?_, by simpa using h.accepted_le, ?_⟩
  · rcases cases_of_set hlt hs₁ with ⟨rfl, ⟨⟩⟩ | ⟨hj, hs₁⟩
    · obtain ⟨hin, hout⟩ := h.alone _ c s hs
      refine ⟨fun hlt' => ?_, fun hle => ?_⟩
      · obtain ⟨l, r, hr, hadmits, hrun⟩ := hin hlt'
        rw [hself]
        exact ⟨l, r, List.mem_append_left _ hr, hadmits, hrun.append (.single hstep)⟩
      · obtain ⟨hclient, hrun⟩ := hout hle
        have hof : OfClient t := hturn.resolve_right (not_lt.mpr hle)
        rw [hself]
        refine ⟨fun t' ht' => ?_, hrun.append (.single hstep)⟩
        rcases List.mem_append.mp ht' with ht' | ht'
        · exact hclient t' ht'
        · rw [List.mem_singleton.mp ht']
          exact hof
    · obtain ⟨hin, hout⟩ := h.alone j c' s₁ hs₁
      refine ⟨fun hlt' => ?_, by rwa [hother j hj]⟩
      obtain ⟨l, r, hr, hl, hrun⟩ := hin hlt'
      rw [hother j hj]
      exact ⟨l, r, List.mem_append_left _ hr, hl, hrun⟩
  · rw [List.length_set] at hj
    rw [hother j (by omega)]
    exact h.quiet j hj
  · have hcount := h.count
    have hlen : ∀ j, (turnsOf j (es ++ [.talk i t])).length =
        (turnsOf j es).length + if j = i then 1 else 0 := by
      intro j
      by_cases hj : j = i
      · subst hj
        rw [hself, if_pos rfl, List.length_append, List.length_singleton]
      · rw [hother j hj, if_neg hj, Nat.add_zero]
    simp only [hlen, List.length_append, List.length_singleton, List.length_set,
      Finset.sum_add_distrib, Finset.sum_ite_eq', Finset.mem_range, hlt, if_true]
    omega

lemma held_of_run (hrun : Run (Step rules) empty es d) : Held rules es d := by
  refine Run.history held_empty ?_ hrun
  intro es d₁ e d₂ _ h hstep
  cases Move.of_step hstep with
  | connect c => exact h.connect c
  | accept c s r hs hadmits => exact h.accept hs hadmits
  | talk i t c s s' hs hturn hturns => exact h.talk hs hturn hturns

/-- **Each session is one alone**: whatever happens with the others, a session that the server
has accepted is a run of the two programs, with exactly the events that were its own. -/
theorem seen_alone (hrun : Run (Step rules) empty es d) (hs : d.line[i]? = some (c, s))
    (hi : i < d.accepted) : ∃ l r, .accept r ∈ es ∧ rules.admits l r = true ∧
      Run (Session.Step (rules.client c) rules.server) (.start (rules.first c) r)
        (turnsOf i es) s :=
  ((held_of_run hrun).alone i c s hs).inside hi

/-! ### All sessions -/

/-- **Termination**: a run has at most `n + 2` events for each client, if the programs have
budgets that allow `n` steps for one session. -/
theorem length_le {w w' : ℕ} {b : C → Q → ℕ} {b' : R → ℕ} {n : ℕ}
    (hrun : Run (Step rules) empty es d)
    (hb : ∀ c, Budget w' w (rules.client c) (b c)) (hb' : Budget w w' rules.server b')
    (hidle : ∀ c, b c (rules.first c) + b' rules.idle ≤ n)
    (hadmits : ∀ c l r, rules.admits l r → b c (rules.first c) + b' r ≤ n) :
    es.length ≤ d.line.length * (n + 2) := by
  have h := held_of_run hrun
  have hone : ∀ i ∈ Finset.range d.line.length, (turnsOf i es).length ≤ n := by
    intro i hi
    obtain ⟨⟨c, s⟩, hs⟩ : ∃ e, d.line[i]? = some e :=
      ⟨_, List.getElem?_eq_getElem (Finset.mem_range.mp hi)⟩
    obtain ⟨hin, hout⟩ := h.alone i c s hs
    rcases Nat.lt_or_ge i d.accepted with hlt | hge
    · obtain ⟨l, r, -, hl, hrun⟩ := hin hlt
      have hle := run_length_le (hb c) hb' hrun
      have hcost := hadmits c l r hl
      rw [cost_start] at hle
      omega
    · have hle := run_length_le (hb c) hb' (hout hge).2
      have hcost := hidle c
      rw [cost_start] at hle
      omega
  have hsum := Finset.sum_le_sum hone
  have hcount := h.count
  have hle := h.accepted_le
  rw [Finset.sum_const_nat (fun _ _ => rfl), Finset.card_range] at hsum
  rw [Nat.mul_add]
  omega

/-- The server has accepted all clients, and all sessions are finished. -/
def Finished (rules : Rules α C Q R) (d : Desk α C Q R) : Prop :=
  d.accepted = d.line.length ∧
    ∀ c s, (c, s) ∈ d.line → Session.Finished (rules.client c) rules.server s

/-- **Progress**: if a session of two programs is only stuck where both have ended, and the
server may accept the next client when it is done with those before, then the whole can go on
without a failure until all is finished. -/
theorem progress (hrun : Run (Step rules) empty es d)
    (hstuck : ∀ c l r ts s, rules.admits l r →
      Run (Session.Step (rules.client c) rules.server) (.start (rules.first c) r) ts s →
      Stuck (rules.client c) rules.server s → Session.Finished (rules.client c) rules.server s)
    (hnext : ∀ l : List (C × Session α Q R), (∀ c s, (c, s) ∈ l →
      Session.Finished (rules.client c) rules.server s) → ∃ r, rules.admits l r) :
    Finished rules d ∨ ∃ e d', ¬ e.Fault ∧ (∀ c, e ≠ .connect c) ∧ Step rules d e d' := by
  have h := held_of_run hrun
  by_cases hgo : ∃ i c s, d.line[i]? = some (c, s) ∧ i < d.accepted ∧
      ¬ Stuck (rules.client c) rules.server s
  · obtain ⟨i, c, s, hs, hi, hstuck⟩ := hgo
    obtain ⟨t, s', hfault, hstep⟩ := Session.progress hstuck
    refine .inr ⟨.talk i t, { d with line := d.line.set i (c, s') }, hfault, by simp, ?_⟩
    have hexec : Session.exec (rules.client c) rules.server s t = some s' := hstep
    simp [Step, stepOf, exec, hs, hi, hexec]
  -- all accepted sessions are finished
  · have hfin : ∀ c s, (c, s) ∈ d.line.take d.accepted →
        Session.Finished (rules.client c) rules.server s := by
      intro c s hmem
      obtain ⟨i, hi⟩ := List.mem_iff_getElem?.mp hmem
      have hlt : i < d.accepted := by
        by_contra hge
        rw [List.getElem?_take_eq_none (by omega)] at hi
        cases hi
      rw [List.getElem?_take_of_lt hlt] at hi
      obtain ⟨l, r, -, hadmits, hrun⟩ := (h.alone i c s hi).inside hlt
      refine hstuck c l r _ s hadmits hrun ?_
      by_contra hno
      exact hgo ⟨i, c, s, hi, hlt, hno⟩
    rcases Nat.lt_or_ge d.accepted d.line.length with hlt | hge
    · obtain ⟨r, hadmits⟩ := hnext _ hfin
      refine .inr ⟨.accept r, ⟨d.line.set d.accepted (d.line[d.accepted].1,
        { d.line[d.accepted].2 with right := r }), d.accepted + 1⟩, id, by simp, ?_⟩
      simp [Step, stepOf, exec, List.getElem?_eq_getElem hlt, hadmits]
    · have hall : d.accepted = d.line.length := le_antisymm h.accepted_le hge
      rw [hall, List.take_length] at hfin
      exact .inl ⟨hall, hfin⟩

/-- A server that accepts the next client only when it is done with those before. -/
theorem one_at_a_time (hrun : Run (Step rules) empty es d)
    (hadmits : ∀ l r, rules.admits l r → ∀ e ∈ l, rules.server e.2.right = .stop)
    (hs : d.line[i]? = some (c, s)) (hi : i + 1 < d.accepted) : rules.server s.right = .stop := by
  refine hrun.history (I := fun _ d => ∀ i c s, d.line[i]? = some (c, s) → i + 1 < d.accepted →
    rules.server s.right = .stop) (by simp [empty]) ?_ i c s hs hi
  intro es d₁ e d₂ hrun₁ h hstep i c s hs hi
  cases Move.of_step hstep with
  | connect =>
    -- a new client is behind those that were accepted
    have hle := (held_of_run hrun₁).accepted_le
    have hi' : i + 1 < d₁.accepted := hi
    rw [List.getElem?_append_left (by omega)] at hs
    exact h i c s hs hi
  | accept c' s' r hs' hadm =>
    have hi' : i < d₁.accepted := Nat.lt_of_succ_lt_succ hi
    rw [List.getElem?_set_ne (Nat.ne_of_gt hi')] at hs
    have hmem : (c, s) ∈ d₁.line.take d₁.accepted := by
      rw [← List.getElem?_take_of_lt hi'] at hs
      exact List.mem_of_getElem? hs
    exact hadmits _ r hadm (c, s) hmem
  | talk j t c' s' s'' hs' hturn hsess =>
    rcases cases_of_set (List.getElem?_eq_some_iff.mp hs').1 hs with ⟨rfl, ⟨⟩⟩ | ⟨-, hs⟩
    · have hstop := h i _ s' hs' hi
      rcases move_of_step hsess with ⟨-, -, hright, -⟩ | ⟨answer, -, -, hmove⟩
      · rwa [hright]
      · rw [hstop] at hmove
        exact absurd hmove Act.not_move_stop
    · exact h i c s hs hi

end Desk

end CsLab
