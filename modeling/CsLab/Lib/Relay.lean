/-
Relays.

A relay reads a stream and passes on what it has read, chunk by chunk.  A `pass` may get
rid of a part of the chunk only, and then the relay forgets the rest.  A relay is `Intact`
if it has forgotten nothing, and `Lossy` once it has: from then on more has been read than
has been or will be passed on, and no later step makes up for it.  In either case it is
`Ordered`.
-/
import Mathlib.Data.List.Basic
import Mathlib.Data.List.Infix
import Mathlib.Tactic.Common

namespace CsLab

/-- What a relay has read, is about to pass on, and has passed on. -/
@[ext]
structure Relay (α : Type*) where
  received : List α
  pending : List α
  sent : List α

namespace Relay

variable {α : Type*} {r : Relay α}

/-- One step of a relay. -/
inductive Move (α : Type*) where
  | read (data : List α)
  | pass (taken : List α)

/-- A relay reads when it has nothing to pass on, and what it passes on is a prefix of
what it has to. -/
def Allowed (r : Relay α) : Move α → Prop
  | .read _ => r.pending = []
  | .pass taken => taken <+: r.pending

def step (r : Relay α) : Move α → Relay α
  | .read data => ⟨r.received ++ data, data, r.sent⟩
  | .pass taken => ⟨r.received, [], r.sent ++ taken⟩

/-- Nothing is forgotten in the step. -/
def Full (r : Relay α) : Move α → Prop
  | .read _ => True
  | .pass taken => taken = r.pending

/-- Nothing has been forgotten. -/
def Intact (r : Relay α) : Prop := r.received = r.sent ++ r.pending

/-- Something has been forgotten. -/
def Lossy (r : Relay α) : Prop := r.sent.length + r.pending.length < r.received.length

lemma Intact.not_lossy (h : r.Intact) : ¬ r.Lossy := by
  rw [Lossy, h, List.length_append]
  exact Nat.lt_irrefl _

lemma Intact.sent_prefix (h : r.Intact) : r.sent <+: r.received := by
  rw [h]
  exact List.prefix_append _ _

lemma Intact.step {m : Move α} (h : r.Intact) (hm : r.Allowed m) (hfull : r.Full m) :
    (r.step m).Intact := by
  cases m with
  | read data =>
    have hnil : r.pending = [] := hm
    simp only [Intact, Relay.step, List.append_cancel_right_eq]
    rw [h, hnil, List.append_nil]
  | pass taken =>
    have hall : taken = r.pending := hfull
    simp only [Intact, Relay.step, List.append_nil]
    rw [h, hall]

/-- A `pass` that is not full makes an intact relay lossy. -/
lemma Intact.step_lossy {m : Move α} (h : r.Intact) (hm : r.Allowed m) (hshort : ¬ r.Full m) :
    (r.step m).Lossy := by
  cases m with
  | read data => exact absurd trivial hshort
  | pass taken =>
    have hpre : taken <+: r.pending := hm
    -- a prefix that is not the whole is shorter
    have hne : taken.length ≠ r.pending.length := fun hlen => hshort (hpre.eq_of_length hlen)
    have hle := hpre.length_le
    have hlen := congrArg List.length h
    simp only [Lossy, Relay.step, List.length_append, List.length_nil] at hlen ⊢
    omega

lemma Lossy.step {m : Move α} (h : r.Lossy) (hm : r.Allowed m) : (r.step m).Lossy := by
  unfold Lossy at h
  cases m with
  | read data =>
    simp only [Lossy, Relay.step, List.length_append]
    omega
  | pass taken =>
    have hle := List.IsPrefix.length_le hm
    simp only [Lossy, Relay.step, List.length_append, List.length_nil]
    omega

/-- What is passed on is some of what was read, in the order in which it was read. -/
def Ordered (r : Relay α) : Prop := (r.sent ++ r.pending).Sublist r.received

lemma Ordered.step {m : Move α} (h : r.Ordered) (hm : r.Allowed m) : (r.step m).Ordered := by
  unfold Ordered at h
  cases m with
  | read data =>
    have hnil : r.pending = [] := hm
    rw [hnil, List.append_nil] at h
    exact h.append (List.Sublist.refl data)
  | pass taken =>
    have hpre : taken <+: r.pending := hm
    simp only [Ordered, Relay.step, List.append_nil]
    exact ((List.Sublist.refl r.sent).append hpre.sublist).trans h

end Relay

end CsLab
