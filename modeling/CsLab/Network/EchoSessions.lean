/-
The clients with a server that sends back what it reads.

`echoServer` is what the epoll server does with one of its clients; `EpollDesk` shows that it
does nothing else.  What a client reads is a part of what it has sent (`echo_kept`), and the
two come to an end, except that the basic client waits for ever if nothing is sent back
(`echo_stuck`).
-/
import CsLab.Network.Sessions

namespace CsLab

namespace Network

open Session

/-- Where an echo server stands with a client. -/
inductive EchoPoint where
  /-- at `recv` -/
  | receiving
  /-- at `send` of what was read -/
  | echoing (data : List UInt8)
  /-- at `close` -/
  | closing
  | stopped
deriving DecidableEq

/-- The inner loop of `06-epoll/server.c`, for one client -/
@[simp]
def echoServer : EchoPoint → Act UInt8 EchoPoint
  | .receiving => .recv (bufSize - 1) fun
    | .data data => .echoing data
    | .eof => .closing
    | .failed => .closing
  | .echoing data => .send data fun _ => .receiving
  | .closing => .close .stopped
  | .stopped => .stop

/-- A step of the client or of the server. -/
abbrev Echo (c : Client) : Session UInt8 ClientPoint EchoPoint → Turn UInt8 →
    Session UInt8 ClientPoint EchoPoint → Prop :=
  Session.Step c.program echoServer

/-- The client is connected; the server reads from it, or closes at once. -/
abbrev met (c : Client) (r : EchoPoint) : Session UInt8 ClientPoint EchoPoint :=
  .start (.sending c.messages) r

@[simp]
def echoBudget : EchoPoint → ℕ
  | .receiving => 2
  | .echoing data => data.length + 3
  | .closing => 1
  | .stopped => 0

/-- A byte that is read pays for reading it, sending it and having it read. -/
lemma echo_budget : Budget 3 1 echoServer echoBudget := by
  intro r
  cases r with
  | receiving =>
    refine ⟨fun data hdata => ?_, by simp, by simp⟩
    have hpos := List.length_pos_iff.mpr hdata
    simp
    omega
  | echoing data => simp; omega
  | closing => simp
  | stopped => simp

/-! ### What the server keeps -/

/-- What the server keeps, whatever is answered. -/
@[simp]
def echoKept : EchoPoint → List UInt8 → List UInt8 → Bool → Prop
  | .echoing data, taken, written, ended =>
    data ≠ [] ∧ (written ++ data).Sublist taken ∧ ended = false
  | .stopped, taken, written, ended => written.Sublist taken ∧ ended = true
  | _, taken, written, ended => written.Sublist taken ∧ ended = false

/-- What the server keeps if none of its sends fails: it has sent something if it has read
something. -/
@[simp]
def echoSent : EchoPoint → List UInt8 → List UInt8 → Bool → Prop
  | .echoing data, _, _, _ => data ≠ []
  | _, taken, written, _ => taken ≠ [] → written ≠ []

/-- What the server has read when it closes, if none of its reads fails. -/
@[simp]
def echoHeard : EchoPoint → Pipe UInt8 → List UInt8 → Prop
  | .closing, up, _ => up.Drained
  | .stopped, up, _ => up.Drained
  | _, _, _ => True

lemma echo_keeps : Act.Keeps Anything echoServer echoKept := by
  intro r taken written ended h
  cases r with
  | receiving =>
    obtain ⟨hsub, hended⟩ := h
    exact ⟨fun data _ hne _ => ⟨hne, hsub.append (List.Sublist.refl data), hended⟩,
      fun _ => ⟨hsub, hended⟩, fun _ => ⟨hsub, hended⟩⟩
  | echoing data =>
    obtain ⟨-, hsub, hended⟩ := h
    have htake : ∀ k, (written ++ data.take k).Sublist (written ++ data) := fun k =>
      (List.Sublist.refl written).append (List.take_sublist k data)
    exact ⟨fun k _ _ _ => ⟨(htake k).trans hsub, hended⟩,
      fun _ => ⟨(List.sublist_append_left ..).trans hsub, hended⟩⟩
  | closing => exact ⟨h.1, rfl⟩
  | stopped => trivial

lemma echo_sends : Act.Keeps (fun answer => answer ≠ .sendFailed) echoServer echoSent := by
  intro r taken written ended h
  cases r with
  | receiving => exact ⟨fun data _ hne _ => hne, fun _ => h, fun _ => h⟩
  | echoing data =>
    exact ⟨fun k _ _ hpos _ => append_take_ne_nil h hpos, fun hok => absurd rfl hok⟩
  | closing => exact h
  | stopped => trivial

lemma echo_heard : Act.Learns (fun answer => answer ≠ .recvFailed) echoServer echoHeard where
  act r up written h := by
    cases r with
    | receiving =>
      exact ⟨fun _ _ _ => trivial, fun _ hdrained => hdrained, fun hok => absurd rfl hok⟩
    | echoing data => exact ⟨fun _ _ _ _ => trivial, fun _ => trivial⟩
    | closing => exact h
    | stopped => trivial
  frame r up up' written _ hdrained h := by
    cases r with
    | receiving => trivial
    | echoing data => trivial
    | closing => exact hdrained h
    | stopped => exact hdrained h

/-- The basic client reads once. -/
@[simp]
def basicFresh : ClientPoint → List UInt8 → List UInt8 → Bool → Prop
  | .sending _, taken, _, _ => taken = []
  | .receiving, taken, _, _ => taken = []
  | _, _, _, _ => True

lemma basic_fresh : Act.Keeps Anything Client.basic.program basicFresh := by
  intro q taken written ended h
  cases q with
  | sending messages => cases messages <;> simp_all
  | receiving => simp
  | closing => simp
  | stopped => simp

/-! ### Sessions -/

section Sessions

variable {c : Client} {r : EchoPoint} {ts : List (Turn UInt8)}
  {s : Session UInt8 ClientPoint EchoPoint}

/-- What holds in a session, if the server starts with reading, or closes at once. -/
lemma echo_kept (hr : r = .receiving ∨ r = .closing)
    (h : Run (Echo c) (met c r) ts s) :
    echoKept s.right s.up.taken s.down.written s.down.ended := by
  refine right_keeps echo_keeps ?_ h fun _ _ => trivial
  rcases hr with rfl | rfl
  · exact ⟨List.Sublist.refl [], rfl⟩
  · exact ⟨List.Sublist.refl [], rfl⟩

lemma echo_sublist (hr : r = .receiving ∨ r = .closing)
    (h : Run (Echo c) (met c r) ts s) :
    s.down.written.Sublist s.up.taken := by
  have hkept := echo_kept hr h
  cases hright : s.right with
  | receiving =>
    rw [hright] at hkept
    exact hkept.1
  | echoing data =>
    rw [hright] at hkept
    exact (List.sublist_append_left ..).trans hkept.2.1
  | closing =>
    rw [hright] at hkept
    exact hkept.1
  | stopped =>
    rw [hright] at hkept
    exact hkept.1

lemma echo_waits {up : Pipe UInt8} (h : (echoServer r).Waits up) :
    r = .receiving ∧ up.taken = up.written ∧ up.ended = false := by
  cases r with
  | receiving => exact ⟨rfl, (Act.waits_recv (by decide)).mp h⟩
  | echoing data => exact h.elim
  | closing => exact h.elim
  | stopped => exact h.elim

lemma echo_stopped (h : echoServer r = .stop) : r = .stopped := by
  cases r with
  | receiving => cases h
  | echoing data => cases h
  | closing => cases h
  | stopped => rfl

/-- **Where a session is stuck**: both have ended, or a basic client waits for the answer to a
message that the server has read and could not send back. -/
lemma echo_stuck (hr : r = .receiving ∨ r = .closing)
    (h : Run (Echo c) (met c r) ts s)
    (hstuck : Stuck c.program echoServer s) :
    Session.Finished c.program echoServer s ∨
      (c = .basic ∧ s.left = .receiving ∧ s.up.taken = s.up.written ∧ s.up.written ≠ [] ∧
        s.down.written = [] ∧ s.down.ended = false ∧ .right .sendFailed ∈ ts) := by
  have hserver := echo_kept hr h
  have hclient := left_keeps (client_keeps c) (client_kept_connected c) h fun _ _ => trivial
  rcases hstuck with ⟨hleft | hleft, hright | hright⟩
  · exact .inl ⟨hleft, hright⟩
  · -- the client has closed its socket, and the server reads the end of the stream
    rw [client_stopped hleft] at hclient
    exact absurd ((echo_waits hright).2.2.symm.trans hclient) Bool.noConfusion
  · rw [echo_stopped hright] at hserver
    exact absurd ((client_waits hleft).2.2.symm.trans hserver.2) Bool.noConfusion
  · obtain ⟨hreceiving, hall, hopen⟩ := echo_waits hright
    obtain ⟨hwaiting, hseen, hdown⟩ := client_waits hleft
    rw [hwaiting] at hclient
    by_cases hbasic : c = .basic
    · subst hbasic
      have hfresh := left_keeps (s := met .basic r) basic_fresh rfl h fun _ _ => trivial
      rw [hwaiting] at hfresh
      have hnothing : s.down.written = [] := hseen.symm.trans hfresh
      refine .inr ⟨rfl, hwaiting, hall, hclient.2, hnothing, hdown, ?_⟩
      -- if no send has failed then something was sent back
      by_contra hno
      have hsent := right_keeps echo_sends (by rcases hr with rfl | rfl <;> simp [Session.start]) h
        fun answer ht hfailed => hno (hfailed ▸ ht)
      rw [hreceiving] at hsent
      exact hsent (hall ▸ hclient.2) hnothing
    · simp only [clientKept, if_neg hbasic] at hclient
      exact absurd (hopen.symm.trans hclient) Bool.noConfusion

/-- What a client has got without a failure, also while the server still sends. -/
lemma echo_client_heard (h : Run (Echo c) (met c .receiving) ts s)
    (hfault : ∀ t ∈ ts, ¬ t.answer.Fault) : clientHeard c s.left s.down s.up.written := by
  refine left_learns (s := met c .receiving) (client_heard c) echo_keeps
    (fun r taken written data next hkept heq => ?_) (client_heard_connected c)
    ⟨List.Sublist.refl [], rfl⟩ h (fun _ ht => hfault _ ht) (fun _ _ => trivial)
  -- the server sends nothing behind the end of its stream
  cases r with
  | receiving => cases heq
  | echoing data => exact Bool.noConfusion hkept.2.2
  | closing => cases heq
  | stopped => cases heq

/-- **A session without a failure**: the server has read all that the client has sent, and has
sent something back; a client that reads has got something, and all of it if it reads to the
end. -/
lemma echo_complete (h : Run (Echo c) (met c .receiving) ts s)
    (hfault : ∀ t ∈ ts, ¬ t.answer.Fault) (hfin : Session.Finished c.program echoServer s) :
    s.up.Drained ∧ (c.Reads → s.down.taken ≠ []) ∧ (c = .stream → s.down.Drained) := by
  have hleft := client_stopped hfin.1
  have hright := echo_stopped hfin.2
  have hsent := left_keeps (client_sends c) (s := met c .receiving)
    ⟨by cases c <;> decide, by cases c <;> decide, rfl⟩ h fun _ ht => hfault _ ht
  rw [hleft] at hsent
  have hdrained := right_learns (s := met c .receiving) echo_heard
    (client_keeps c) (client_quiet c) trivial (client_kept_connected c) h (fun _ _ => trivial)
    fun _ ht hfailed => hfault _ ht (hfailed ▸ trivial)
  rw [hright] at hdrained
  have hechoed := right_keeps (s := met c .receiving) echo_sends (fun hne => absurd rfl hne) h
    fun _ ht hfailed => hfault _ ht (hfailed ▸ trivial)
  rw [hright] at hechoed
  have hwritten : s.down.written ≠ [] := hechoed (hdrained.2 ▸ hsent)
  have hheard := echo_client_heard h hfault
  rw [hleft] at hheard
  refine ⟨hdrained, ?_, ?_⟩
  · intro hreads
    rcases hheard hreads with hall | ⟨-, htaken⟩
    · rw [hall.2]
      exact hwritten
    · exact htaken
  · rintro rfl
    rcases hheard trivial with hall | ⟨hstream, -⟩
    · exact hall
    · exact absurd rfl hstream

end Sessions

end Network

end CsLab
