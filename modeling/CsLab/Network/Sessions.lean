/-
Every client with every server.

What a client or a server keeps by itself (`clientKeeps`, `serverKeeps`) does not depend on
whom it talks to, and so the clients and the servers are looked at one by one.  The results
are about all pairs: which of them come to an end (`session_completes_iff`), what has happened
when a server answers (`reply_justified`), and what has arrived when a session has ended
without a failure (`exchange_complete`).
-/
import CsLab.Network.ClientPrograms

namespace CsLab

namespace Network

open Session

/-! ### Budgets -/

/-- `w` is what the server spends on a byte. -/
@[simp]
def clientBudget (w : ℕ) : ClientPoint → ℕ
  | .sending [] => 3
  | .sending (message :: rest) => w * message.length + 1 + clientBudget w (.sending rest)
  | .receiving => 2
  | .closing => 1
  | .stopped => 0

@[simp]
def serverBudget : ServerPoint → ℕ
  | .receiving => 31
  | .responding => 30
  | .closing => 1
  | .stopped => 0

lemma three_le_clientBudget (w : ℕ) (messages : List (List UInt8)) :
    3 ≤ clientBudget w (.sending messages) := by
  induction messages with
  | nil => simp
  | cons message rest ih =>
    rw [clientBudget]
    omega

lemma client_budget (w : ℕ) (c : Client) : Budget 1 w c.program (clientBudget w) := by
  intro q
  cases q with
  | sending messages =>
    cases messages with
    | nil => cases c <;> simp
    | cons message rest =>
      have hrest := three_le_clientBudget w rest
      cases c
      case basic =>
        intro k
        cases k <;> simp <;> omega
      all_goals
        intro k
        simp
        omega
  | receiving =>
    cases c
    case closing => simp
    all_goals
      refine ⟨fun data hdata => ?_, by simp, by simp⟩
      have hpos := List.length_pos_iff.mpr hdata
      simp
      omega
  | closing => cases c <;> simp
  | stopped => cases c <;> simp

lemma server_budget (v : Server) : Budget 1 1 v.program serverBudget := by
  intro q
  cases q with
  | receiving =>
    cases v
    all_goals
      refine ⟨fun data hdata => ?_, by simp, by simp⟩
      have hpos := List.length_pos_iff.mpr hdata
      simp
      omega
  | responding => cases v <;> simp [length_ascii]
  | closing => cases v <;> simp
  | stopped => cases v <;> simp

/-! ### What a client keeps -/

/-- The answers of a run in which no call fails. -/
def NoFault : Answer UInt8 → Prop := fun answer => ¬ answer.Fault

def Anything : Answer UInt8 → Prop := fun _ => True

/-- What a client keeps, whatever is answered. -/
@[simp]
def clientKept (c : Client) : ClientPoint → List UInt8 → List UInt8 → Bool → Prop
  | .sending messages, _, _, ended => (∀ message ∈ messages, message ≠ []) ∧ ended = false
  -- only the basic client reads without having ended its stream, and then it has sent
  | .receiving, _, written, ended =>
    if c = .basic then ended = false ∧ written ≠ [] else ended = true
  | .closing, _, _, _ => True
  | .stopped, _, _, ended => ended = true

/-- What a client keeps if none of its calls fails: it has sent something before it goes on. -/
@[simp]
def clientSent : ClientPoint → List UInt8 → List UInt8 → Bool → Prop
  | .sending messages, _, written, ended =>
    (∀ message ∈ messages, message ≠ []) ∧ (messages = [] → written ≠ []) ∧ ended = false
  | _, _, written, _ => written ≠ []

lemma append_take_ne_nil {written message : List UInt8} {k : ℕ} (h : message ≠ [])
    (hpos : k = 0 → message = []) : written ++ message.take k ≠ [] := by
  refine List.append_ne_nil_of_right_ne_nil _ fun htake => ?_
  rcases List.take_eq_nil_iff.mp htake with hk | hnil
  · exact h (hpos hk)
  · exact h hnil

lemma client_keeps (c : Client) : Act.Keeps Anything c.program (clientKept c) := by
  intro q taken written ended h
  cases q with
  | sending messages =>
    cases messages with
    | nil => cases c <;> simp
    | cons message rest =>
      obtain ⟨hne, hended⟩ := h
      obtain ⟨hmessage, hrest⟩ := List.forall_mem_cons.mp hne
      cases c
      case basic =>
        exact ⟨fun k _ _ hpos => ⟨hended, append_take_ne_nil hmessage hpos⟩, fun _ => trivial⟩
      all_goals exact ⟨fun _ _ _ _ => ⟨hrest, hended⟩, fun _ => ⟨hrest, hended⟩⟩
  | receiving => cases c <;> simp_all
  | closing => cases c <;> simp
  | stopped => cases c <;> simp

lemma client_sends (c : Client) : Act.Keeps NoFault c.program clientSent := by
  intro q taken written ended h
  cases q with
  | sending messages =>
    cases messages with
    | nil => cases c <;> simpa using h.2.1
    | cons message rest =>
      obtain ⟨hne, -, hended⟩ := h
      obtain ⟨hmessage, hrest⟩ := List.forall_mem_cons.mp hne
      cases c
      case basic =>
        exact ⟨fun k _ _ hpos => append_take_ne_nil hmessage hpos, fun hok => (hok trivial).elim⟩
      all_goals
        exact ⟨fun k _ _ hpos => ⟨hrest, fun _ => append_take_ne_nil hmessage hpos, hended⟩,
          fun hok => (hok trivial).elim⟩
  | receiving => cases c <;> simp_all
  | closing => cases c <;> simp_all
  | stopped => cases c <;> simp

/-- A client sends nothing behind the end of its stream. -/
lemma client_quiet (c : Client) (q : ClientPoint) (taken written data : List UInt8)
    (next : Option ℕ → ClientPoint) (h : clientKept c q taken written true) :
    c.program q ≠ .send data next := by
  cases q with
  | sending messages => exact absurd h.2 Bool.noConfusion
  | receiving => cases c <;> simp
  | closing => cases c <;> simp
  | stopped => cases c <;> simp

/-! ### What a server keeps -/

namespace Server

/-- What the server answers. -/
@[simp]
def response : Server → List UInt8
  | .basic => ascii "hello client"
  | .blocking => ascii "server recieved message"
  | .thread => ascii "server received message"
  | .closeStates => []
  | .halfClose => ascii "I received everything"

/-- The server reads once. -/
@[simp]
def Once : Server → Prop
  | .basic => True
  | .blocking => True
  | .thread => True
  | .closeStates => False
  | .halfClose => False

/-- The server answers only if it has got data. -/
@[simp]
def NeedsData : Server → Prop
  | .basic => False
  | .blocking => True
  | .thread => True
  | .closeStates => False
  | .halfClose => False

end Server

/-- What a server keeps, whatever is answered. -/
@[simp]
def serverKept (v : Server) : ServerPoint → List UInt8 → List UInt8 → Bool → Prop
  | .receiving, taken, written, ended => (v.Once → taken = []) ∧ written = [] ∧ ended = false
  | .responding, taken, written, ended =>
    v ≠ .closeStates ∧ (v.NeedsData → taken ≠ []) ∧ written = [] ∧ ended = false
  | .closing, taken, written, _ =>
    written <+: v.response ∧ (v.NeedsData → written ≠ [] → taken ≠ [])
  | .stopped, taken, written, ended =>
    written <+: v.response ∧ (v.NeedsData → written ≠ [] → taken ≠ []) ∧ ended = true

/-- What a server keeps if none of its calls fails: it has answered unless it needs data and
has got none. -/
@[simp]
def serverSent (v : Server) : ServerPoint → List UInt8 → List UInt8 → Bool → Prop
  | .receiving, taken, _, _ => v.Once → taken = []
  | .responding, _, _, _ => True
  | _, taken, written, _ => v ≠ .closeStates → (v.NeedsData → taken ≠ []) → written ≠ []

lemma server_keeps (v : Server) : Act.Keeps Anything v.program (serverKept v) := by
  intro r taken written ended h
  cases r with
  | receiving => cases v <;> simp_all
  | responding =>
    have hprefix : ∀ k, written ++ v.response.take k <+: v.response := fun k => by
      rw [h.2.2.1, List.nil_append]
      exact List.take_prefix k _
    cases v <;> simp_all
  | closing => cases v <;> simp_all
  | stopped => cases v <;> simp_all

lemma server_sends (v : Server) : Act.Keeps NoFault v.program (serverSent v) := by
  intro r taken written ended h
  cases r with
  | receiving => cases v <;> simp_all [NoFault, Answer.Fault]
  | responding =>
    have hresponse : v ≠ .closeStates → v.response ≠ [] := by cases v <;> decide
    cases v
    case closeStates => exact fun hv => absurd rfl hv
    all_goals
      exact ⟨fun k _ _ hpos hv _ => append_take_ne_nil (hresponse hv) hpos,
        fun hok => (hok trivial).elim⟩
  | closing => cases v <;> simp_all
  | stopped => cases v <;> simp_all

/-- A server sends nothing behind the end of its stream. -/
lemma server_quiet (v : Server) (r : ServerPoint) (taken written data : List UInt8)
    (next : Option ℕ → ServerPoint) (h : serverKept v r taken written true) :
    v.program r ≠ .send data next := by
  cases r with
  | receiving => exact absurd h.2.2 Bool.noConfusion
  | responding => exact absurd h.2.2.2 Bool.noConfusion
  | closing => cases v <;> simp
  | stopped => cases v <;> simp

/-! ### What they learn -/

/-- What a server has got when it answers. -/
@[simp]
def Server.Justified : Server → Pipe UInt8 → Prop
  | .basic, up => up.taken ≠ [] ∨ up.Drained
  | .blocking, up => up.taken ≠ []
  | .thread, up => up.taken ≠ []
  | .closeStates, _ => False
  | .halfClose, up => up.Drained

/-- An answer is justified. -/
@[simp]
def serverJustified (v : Server) : ServerPoint → Pipe UInt8 → List UInt8 → Prop
  | .receiving, _, written => written = []
  | .responding, up, _ => v.Justified up
  | _, up, written => written ≠ [] → v.Justified up

lemma Server.Justified.frame {v : Server} {up up' : Pipe UInt8} (h : v.Justified up)
    (htaken : up'.taken = up.taken) (hdrained : up.Drained → up'.Drained) : v.Justified up' := by
  cases v <;> simp_all
  exact h.imp_right hdrained

lemma server_justified (v : Server) :
    Act.Learns (fun answer => v = .halfClose → answer ≠ .recvFailed) v.program
      (serverJustified v) where
  act r up written h := by
    cases r with
    | receiving => cases v <;> simp_all +contextual [Pipe.Offers]
    | responding => cases v <;> simp_all
    | closing => cases v <;> simp_all
    | stopped => cases v <;> simp_all
  frame r up up' written htaken hdrained h := by
    cases r with
    | receiving => exact h
    | responding => exact Server.Justified.frame h htaken hdrained
    | closing => exact fun hne => (h hne).frame htaken hdrained
    | stopped => exact fun hne => (h hne).frame htaken hdrained

/-- What a server has got when it is done with reading, if no call failed. -/
def Server.Heard (v : Server) (up : Pipe UInt8) : Prop := up.Drained ∨ v.Once ∧ up.taken ≠ []

lemma server_heard (v : Server) :
    Act.Learns NoFault v.program fun r up _ => r ≠ .receiving → v.Heard up where
  act r up written h := by
    cases r with
    | receiving =>
      cases v <;> simp_all +contextual [Pipe.Offers, Server.Heard, NoFault, Answer.Fault]
    | responding => cases v <;> simp_all
    | closing => cases v <;> simp_all
    | stopped => cases v <;> simp_all
  frame r up up' written htaken hdrained h hreply :=
    (h hreply).imp hdrained fun hone => ⟨hone.1, htaken ▸ hone.2⟩

/-- The client reads. -/
@[simp]
def Client.Reads : Client → Prop
  | .closing => False
  | _ => True

/-- What a client has got when it is done with reading, if no call failed. -/
def Client.Heard (c : Client) (down : Pipe UInt8) : Prop :=
  c.Reads → down.Drained ∨ c ≠ .stream ∧ down.taken ≠ []

@[simp]
def clientHeard (c : Client) : ClientPoint → Pipe UInt8 → List UInt8 → Prop
  | .sending messages, _, _ => c = .basic → messages ≠ []
  | .receiving, _, _ => True
  | _, down, _ => c.Heard down

lemma client_heard (c : Client) : Act.Learns NoFault c.program (clientHeard c) where
  act q down written h := by
    cases q with
    | sending messages =>
      cases messages <;> cases c <;> simp_all [Client.Heard, NoFault, Answer.Fault]
    | receiving =>
      cases c <;> simp_all +contextual [Pipe.Offers, Client.Heard, NoFault, Answer.Fault]
    | closing => cases c <;> simp_all
    | stopped => cases c <;> simp_all
  frame q down down' written htaken hdrained h := by
    have hheard : c.Heard down → c.Heard down' := fun h hreads =>
      (h hreads).imp hdrained fun hone => ⟨hone.1, htaken ▸ hone.2⟩
    cases q with
    | sending messages => exact h
    | receiving => trivial
    | closing => exact hheard h
    | stopped => exact hheard h

/-! ### All pairs -/

section Pairs

variable {c : Client} {v : Server} {es : List (Turn UInt8)}
  {s : Session UInt8 ClientPoint ServerPoint}

lemma client_kept_connected (c : Client) : clientKept c (.sending c.messages) [] [] false :=
  ⟨by cases c <;> decide, rfl⟩

lemma client_kept (h : Run (Talk c v) (connected c) es s) :
    clientKept c s.left s.down.taken s.up.written s.up.ended :=
  left_keeps (client_keeps c) (client_kept_connected c) h fun _ _ => trivial

lemma server_kept_connected (v : Server) : serverKept v .receiving [] [] false :=
  ⟨fun _ => rfl, rfl, rfl⟩

lemma server_kept (h : Run (Talk c v) (connected c) es s) :
    serverKept v s.right s.up.taken s.down.written s.down.ended :=
  right_keeps (server_keeps v) (server_kept_connected v) h fun _ _ => trivial

/-- The pairs that wait for each other: the client waits for an answer, and the server for the
end of the stream. -/
def Deadlocks (c : Client) (v : Server) : Prop := c = .basic ∧ ¬ v.Once

lemma client_waits {q : ClientPoint} {down : Pipe UInt8} (h : (c.program q).Waits down) :
    q = .receiving ∧ down.taken = down.written ∧ down.ended = false := by
  cases q with
  | sending messages => cases messages <;> cases c <;> exact h.elim
  | receiving =>
    cases c
    case closing => exact h.elim
    all_goals exact ⟨rfl, (Act.waits_recv (by decide)).mp h⟩
  | closing => cases c <;> exact h.elim
  | stopped => cases c <;> exact h.elim

lemma server_waits (h : (v.program s.right).Waits s.up) :
    s.right = .receiving ∧ s.up.taken = s.up.written ∧ s.up.ended = false := by
  cases hright : s.right with
  | receiving =>
    rw [hright] at h
    cases v <;> exact ⟨rfl, (Act.waits_recv (by decide)).mp h⟩
  | responding =>
    rw [hright] at h
    cases v <;> exact h.elim
  | closing =>
    rw [hright] at h
    cases v <;> exact h.elim
  | stopped =>
    rw [hright] at h
    cases v <;> exact h.elim

lemma client_stopped {q : ClientPoint} (h : c.program q = .stop) : q = .stopped := by
  cases q with
  | sending messages => cases messages <;> cases c <;> cases h
  | receiving => cases c <;> cases h
  | closing => cases c <;> cases h
  | stopped => rfl

lemma server_stopped (h : v.program s.right = .stop) : s.right = .stopped := by
  cases hright : s.right with
  | receiving =>
    rw [hright] at h
    cases v <;> cases h
  | responding =>
    rw [hright] at h
    cases v <;> cases h
  | closing =>
    rw [hright] at h
    cases v <;> cases h
  | stopped => rfl

/-- A pair that does not deadlock is only stuck where both have ended. -/
lemma finished_of_kept (hpair : ¬ Deadlocks c v)
    (hclient : clientKept c s.left s.down.taken s.up.written s.up.ended)
    (hserver : serverKept v s.right s.up.taken s.down.written s.down.ended)
    (hstuck : Stuck c.program v.program s) : Finished c.program v.program s := by
  rcases hstuck with ⟨hleft | hleft, hright | hright⟩
  · exact ⟨hleft, hright⟩
  · -- the client has closed its socket, and the server reads the end of the stream
    rw [client_stopped hleft] at hclient
    exact absurd ((server_waits hright).2.2.symm.trans hclient) Bool.noConfusion
  · rw [server_stopped hright] at hserver
    exact absurd ((client_waits hleft).2.2.symm.trans hserver.2.2) Bool.noConfusion
  · obtain ⟨hreceiving, hall, hopen⟩ := server_waits hright
    rw [(client_waits hleft).1] at hclient
    rw [hreceiving] at hserver
    by_cases hbasic : c = .basic
    · -- what the basic client has sent is there to be read
      have honce : v.Once := by
        by_contra hno
        exact hpair ⟨hbasic, hno⟩
      simp only [clientKept, if_pos hbasic] at hclient
      exact absurd (hall.symm.trans (hserver.1 honce)) hclient.2
    · simp only [clientKept, if_neg hbasic] at hclient
      exact absurd (hopen.symm.trans hclient) Bool.noConfusion

lemma client_heard_connected (c : Client) : clientHeard c (.sending c.messages) .fresh [] := by
  rintro rfl
  decide

lemma client_heard_of_run (h : Run (Talk c v) (connected c) es s)
    (hfault : ∀ t ∈ es, ¬ t.answer.Fault) : clientHeard c s.left s.down s.up.written :=
  left_learns (client_heard c) (server_keeps v) (server_quiet v)
    (client_heard_connected c) (server_kept_connected v) h
    (fun _ ht => hfault _ ht) (fun _ _ => trivial)

lemma server_heard_of_run (h : Run (Talk c v) (connected c) es s)
    (hfault : ∀ t ∈ es, ¬ t.answer.Fault) : s.right ≠ .receiving → v.Heard s.up :=
  right_learns (server_heard v) (client_keeps c) (client_quiet c) (fun hne => absurd rfl hne)
    (client_kept_connected c) h (fun _ _ => trivial) (fun _ ht => hfault _ ht)

/-- A session of a pair that deadlocks stays where both wait, unless a call fails. -/
lemma locked (hv : ¬ v.Once) (h : Run (Talk .basic v) (connected .basic) es s)
    (hfault : ∀ t ∈ es, ¬ t.answer.Fault) :
    s.left ≠ .closing ∧ s.left ≠ .stopped ∧ s.right = .receiving := by
  refine Run.history (I := fun es s => (∀ t ∈ es, ¬ t.answer.Fault) →
    s.left ≠ .closing ∧ s.left ≠ .stopped ∧ s.right = .receiving) (fun _ => by decide) ?_ h hfault
  intro es s₁ t s₂ hrun ih hstep hfault
  obtain ⟨hclosing, hstopped, hright⟩ := ih fun t ht => hfault t (List.mem_append_left _ ht)
  have hrun₂ := hrun.append (.single hstep)
  rcases move_of_step hstep with ⟨-, -, hsame, -⟩ | ⟨-, -, hsame, -⟩
  · -- the server has not answered, and so the client goes on to read
    rw [hsame]
    have hserver := server_kept hrun₂
    rw [hsame, hright] at hserver
    have hnothing : s₂.down.taken = [] := by
      have htaken := s₂.down.taken_le
      rw [hserver.2.1] at htaken
      exact List.prefix_nil.mp htaken
    have hheard : ¬ Client.basic.Heard s₂.down := fun hheard => by
      rcases hheard trivial with hdrained | ⟨-, htaken⟩
      · exact Bool.noConfusion (hserver.2.2.symm.trans hdrained.1)
      · exact htaken hnothing
    have hclient := client_heard_of_run hrun₂ hfault
    refine ⟨fun hleft => ?_, fun hleft => ?_, hright⟩
    all_goals
      rw [hleft] at hclient
      exact hheard hclient
  · -- the client has not ended its stream, and so the server goes on to read
    rw [hsame]
    refine ⟨hclosing, hstopped, ?_⟩
    by_contra hne
    have hopen : s₂.up.ended = false := by
      have hclient := client_kept hrun₂
      rw [hsame] at hclient
      cases hleft : s₁.left with
      | sending messages =>
        rw [hleft] at hclient
        exact hclient.2
      | receiving =>
        rw [hleft] at hclient
        exact hclient.1
      | closing => exact absurd hleft hclosing
      | stopped => exact absurd hleft hstopped
    rcases server_heard_of_run hrun₂ hfault hne with hdrained | ⟨honce, -⟩
    · exact Bool.noConfusion (hopen.symm.trans hdrained.1)
    · exact hv honce

/-- **Which programs fit together**: whatever happens, a client and a server come to an end,
except the basic client with a server that reads to the end of the stream.  As long as no call
fails, neither of those two gets past its read. -/
theorem session_completes_iff (c : Client) (v : Server) :
    (Completes c.program v.program (connected c) ↔ ¬ Deadlocks c v) ∧
      (Deadlocks c v → ∀ es s, Run (Talk c v) (connected c) es s →
        (∀ t ∈ es, ¬ t.answer.Fault) →
        s.left ≠ .closing ∧ s.left ≠ .stopped ∧ s.right = .receiving) := by
  refine ⟨⟨?_, ?_⟩, ?_⟩
  · rintro hcompletes ⟨rfl, hv⟩
    obtain ⟨es, s, hrun, hfault, hfin⟩ := hcompletes.exists_run
    exact (locked hv hrun hfault).2.1 (client_stopped hfin.1)
  · exact fun hpair =>
      .of_budget (client_budget 1 c) (server_budget v) fun _ _ hrun =>
        finished_of_kept hpair (client_kept hrun) (server_kept hrun)
  · rintro ⟨rfl, hv⟩ es s hrun hfault
    exact locked hv hrun hfault

/-- **An answer means something**: what a client reads is a part of the response, and what a
server has sent it has sent after its read: that of `01-tcp-basic` after data or the end of the
stream, those of `02-blocking-server` and `03-thread-per-connection` after data, and that of
`03-half-close` after everything that the client has sent and the end of the stream, or after its
`read` has failed. -/
theorem reply_justified (h : Run (Talk c v) (connected c) es s) :
    s.down.taken <+: v.response ∧
      (s.down.written ≠ [] → v.Justified s.up ∨ v = .halfClose ∧ .right .recvFailed ∈ es) := by
  have hserver := server_kept h
  have hwritten : s.down.written <+: v.response := by
    cases hright : s.right with
    | receiving =>
      rw [hright] at hserver
      rw [hserver.2.1]
      exact List.nil_prefix
    | responding =>
      rw [hright] at hserver
      rw [hserver.2.2.1]
      exact List.nil_prefix
    | closing =>
      rw [hright] at hserver
      exact hserver.1
    | stopped =>
      rw [hright] at hserver
      exact hserver.1
  refine ⟨s.down.taken_le.trans hwritten, fun hne => ?_⟩
  by_cases hread : v = .halfClose ∧ .right .recvFailed ∈ es
  · exact .inr hread
  · have hjustified := right_learns (s := connected c) (server_justified v) (client_keeps c)
      (client_quiet c) rfl (client_kept_connected c) h (fun _ _ => trivial)
      fun answer ht hhalf hfailed => hread ⟨hhalf, hfailed ▸ ht⟩
    cases hright : s.right with
    | receiving =>
      rw [hright] at hserver
      exact absurd hserver.2.1 hne
    | responding =>
      rw [hright] at hserver
      exact absurd hserver.2.2.1 hne
    | closing =>
      rw [hright] at hjustified
      exact .inl (hjustified hne)
    | stopped =>
      rw [hright] at hjustified
      exact .inl (hjustified hne)

/-- A client and a server of `01-tcp-basic`. -/
def dialogue : List (Turn UInt8) :=
  [.left (.sent 12), .right (.got (ascii "hello server")), .right (.sent 12),
    .left (.got (ascii "hello client")), .right .done, .left .done]

lemma run_dialogue : ∃ s, Run (Talk .basic .basic) (connected .basic) dialogue s ∧
    (s.left, s.right, s.down.taken, s.down.written) =
      (.stopped, .stopped, ascii "hello client", ascii "hello client") :=
  Run.exists_of_foldlM (by decide)

theorem reply_justified_dialogue : ∃ s, Run (Talk .basic .basic) (connected .basic) dialogue s ∧
    s.down.taken = ascii "hello client" ∧ s.down.taken <+: Server.basic.response ∧
    Server.basic.Justified s.up := by
  obtain ⟨s, hrun, hend⟩ := run_dialogue
  simp only [Prod.mk.injEq] at hend
  obtain ⟨hpre, hjust⟩ := reply_justified hrun
  refine ⟨s, hrun, hend.2.2.1, hpre, ?_⟩
  rcases hjust (by rw [hend.2.2.2]; decide) with hjustified | ⟨hhalf, -⟩
  · exact hjustified
  · exact absurd hhalf (by decide)

-- the server says that it has received everything after a `read` that has failed
example : ∃ s, Run (Talk .halfClose .halfClose) (connected .halfClose)
    [.left (.sent 5), .left (.sent 5), .right .recvFailed, .right (.sent 21), .left .done,
      .left (.got (ascii "I received everything"))] s ∧
    (s.up.taken, s.down.taken) = ([], ascii "I received everything") :=
  Run.exists_of_foldlM (by decide)

/-- **A session without a failure is an exchange**: when both have ended, the server has got
something of the client, and all of it unless it reads once; the server has answered, unless
it is the one that never does, and a client that reads has got something of the answer, and
all of it if it reads to the end. -/
theorem exchange_complete (h : Run (Talk c v) (connected c) es s)
    (hfault : ∀ t ∈ es, ¬ t.answer.Fault) (hfin : Finished c.program v.program s) :
    s.up.taken ≠ [] ∧ (¬ v.Once → s.up.taken = s.up.written) ∧
      (v ≠ .closeStates → s.down.written ≠ [] ∧ (c.Reads → s.down.taken ≠ [])) ∧
      (c = .stream → s.down.taken = s.down.written) := by
  have hleft := client_stopped hfin.1
  have hright := server_stopped hfin.2
  -- the client has sent something, and the server has got it
  have hsent := left_keeps (client_sends c)
    (s := connected c) ⟨by cases c <;> decide, by cases c <;> decide, rfl⟩ h fun _ ht => hfault _ ht
  rw [hleft] at hsent
  have hheard := server_heard_of_run h hfault (by rw [hright]; decide)
  have hgot : s.up.taken ≠ [] := by
    rcases hheard with hdrained | ⟨-, htaken⟩
    · rw [hdrained.2]
      exact hsent
    · exact htaken
  refine ⟨hgot, fun honce => ?_, fun hv => ?_, ?_⟩
  · rcases hheard with hdrained | ⟨hone, -⟩
    · exact hdrained.2
    · exact absurd hone honce
  · have hanswered := right_keeps (server_sends v) (s := connected c) (fun _ => rfl) h
      fun _ ht => hfault _ ht
    rw [hright] at hanswered
    have hwritten := hanswered hv fun _ => hgot
    refine ⟨hwritten, fun hreads => ?_⟩
    have hclient := client_heard_of_run h hfault
    rw [hleft] at hclient
    rcases hclient hreads with hdrained | ⟨-, htaken⟩
    · rw [hdrained.2]
      exact hwritten
    · exact htaken
  · rintro rfl
    have hclient := client_heard_of_run h hfault
    rw [hleft] at hclient
    rcases hclient trivial with hdrained | ⟨hstream, -⟩
    · exact hdrained.2
    · exact absurd rfl hstream

theorem exchange_complete_dialogue :
    ∃ s, Run (Talk .basic .basic) (connected .basic) dialogue s ∧
      s.up.taken ≠ [] ∧ s.down.written ≠ [] ∧ s.down.taken ≠ [] := by
  obtain ⟨s, hrun, hend⟩ := run_dialogue
  simp only [Prod.mk.injEq] at hend
  have h := exchange_complete hrun (by decide)
    ⟨by rw [hend.1]; rfl, by rw [hend.2.1]; rfl⟩
  obtain ⟨hanswered, hread⟩ := h.2.2.1 (by decide)
  exact ⟨s, hrun, h.1, hanswered, hread trivial⟩

end Pairs

end Network

end CsLab
