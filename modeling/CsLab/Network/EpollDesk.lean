/-
The epoll server is an echo server for each of its clients.

Every step of the server and its clients is made by a desk with `echoServer` behind it
(`Matches.step`): on each connection the server is `echoServer`, whatever happens on the
others.
-/
import CsLab.Lib.Desk
import CsLab.Network.EchoSessions
import CsLab.Network.EpollClients
import CsLab.Network.EpollDescriptors
import CsLab.Network.EpollStream

namespace CsLab

namespace Network

namespace EpollClients

open Session
open EpollServer (Report)

variable {s s' : State} {e : Event} {i j : ℕ} {p p' : Peer}

/-! ### What the server does to a connection -/

section Effects

variable {v v' : EpollServer.State} {r : Report} {rest : List Report} {chunk : Chunk}
  {read wrote left : List UInt8}

/-- The server reads and writes on the connection `i`, and has `left` to be sent. -/
structure Effect (v v' : EpollServer.State) (i : ℕ) (read wrote left : List UInt8) : Prop where
  accepts : v'.accepts = v.accepts
  received : ∀ j, v'.received j = v.received j ++ if i = j then read else []
  sent : ∀ j, v'.sent j = v.sent j ++ if i = j then wrote else []
  pending : ∀ j, v'.pending j = if i = j then left else []

lemma advance_accepts (v : EpollServer.State) (rest : List Report) :
    (v.advance rest).accepts = v.accepts := by
  cases rest <;> rfl

lemma advance_conn (v : EpollServer.State) (rest : List Report) :
    (v.advance rest).conn = v.conn := by
  cases rest <;> rfl

lemma Effect.advance (haccepts : v'.accepts = v.accepts) (hreceived : v'.received = v.received)
    (hsent : v'.sent = v.sent) : Effect v (v'.advance rest) i [] [] [] := by
  refine ⟨(advance_accepts ..).trans haccepts, ?_, ?_, ?_⟩
  · intro j
    rw [EpollServer.State.advance_received, hreceived, ite_self, List.append_nil]
  · intro j
    rw [EpollServer.State.advance_sent, hsent, ite_self, List.append_nil]
  · intro j
    rw [EpollServer.State.pending_advance, ite_self]

lemma effect_data (chunk : Chunk) (rest : List Report) (hconn : v.conn r.fd = some i) :
    Effect v (v.recvTurn r rest (.data chunk)) i chunk.bytes [] chunk.bytes ∧
      (v.recvTurn r rest (.data chunk)).conn = v.conn := by
  obtain ⟨received, heq⟩ := (v.call (some r) .recv r.fd).receive_eq r.fd chunk.bytes
  have hreceived := fun j =>
    (v.call (some r) .recv r.fd).received_receive (c := j) r.fd chunk.bytes
  simp only [heq] at hreceived
  simp only [EpollServer.State.recvTurn, heq]
  refine ⟨⟨rfl, ?_, ?_, ?_⟩, rfl⟩
  · intro j
    simpa [EpollServer.State.call, hconn] using hreceived j
  · intro j
    simp [EpollServer.State.call]
  · intro j
    simp [EpollServer.State.call, EpollServer.State.pending, hconn]

lemma recvTurn_of_ends (v : EpollServer.State) (r : Report) (rest : List Report) {answer : Recv}
    (hends : answer.Ends) : v.recvTurn r rest answer =
      ((v.call (some r) .recv r.fd).disconnect r).advance rest := by
  cases answer with
  | data chunk => exact hends.elim
  | eof => rfl
  | failed errno => exact if_neg (not_or.mpr hends)

lemma effect_close (v : EpollServer.State) (i : ℕ) (r : Report) (rest : List Report)
    {answer : Recv} (hends : answer.Ends) :
    Effect v (v.recvTurn r rest answer) i [] [] [] ∧
      (v.recvTurn r rest answer).conn = Function.update v.conn r.fd none := by
  rw [recvTurn_of_ends v r rest hends]
  exact ⟨.advance rfl rfl rfl, advance_conn ..⟩

lemma effect_again (v : EpollServer.State) (i : ℕ) (r : Report) (rest : List Report)
    {errno : ℕ} (herr : errno = eagain ∨ errno = ewouldblock) :
    Effect v (v.recvTurn r rest (.failed errno)) i [] [] [] ∧
      (v.recvTurn r rest (.failed errno)).conn = v.conn := by
  simp only [EpollServer.State.recvTurn, if_pos herr]
  exact ⟨.advance rfl rfl rfl, advance_conn ..⟩

lemma effect_sent (chunk : Chunk) (rest : List Report) (hconn : v.conn r.fd = some i)
    (answer : Send) :
    Effect v (v.sendTurn r chunk rest answer) i [] (answer.bytes chunk.bytes) [] ∧
      (v.sendTurn r chunk rest answer).conn = v.conn := by
  obtain ⟨sent, heq⟩ := (v.call (some r) .send r.fd).take_eq r.fd (answer.bytes chunk.bytes)
  have hsent := fun j =>
    (v.call (some r) .send r.fd).sent_take (c := j) r.fd (answer.bytes chunk.bytes)
  simp only [heq] at hsent
  simp only [EpollServer.State.sendTurn, heq]
  refine ⟨⟨rfl, ?_, ?_, ?_⟩, rfl⟩
  · intro j
    simp [EpollServer.State.call]
  · intro j
    simpa [EpollServer.State.call, hconn] using hsent j
  · intro j
    simp [EpollServer.State.pending]

/-- A new client changes nothing of the streams. -/
lemma effect_newClient (fd : ℤ) (added : Bool) (hs : v.point = .accepting r rest) :
    (v.newClient r fd added).accepts = v.accepts + 1 ∧
      (v.newClient r fd added).received = v.received ∧ (v.newClient r fd added).sent = v.sent ∧
      ∀ j, (v.newClient r fd added).pending j = [] := by
  have hpoint : (v.newClient r fd added).point = v.point := by cases added <;> rfl
  have hpending : ∀ j, (v.newClient r fd added).pending j = [] := fun j =>
    EpollServer.State.pending_of_not_sending (by simp [hpoint, hs])
  cases added <;> exact ⟨rfl, rfl, rfl, hpending⟩

end Effects

/-! ### The desk -/

/-- The desk of the epoll server: it accepts a client at any time, and closes at once if it cannot
add it. -/
def rules : Desk.Rules UInt8 Client ClientPoint EchoPoint where
  client := Client.program
  server := echoServer
  first c := .sending c.messages
  idle := .receiving
  admits _ r := r = .receiving ∨ r = .closing

/-- The client of a session. -/
def Peer.of (e : Client × Session UInt8 ClientPoint EchoPoint) : Peer :=
  ⟨e.1, e.2.left, e.2.up, e.2.down⟩

/-- Where the server stands with a connection that it has accepted. -/
def Stands (v : EpollServer.State) (i : ℕ) : EchoPoint → Prop
  | .receiving => (∃ fd, v.conn fd = some i) ∧ v.pending i = []
  | .echoing data => (∃ fd, v.conn fd = some i) ∧ v.pending i = data ∧ data ≠ []
  | .closing => False
  | .stopped => ∀ fd, v.conn fd ≠ some i

/-- The desk is what the server and the clients have come to. -/
structure Matches (s : State) (d : Desk UInt8 Client ClientPoint EchoPoint) : Prop where
  accepted : d.accepted = s.server.accepts
  line : s.line = d.line.map Peer.of
  stands : ∀ i c t, d.line[i]? = some (c, t) → i < d.accepted → Stands s.server i t.right
  read : ∀ i c t, d.line[i]? = some (c, t) → t.up.taken = s.server.received i
  wrote : ∀ i c t, d.line[i]? = some (c, t) → t.down.written = s.server.sent i
  quiet : ∀ i, d.line.length ≤ i → s.server.received i = [] ∧ s.server.sent i = []

section Desk

variable {d d' : Desk UInt8 Client ClientPoint EchoPoint} {v' : EpollServer.State} {c : Client}
  {t t' : Session UInt8 ClientPoint EchoPoint} {r : Report} {rest : List Report}
  {read wrote left : List UInt8}

lemma Stands.same {v : EpollServer.State} {q : EchoPoint} (h : Stands v i q)
    (hconn : ∀ fd, v'.conn fd = some i ↔ v.conn fd = some i)
    (hpending : v'.pending i = v.pending i) : Stands v' i q := by
  cases q with
  | receiving => exact ⟨h.1.imp fun fd => (hconn fd).mpr, hpending.trans h.2⟩
  | echoing data => exact ⟨h.1.imp fun fd => (hconn fd).mpr, hpending.trans h.2.1, h.2.2⟩
  | closing => exact h
  | stopped => exact fun fd hfd => h fd ((hconn fd).mp hfd)

/-- With nothing to be sent, the server reads from the connection or has closed it. -/
lemma Stands.quiet {v : EpollServer.State} {q : EchoPoint} (h : Stands v i q)
    (hpending : v.pending i = []) : (q = .receiving ∧ ∃ fd, v.conn fd = some i) ∨
      (q = .stopped ∧ ∀ fd, v.conn fd ≠ some i) := by
  cases q with
  | receiving => exact .inl ⟨rfl, h.1⟩
  | echoing data => exact absurd (h.2.1.symm.trans hpending) h.2.2
  | closing => exact h.elim
  | stopped => exact .inr ⟨rfl, h⟩

lemma Stands.closed {v : EpollServer.State} {q : EchoPoint} (h : Stands v i q)
    (hclosed : ∀ fd, v.conn fd ≠ some i) : q = .stopped := by
  cases q with
  | receiving =>
    obtain ⟨fd, hfd⟩ := h.1
    exact absurd hfd (hclosed fd)
  | echoing data =>
    obtain ⟨fd, hfd⟩ := h.1
    exact absurd hfd (hclosed fd)
  | closing => exact h.elim
  | stopped => rfl

lemma Matches.peer (h : Matches s d) (hp : s.line[i]? = some p) :
    ∃ c t, d.line[i]? = some (c, t) ∧ p = Peer.of (c, t) := by
  rw [h.line, List.getElem?_map, Option.map_eq_some_iff] at hp
  obtain ⟨⟨c, t⟩, ht, rfl⟩ := hp
  exact ⟨c, t, ht, rfl⟩

/-- A step in one session. -/
lemma Matches.turn (h : Matches s d) (ht : d.line[i]? = some (c, t))
    (haccepts : v'.accepts = s.server.accepts)
    (hreceived : ∀ j, v'.received j = s.server.received j ++ if i = j then read else [])
    (hsent : ∀ j, v'.sent j = s.server.sent j ++ if i = j then wrote else [])
    (hother : ∀ j q, j ≠ i → Stands s.server j q → Stands v' j q)
    (hself : i < d.accepted → Stands v' i t'.right)
    (hread : t'.up.taken = t.up.taken ++ read)
    (hwrote : t'.down.written = t.down.written ++ wrote) :
    Matches ⟨v', s.line.set i (Peer.of (c, t'))⟩ { d with line := d.line.set i (c, t') } := by
  have hlt := (List.getElem?_eq_some_iff.mp ht).1
  refine ⟨h.accepted.trans haccepts.symm, ?_, ?_, ?_, ?_, ?_⟩
  · rw [h.line, List.map_set]
  · intro j c₁ t₁ hj hacc
    rcases Desk.cases_of_set hlt hj with ⟨rfl, ⟨⟩⟩ | ⟨hne, hj⟩
    · exact hself hacc
    · exact hother j _ hne (h.stands j c₁ t₁ hj hacc)
  · intro j c₁ t₁ hj
    rcases Desk.cases_of_set hlt hj with ⟨rfl, ⟨⟩⟩ | ⟨hne, hj⟩
    · rw [hread, hreceived, if_pos rfl, h.read j c t ht]
    · rw [hreceived, if_neg (Ne.symm hne), List.append_nil]
      exact h.read j c₁ t₁ hj
  · intro j c₁ t₁ hj
    rcases Desk.cases_of_set hlt hj with ⟨rfl, ⟨⟩⟩ | ⟨hne, hj⟩
    · rw [hwrote, hsent, if_pos rfl, h.wrote j c t ht]
    · rw [hsent, if_neg (Ne.symm hne), List.append_nil]
      exact h.wrote j c₁ t₁ hj
  · intro j hj
    rw [List.length_set] at hj
    have hne : i ≠ j := by omega
    rw [hreceived, hsent, if_neg hne, if_neg hne, List.append_nil, List.append_nil]
    exact h.quiet j hj

/-- A step of the server that is for none of the sessions. -/
lemma Matches.idle (h : Matches s d) (haccepts : v'.accepts = s.server.accepts)
    (hconn : v'.conn = s.server.conn) (hreceived : v'.received = s.server.received)
    (hsent : v'.sent = s.server.sent) (hpending : ∀ j, v'.pending j = s.server.pending j) :
    Matches ⟨v', s.line⟩ d := by
  refine ⟨h.accepted.trans haccepts.symm, h.line, ?_, ?_, ?_, ?_⟩
  · intro j c t ht hlt
    exact (h.stands j c t ht hlt).same (by simp [hconn]) (hpending j)
  · rw [hreceived]
    exact h.read
  · rw [hsent]
    exact h.wrote
  · rw [hreceived, hsent]
    exact h.quiet

/-- The next client is accepted. -/
lemma Matches.accept (h : Matches s d) (ht : d.line[s.server.accepts]? = some (c, t))
    {q : EchoPoint} (haccepts : v'.accepts = s.server.accepts + 1)
    (hreceived : v'.received = s.server.received) (hsent : v'.sent = s.server.sent)
    (hother : ∀ j q, j ≠ s.server.accepts → Stands s.server j q → Stands v' j q)
    (hself : Stands v' s.server.accepts q) (down : Pipe UInt8)
    (hdown : down.written = t.down.written) :
    Matches ⟨v', s.line.set s.server.accepts { Peer.of (c, t) with down := down }⟩
      ⟨d.line.set s.server.accepts (c, { t with right := q, down := down }), d.accepted + 1⟩ := by
  have hlt := (List.getElem?_eq_some_iff.mp ht).1
  refine ⟨?_, ?_, ?_, ?_, ?_, ?_⟩
  · rw [haccepts, h.accepted]
  · rw [h.line, List.map_set]
    rfl
  · intro j c₁ t₁ hj hlt'
    rcases Desk.cases_of_set hlt hj with ⟨rfl, ⟨⟩⟩ | ⟨hne, hj⟩
    · exact hself
    · have haccepted := h.accepted
      exact hother j _ hne (h.stands j c₁ t₁ hj (by simp only at hlt'; omega))
  · intro j c₁ t₁ hj
    rw [hreceived]
    rcases Desk.cases_of_set hlt hj with ⟨rfl, ⟨⟩⟩ | ⟨-, hj⟩
    · exact h.read _ c t ht
    · exact h.read j c₁ t₁ hj
  · intro j c₁ t₁ hj
    rw [hsent]
    rcases Desk.cases_of_set hlt hj with ⟨rfl, ⟨⟩⟩ | ⟨-, hj⟩
    · exact hdown.trans (h.wrote _ c t ht)
    · exact h.wrote j c₁ t₁ hj
  · intro j hj
    rw [hreceived, hsent]
    exact h.quiet j (by simpa using hj)

/-! What the calls are in the session -/

lemma run_act {answer : Answer UInt8} (h : (Peer.of (c, t)).act answer = some p') :
    ∃ t', Run (Echo c) t [.left answer] t' ∧ p' = Peer.of (c, t') ∧ t'.right = t.right ∧
      t'.up.taken = t.up.taken ∧ t'.down.written = t.down.written := by
  obtain ⟨⟨q, inp, out⟩, hexec, rfl⟩ := Option.map_eq_some_iff.mp h
  have hframe := (Act.Move.of_exec hexec).frame
  exact ⟨⟨q, t.right, out, inp⟩, .single (Option.map_eq_some_iff.mpr ⟨_, hexec, rfl⟩), rfl, rfl,
    hframe.1, hframe.2.1⟩

lemma run_data {chunk : Chunk} (hright : t.right = .receiving)
    (h : (Peer.of (c, t)).recv (.data chunk) = some p') :
    ∃ t', Run (Echo c) t [.right (.got chunk.bytes)] t' ∧ p' = Peer.of (c, t') ∧
      t'.right = .echoing chunk.bytes ∧ t'.up.taken = t.up.taken ++ chunk.bytes ∧
      t'.down.written = t.down.written := by
  simp only [Peer.recv] at h
  obtain ⟨hoffers, ⟨⟩⟩ := Option.dite_none_right_eq_some.mp h
  have hoffers : t.up.Offers (bufSize - 1) chunk.bytes := hoffers
  refine ⟨⟨t.left, .echoing chunk.bytes, t.up.take chunk.bytes hoffers.2.2, t.down⟩, .single ?_,
    rfl, rfl, rfl, rfl⟩
  simpa [stepOf, Session.exec, Act.exec, hright] using hoffers

lemma run_close {answer : Recv} (hright : t.right = .receiving) (hends : answer.Ends)
    (h : (Peer.of (c, t)).recv answer = some p') :
    ∃ a t', Run (Echo c) t [.right a, .right .done] t' ∧ p' = Peer.of (c, t') ∧
      t'.right = .stopped ∧ t'.up.taken = t.up.taken ∧ t'.down.written = t.down.written ∧
      (a = .eof ∨ a = .recvFailed ∧ answer ≠ .eof) := by
  have hrun : ∀ a, Session.exec c.program echoServer t (.right a) =
      some { t with right := .closing } →
      Run (Echo c) t [.right a, .right .done] ⟨t.left, .stopped, t.up, t.down.finish⟩ :=
    fun a ha => .cons ha (.single rfl)
  cases answer with
  | data chunk => exact hends.elim
  | eof =>
    simp only [Peer.recv] at h
    obtain ⟨hdrained, ⟨⟩⟩ := Option.ite_none_right_eq_some.mp h
    have hdrained : t.up.Drained := hdrained
    refine ⟨.eof, _, hrun _ ?_, rfl, rfl, rfl, rfl, .inl rfl⟩
    simp [Session.exec, Act.exec, hright, hdrained]
  | failed errno =>
    simp only [Peer.recv, Peer.of, if_neg (not_or.mpr hends), Option.some.injEq] at h
    subst h
    refine ⟨.recvFailed, _, hrun _ ?_, rfl, rfl, rfl, rfl, .inr ⟨rfl, by simp⟩⟩
    simp [Session.exec, Act.exec, hright]

lemma run_send {chunk : Chunk} {answer : Send} (hright : t.right = .echoing chunk.bytes)
    {v : EpollServer.State} {fd : ℤ} (hcan : v.CanSend fd chunk answer)
    (h : (Peer.of (c, t)).send chunk answer = some p') :
    ∃ a t', Run (Echo c) t [.right a] t' ∧ p' = Peer.of (c, t') ∧ t'.right = .receiving ∧
      t'.up.taken = t.up.taken ∧
      t'.down.written = t.down.written ++ answer.bytes chunk.bytes ∧
      (a = .sendFailed → ∃ errno, answer = .failed errno) ∧
      ((∃ k, answer = .taken k) → ¬ a.Fault) := by
  cases answer with
  | taken k =>
    simp only [Peer.send, Peer.of, Option.ite_none_left_eq_some, Option.some.injEq] at h
    obtain ⟨hpos, rfl⟩ := h
    refine ⟨.sent k, ⟨t.left, .receiving, t.up, t.down.write (chunk.bytes.take k)⟩, .single ?_,
      rfl, rfl, rfl, rfl, by simp, fun _ => id⟩
    have hk : k ≤ chunk.bytes.length := hcan.1
    simp [stepOf, Session.exec, Act.exec, hright, hk, hpos]
  | failed errno =>
    simp only [Peer.send, Peer.of, Option.ite_none_left_eq_some, Option.some.injEq] at h
    obtain ⟨-, rfl⟩ := h
    refine ⟨.sendFailed, ⟨t.left, .receiving, t.up, t.down⟩, .single ?_, rfl, rfl, rfl,
      (List.append_nil _).symm, fun _ => ⟨errno, rfl⟩, by simp⟩
    simp [stepOf, Session.exec, Act.exec, hright]

/-! One step -/

/-- What the events of the desk that belong to an event say about it. -/
structure Mirrors (e : Event) (ds : List (Desk.Event UInt8 Client EchoPoint)) : Prop where
  works : e.Works → ds ≠ []
  sendFailed : ∀ i, .talk i (.right .sendFailed) ∈ ds →
    ∃ errno, e = .server (.sent (.failed errno))
  clean : ¬ e.Fault → ∀ x ∈ ds, ¬ x.Fault ∧ x ≠ .accept .closing

/-- The desk goes along with a step. -/
abbrev Followed (d : Desk UInt8 Client ClientPoint EchoPoint) (e : Event) (s' : State) : Prop :=
  ∃ ds d', Run (Desk.Step rules) d ds d' ∧ Matches s' d' ∧ Mirrors e ds

/-- The connection behind the descriptor is one that was accepted. -/
lemma lt_accepts (hinv : EpollServer.Inv s.server) {fd : ℤ} (hconn : s.server.conn fd = some i) :
    i < s.server.accepts :=
  hinv.kernel.custody.numbered.lt_of_held (hinv.kernel.custody.mem_held hconn)

lemma conn_unique (hinv : EpollServer.Inv s.server) {fd fd' : ℤ}
    (hconn : s.server.conn fd = some i) (hconn' : s.server.conn fd' = some i) : fd = fd' :=
  hinv.kernel.custody.tracks.inj fd fd' i hconn hconn'

/-- At `recv` the server is at the start of its inner loop in the session. -/
lemma Matches.right_receiving (h : Matches s d) (hinv : EpollServer.Inv s.server)
    (ht : d.line[i]? = some (c, t)) (hs : s.server.point = .receiving r rest)
    (hconn : s.server.conn r.fd = some i) : t.right = .receiving := by
  have hstands := h.stands i c t ht (h.accepted ▸ lt_accepts hinv hconn)
  have hpending : s.server.pending i = [] :=
    EpollServer.State.pending_of_not_sending (by simp [hs])
  rcases hstands.quiet hpending with ⟨hright, -⟩ | ⟨-, hclosed⟩
  · exact hright
  · exact absurd hconn (hclosed r.fd)

lemma Matches.right_echoing (h : Matches s d) (hinv : EpollServer.Inv s.server) {chunk : Chunk}
    (ht : d.line[i]? = some (c, t)) (hs : s.server.point = .sending r chunk rest)
    (hconn : s.server.conn r.fd = some i) : t.right = .echoing chunk.bytes := by
  have hstands := h.stands i c t ht (h.accepted ▸ lt_accepts hinv hconn)
  have hpending : s.server.pending i = chunk.bytes := by
    simp [EpollServer.State.pending, hs, hconn]
  cases hright : t.right with
  | receiving =>
    rw [hright] at hstands
    exact absurd (hpending.symm.trans hstands.2) chunk.ne_nil
  | echoing data =>
    rw [hright] at hstands
    rw [← hstands.2.1, hpending]
  | closing =>
    rw [hright] at hstands
    exact hstands.elim
  | stopped =>
    rw [hright] at hstands
    exact absurd hconn (hstands r.fd)

/-- A step of the server that is for none of the sessions is none of the desk. -/
lemma Matches.quiet_step (h : Matches s d) (hworks : ¬ e.Works)
    (haccepts : v'.accepts = s.server.accepts) (hconn : v'.conn = s.server.conn)
    (hreceived : v'.received = s.server.received) (hsent : v'.sent = s.server.sent)
    (hpending : ∀ j, v'.pending j = s.server.pending j) : Followed d e ⟨v', s.line⟩ :=
  ⟨[], d, .nil d, h.idle haccepts hconn hreceived hsent hpending,
    fun hw => absurd hw hworks, by simp, by simp⟩

/-- A `recv` of the server that ends the connection. -/
lemma Matches.close_step (h : Matches s d) (hinv : EpollServer.Inv s.server) {answer : Recv}
    (hends : answer.Ends) (hs : s.server.point = .receiving r rest)
    (hconn : s.server.conn r.fd = some i) (hp : s.line[i]? = some p)
    (hrecv : p.recv answer = some p') : Followed d (.server (.received answer))
      ⟨s.server.recvTurn r rest answer, s.line.set i p'⟩ := by
  obtain ⟨c, t, ht, rfl⟩ := h.peer hp
  have hlt := lt_accepts hinv hconn
  have hright := h.right_receiving hinv ht hs hconn
  have hpending : ∀ j, s.server.pending j = [] := fun j =>
    EpollServer.State.pending_of_not_sending (by simp [hs])
  obtain ⟨a, t', hrun, rfl, hright', htaken, hwritten, ha⟩ := run_close hright hends hrecv
  obtain ⟨heff, hclosed⟩ := effect_close s.server i r rest hends
  refine ⟨_, _, Desk.run_talk ht (fun _ _ => .inr (h.accepted ▸ hlt)) hrun,
    h.turn ht heff.accepts heff.received heff.sent (fun j q hj hstands => ?_) (fun _ => ?_)
      (by rw [htaken, List.append_nil]) (by rw [hwritten, List.append_nil]), by simp, ?_, ?_⟩
  · refine hstands.same (fun fd => ?_) (by rw [heff.pending, hpending, ite_self])
    rw [hclosed]
    by_cases hfd : fd = r.fd
    · subst hfd
      simp [hconn, Ne.symm hj]
    · rw [Function.update_of_ne hfd]
  · rw [hright']
    intro fd hfd
    rw [hclosed] at hfd
    by_cases heq : fd = r.fd
    · rw [heq, Function.update_self] at hfd
      cases hfd
    · rw [Function.update_of_ne heq] at hfd
      exact heq (conn_unique hinv hfd hconn)
  · rcases ha with rfl | ⟨rfl, -⟩ <;> simp
  · intro hfault
    have hanswer : a = .eof := by
      rcases ha with rfl | ⟨-, hne⟩
      · rfl
      · cases answer with
        | data chunk => exact hends.elim
        | eof => exact absurd rfl hne
        | failed errno => exact absurd hends hfault
    subst hanswer
    simp [Desk.Event.Fault, Turn.answer, Answer.Fault]

/-- A `recv` of the server that gives data. -/
lemma Matches.data_step (h : Matches s d) (hinv : EpollServer.Inv s.server) {chunk : Chunk}
    (hs : s.server.point = .receiving r rest) (hconn : s.server.conn r.fd = some i)
    (hp : s.line[i]? = some p) (hrecv : p.recv (.data chunk) = some p') :
    Followed d (.server (.received (.data chunk)))
      ⟨s.server.recvTurn r rest (.data chunk), s.line.set i p'⟩ := by
  obtain ⟨c, t, ht, rfl⟩ := h.peer hp
  have hlt := lt_accepts hinv hconn
  have hpending : ∀ j, s.server.pending j = [] := fun j =>
    EpollServer.State.pending_of_not_sending (by simp [hs])
  obtain ⟨t', hrun, rfl, hright', htaken, hwritten⟩ :=
    run_data (h.right_receiving hinv ht hs hconn) hrecv
  obtain ⟨heff, hsame⟩ := effect_data chunk rest hconn
  refine ⟨_, _, Desk.run_talk ht (fun _ _ => .inr (h.accepted ▸ hlt)) hrun,
    h.turn ht heff.accepts heff.received heff.sent (fun j q hj hstands => ?_) (fun _ => ?_)
      htaken (by rw [hwritten, List.append_nil]), by simp, by simp, ?_⟩
  · refine hstands.same (by simp [hsame]) ?_
    rw [heff.pending, if_neg (Ne.symm hj), hpending]
  · rw [hright', Stands, heff.pending, if_pos rfl, hsame]
    exact ⟨⟨r.fd, hconn⟩, rfl, chunk.ne_nil⟩
  · simp [Desk.Event.Fault, Turn.answer, Answer.Fault]

/-- A `recv` of the server. -/
lemma Matches.received_step (h : Matches s d) (hinv : EpollServer.Inv s.server) {answer : Recv}
    (hs : s.server.point = .receiving r rest) (hconn : s.server.conn r.fd = some i)
    (hp : s.line[i]? = some p) (hrecv : p.recv answer = some p') :
    Followed d (.server (.received answer)) ⟨s.server.recvTurn r rest answer, s.line.set i p'⟩ := by
  by_cases hends : answer.Ends
  · exact h.close_step hinv hends hs hconn hp hrecv
  · cases answer with
    | data chunk => exact h.data_step hinv hs hconn hp hrecv
    | eof => exact absurd trivial hends
    | failed errno =>
      have herr : errno = eagain ∨ errno = ewouldblock := by
        by_contra hno
        exact hends (not_or.mp hno)
      simp only [Peer.recv, if_pos herr] at hrecv
      obtain ⟨-, ⟨⟩⟩ := Option.ite_none_left_eq_some.mp hrecv
      obtain ⟨heq, hset⟩ := List.getElem?_eq_some_iff.mp hp
      rw [← hset, List.set_getElem_self]
      obtain ⟨heff, hsame⟩ := effect_again s.server i r rest herr
      refine h.quiet_step hends heff.accepts hsame ?_ ?_ ?_
      · ext1 j
        rw [heff.received, ite_self, List.append_nil]
      · ext1 j
        rw [heff.sent, ite_self, List.append_nil]
      · intro j
        rw [heff.pending, ite_self, EpollServer.State.pending_of_not_sending (by simp [hs])]

/-- A `send` of the server. -/
lemma Matches.sent_step (h : Matches s d) (hinv : EpollServer.Inv s.server) {chunk : Chunk}
    {answer : Send} (hs : s.server.point = .sending r chunk rest)
    (hconn : s.server.conn r.fd = some i) (hcan : s.server.CanSend r.fd chunk answer)
    (hp : s.line[i]? = some p) (hsend : p.send chunk answer = some p') :
    Followed d (.server (.sent answer))
      ⟨s.server.sendTurn r chunk rest answer, s.line.set i p'⟩ := by
  obtain ⟨c, t, ht, rfl⟩ := h.peer hp
  have hlt := lt_accepts hinv hconn
  obtain ⟨a, t', hrun, rfl, hright', htaken, hwritten, hfailed, htook⟩ :=
    run_send (h.right_echoing hinv ht hs hconn) hcan hsend
  obtain ⟨heff, hsame⟩ := effect_sent chunk rest hconn answer
  refine ⟨_, _, Desk.run_talk ht (fun _ _ => .inr (h.accepted ▸ hlt)) hrun,
    h.turn ht heff.accepts heff.received heff.sent (fun j q hj hstands => ?_) (fun _ => ?_)
      (by rw [htaken, List.append_nil]) hwritten, by simp, ?_, ?_⟩
  · refine hstands.same (by simp [hsame]) ?_
    have hother : s.server.pending j = [] := by
      simp [EpollServer.State.pending, hs, hconn, Ne.symm hj]
    rw [heff.pending, hother, ite_self]
  · rw [hright', Stands, heff.pending, ite_self, hsame]
    exact ⟨⟨r.fd, hconn⟩, rfl⟩
  · intro j hj
    simp only [List.map_cons, List.map_nil, List.mem_singleton, Desk.Event.talk.injEq,
      Turn.right.injEq] at hj
    obtain ⟨errno, rfl⟩ := hfailed hj.2.symm
    exact ⟨errno, rfl⟩
  · intro hfault
    have htaken : ∃ k, answer = .taken k := by
      cases answer with
      | taken k => exact ⟨k, rfl⟩
      | failed errno => exact absurd trivial hfault
    simpa [Desk.Event.Fault, Turn.answer] using htook htaken

/-- An `accept` of the server that gives a client. -/
lemma Matches.accepted_step (h : Matches s d) {fd : ℤ}
    (hs : s.server.point = .accepting r rest) (hfd : s.server.Unused fd)
    (hp : s.line[s.server.accepts]? = some p) :
    Followed d (.server (.accepted fd true)) ⟨s.server.newClient r fd true, s.line⟩ := by
  obtain ⟨c, t, ht, rfl⟩ := h.peer hp
  obtain ⟨haccepts, hreceived, hsent, hpending⟩ := effect_newClient fd true hs
  have hquiet : ∀ j, s.server.pending j = [] := fun j =>
    EpollServer.State.pending_of_not_sending (by simp [hs])
  have hconn : (s.server.newClient r fd true).conn =
      Function.update s.server.conn fd (some s.server.accepts) := rfl
  have hstep : Desk.Step rules d (.accept .receiving)
      ⟨d.line.set d.accepted (c, { t with right := .receiving }), d.accepted + 1⟩ := by
    simp [Desk.Step, stepOf, Desk.exec, h.accepted, ht, rules]
  have hmatch := h.accept (q := .receiving) ht haccepts hreceived hsent
    (fun j q hj hstands => hstands.same (fun fd' => ?_) (by rw [hpending, hquiet]))
    ⟨⟨fd, by rw [hconn, Function.update_self]⟩, hpending _⟩ t.down rfl
  · refine ⟨_, _, .single hstep, ?_, by simp, by simp, by simp [Desk.Event.Fault]⟩
    obtain ⟨hlt, hset⟩ := List.getElem?_eq_some_iff.mp hp
    have hsame : s.line.set s.server.accepts { Peer.of (c, t) with down := t.down } = s.line :=
      (congrArg (s.line.set s.server.accepts) hset.symm).trans (List.set_getElem_self hlt)
    rw [hsame, h.accepted] at hmatch
    rw [h.accepted]
    exact hmatch
  · rw [hconn]
    by_cases heq : fd' = fd
    · subst heq
      rw [Function.update_self, hfd.2.2.2]
      simp [Ne.symm hj]
    · rw [Function.update_of_ne heq]

/-- An `accept` of the server that gives a client which cannot be added. -/
lemma Matches.refused_step (h : Matches s d) (hinv : EpollServer.Inv s.server) {fd : ℤ}
    (hs : s.server.point = .accepting r rest) (hfd : s.server.Unused fd)
    (hp : s.line[s.server.accepts]? = some p) :
    Followed d (.server (.accepted fd false)) ⟨s.server.newClient r fd false,
        s.line.set s.server.accepts { p with down := p.down.finish }⟩ := by
  obtain ⟨c, t, ht, rfl⟩ := h.peer hp
  have hlt := (List.getElem?_eq_some_iff.mp ht).1
  obtain ⟨haccepts, hreceived, hsent, hpending⟩ := effect_newClient fd false hs
  have hquiet : ∀ j, s.server.pending j = [] := fun j =>
    EpollServer.State.pending_of_not_sending (by simp [hs])
  have hfree := hfd.2.2.2
  have hconn : (s.server.newClient r fd false).conn = s.server.conn := by
    simp [EpollServer.State.newClient, EpollServer.State.close, EpollServer.State.call,
      EpollServer.State.opened, ← hfree]
  have hmatch := h.accept (q := .stopped) ht haccepts hreceived hsent
    (fun j q _ hstands => hstands.same (by simp [hconn]) (by rw [hpending, hquiet])) ?_
    t.down.finish rfl
  · have haccept : Desk.Step rules d (.accept .closing)
        ⟨d.line.set s.server.accepts (c, { t with right := .closing }), d.accepted + 1⟩ := by
      simp [Desk.Step, stepOf, Desk.exec, h.accepted, ht, rules]
    have hclose : Run (Session.Step (rules.client c) rules.server) { t with right := .closing }
        [.right .done] { t with right := .stopped, down := t.down.finish } := .single rfl
    have htalk := Desk.run_talk (List.getElem?_set_self hlt)
      (fun _ _ => .inr (by simp [h.accepted])) hclose
      (d := ⟨d.line.set s.server.accepts (c, { t with right := .closing }), d.accepted + 1⟩)
    rw [List.set_set] at htalk
    exact ⟨_, _, .cons haccept htalk, hmatch, by simp, by simp, fun hfault => absurd rfl hfault⟩
  · intro fd' hfd'
    rw [hconn] at hfd'
    exact absurd (lt_accepts hinv hfd') (lt_irrefl _)

lemma Matches.connect_step (h : Matches s d) (hle : d.accepted ≤ d.line.length) (c : Client) :
    Followed d (.connect c) { s with line := s.line ++ [.new c] } := by
  refine ⟨[.connect c], { d with line := d.line ++ [(c, met c .receiving)] }, .single rfl,
    ⟨h.accepted, ?_, ?_, ?_, ?_, ?_⟩, by simp, by simp, by simp [Desk.Event.Fault]⟩
  · rw [h.line, List.map_append]
    rfl
  · intro j c₁ t₁ hj hacc
    rw [List.getElem?_append_left (hacc.trans_le hle)] at hj
    exact h.stands j c₁ t₁ hj hacc
  · intro j c₁ t₁ hj
    rcases Desk.cases_of_concat hj with hj | ⟨rfl, ⟨⟩⟩
    · exact h.read j c₁ t₁ hj
    · exact (h.quiet _ le_rfl).1.symm
  · intro j c₁ t₁ hj
    rcases Desk.cases_of_concat hj with hj | ⟨rfl, ⟨⟩⟩
    · exact h.wrote j c₁ t₁ hj
    · exact (h.quiet _ le_rfl).2.symm
  · intro j hj
    rw [List.length_append, List.length_singleton] at hj
    exact h.quiet j (by omega)

lemma Matches.client_step (h : Matches s d) {answer : Answer UInt8} (hp : s.line[i]? = some p)
    (hact : p.act answer = some p') :
    Followed d (.client i answer) { s with line := s.line.set i p' } := by
  obtain ⟨c, t, ht, rfl⟩ := h.peer hp
  obtain ⟨t', hrun, rfl, hright, htaken, hwritten⟩ := run_act hact
  -- the server reads and writes nothing
  have hnothing : ∀ (f : ℕ → List UInt8) j, f j = f j ++ if i = j then [] else [] := by simp
  refine ⟨_, _, Desk.run_talk ht (by simp [Desk.OfClient]) hrun,
    h.turn ht rfl (hnothing _) (hnothing _) (fun _ _ _ => id)
      (fun hacc => ?_) (by simp [htaken]) (by simp [hwritten]), by simp, by simp, ?_⟩
  · rw [hright]
    exact h.stands i c t ht hacc
  · intro hfault
    have hok : ¬ answer.Fault := hfault
    simpa [Desk.Event.Fault, Turn.answer] using hok

/-- **Refinement**: what a step does is done by the desk. -/
lemma Matches.step (h : Matches s d) (hle : d.accepted ≤ d.line.length)
    (hinv : EpollServer.Inv s.server) (hstep : Step s e s') : Followed d e s' := by
  cases Move.of_step hstep with
  | connect c => exact h.connect_step hle c
  | client i answer p p' hp hact => exact h.client_step hp hact
  | ready fds hs hfds hne hawaited =>
    refine h.quiet_step id (advance_accepts ..) (advance_conn ..)
      (EpollServer.State.advance_received ..) (EpollServer.State.advance_sent ..) fun j => ?_
    rw [EpollServer.State.pending_advance,
      EpollServer.State.pending_of_not_sending (s := s.server) (by simp [hs])]
  | interrupted hs => exact h.quiet_step id rfl rfl rfl rfl fun _ => rfl
  | accepted r rest fd p hs hfd hp => exact h.accepted_step hs hfd hp
  | refused r rest fd p hs hfd hp => exact h.refused_step hinv hs hfd hp
  | acceptFailed r rest errno hs hno =>
    refine h.quiet_step id (advance_accepts ..) (advance_conn ..)
      (EpollServer.State.advance_received ..) (EpollServer.State.advance_sent ..) fun j => ?_
    rw [EpollServer.State.pending_advance,
      EpollServer.State.pending_of_not_sending (s := s.server) (by simp [hs])]
  | received r rest answer i p p' hs hconn hp hrecv =>
    exact h.received_step hinv hs hconn hp hrecv
  | sent r chunk rest answer i p p' hs hconn hcan hp hsend =>
    exact h.sent_step hinv hs hconn hcan hp hsend

end Desk

end EpollClients

end Network

end CsLab
