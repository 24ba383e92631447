/-
The servers with all their clients.

`main` of `02-blocking-server/server.c` accepts a client when it is done with the one before,
and `main` of `03-thread-per-connection/server.c` accepts it and starts a thread for it, or
closes its socket at once if there is no memory or no thread.  The clients are those of the
laboratory, any number of them, in any order, and they connect at any time.

A call of `accept` that fails changes nothing, and is not an event.

Not in the model: resets.  The servers close a connection after one read, and what a client sends
after that can always be taken, and no `SIGPIPE` ends the client.  They send once on a
connection, so that no `SIGPIPE` can end them.
-/
import CsLab.Lib.Desk
import CsLab.Network.Sessions

namespace CsLab

namespace Network

open Session

/-- The servers that go on after a client. -/
inductive Serving where
  | blocking
  | thread
deriving DecidableEq

namespace Serving

/-- What the server does with a client. -/
@[simp]
def server : Serving → Server
  | .blocking => .blocking
  | .thread => .thread

/-- When the server accepts a client, and where it stands with it then. -/
@[simp]
def admits : Serving → List (Client × Session UInt8 ClientPoint ServerPoint) → ServerPoint → Bool
  | .blocking, l, r => r = .receiving ∧ ∀ e ∈ l, e.2.right = .stopped
  | .thread, _, r => r = .receiving ∨ r = .closing

def rules (g : Serving) : Desk.Rules UInt8 Client ClientPoint ServerPoint where
  client := Client.program
  server := g.server.program
  first c := .sending c.messages
  idle := .receiving
  admits := g.admits

end Serving

section Service

variable {g : Serving} {es : List (Desk.Event UInt8 Client ServerPoint)}
  {d : Desk UInt8 Client ClientPoint ServerPoint} {c : Client} {r : ServerPoint}
  {s : Session UInt8 ClientPoint ServerPoint} {ts : List (Turn UInt8)} {i : ℕ}

lemma point_of_admits {l : List (Client × Session UInt8 ClientPoint ServerPoint)}
    (h : g.admits l r) : r = .receiving ∨ r = .closing := by
  cases g <;> simp_all

/-- What holds in a session with a client, however the server has started with it. -/
lemma kept_of_served (hr : r = .receiving ∨ r = .closing)
    (h : Run (Talk c g.server) (.start (.sending c.messages) r) ts s) :
    clientKept c s.left s.down.taken s.up.written s.up.ended ∧
      serverKept g.server s.right s.up.taken s.down.written s.down.ended := by
  refine ⟨left_keeps (client_keeps c) (client_kept_connected c) h fun _ _ => trivial,
    right_keeps (server_keeps g.server) ?_ h fun _ _ => trivial⟩
  rcases hr with rfl | rfl
  · exact server_kept_connected g.server
  · exact ⟨List.nil_prefix, fun _ hne => absurd rfl hne⟩

/-- What has been written is a part of the response, and follows something that was read. -/
lemma answers_of_kept {taken written : List UInt8} {ended : Bool}
    (h : serverKept g.server r taken written ended) :
    written <+: g.server.response ∧ (written ≠ [] → taken ≠ []) := by
  have hdata : g.server.NeedsData := by cases g <;> trivial
  cases r with
  | receiving =>
    rw [h.2.1]
    exact ⟨List.nil_prefix, fun hne => absurd rfl hne⟩
  | responding =>
    rw [h.2.2.1]
    exact ⟨List.nil_prefix, fun hne => absurd rfl hne⟩
  | closing => exact ⟨h.1, h.2 hdata⟩
  | stopped => exact ⟨h.1, h.2.1 hdata⟩

lemma not_deadlocks (c : Client) (g : Serving) : ¬ Deadlocks c g.server := fun h => by
  cases g <;> exact h.2 trivial

/-- **Every client is served**: however many clients there are and whatever they are, a run of
the server has at most 54 events for each of them, and it can go on without a failure until the
server has accepted all of them and every session is finished. -/
theorem service_completes (hrun : Run (Desk.Step g.rules) .empty es d) :
    es.length ≤ d.line.length * 54 ∧
      (Desk.Finished g.rules d ∨
        ∃ e d', ¬ e.Fault ∧ (∀ c, e ≠ .connect c) ∧ Desk.Step g.rules d e d') := by
  have hclient : ∀ c : Client, clientBudget 1 (.sending c.messages) ≤ 21 := by
    intro c
    cases c <;> simp [length_ascii]
  constructor
  · refine Desk.length_le (n := 52) hrun (fun c => client_budget 1 c) (server_budget g.server)
      (fun c => ?_) fun c l r hadmits => ?_
    · have hle := hclient c
      simp only [Serving.rules, serverBudget]
      omega
    · have hle := hclient c
      rcases point_of_admits hadmits with rfl | rfl
      all_goals
        simp only [Serving.rules, serverBudget]
        omega
  · refine Desk.progress hrun (fun c l r ts s hadmits hsession hstuck => ?_) fun l hfin => ?_
    · obtain ⟨hleft, hright⟩ := kept_of_served (point_of_admits hadmits) hsession
      exact finished_of_kept (not_deadlocks c g) hleft hright hstuck
    · refine ⟨.receiving, ?_⟩
      cases g with
      | blocking =>
        have hall : ∀ e ∈ l, e.2.right = .stopped := fun e he =>
          server_stopped (v := .blocking) (hfin e.1 e.2 he).2
        simpa [Serving.rules] using hall
      | thread => rfl

/-- **No client gets what is not its own**: what a client reads is a part of the response, and
if it has read something then the server has read something from it; the blocking server is done
with a client before it accepts the next one. -/
theorem service_answers (hrun : Run (Desk.Step g.rules) .empty es d)
    (hs : d.line[i]? = some (c, s)) :
    s.down.taken <+: g.server.response ∧
      (s.down.taken ≠ [] → i < d.accepted ∧ s.up.taken ≠ []) ∧
      (g = .blocking → i + 1 < d.accepted → s.right = .stopped) := by
  have halone := (Desk.held_of_run hrun).alone i c s hs
  have hdown := s.down.taken_le
  refine and_assoc.mp ⟨?_, ?_⟩
  · rcases Nat.lt_or_ge i d.accepted with hi | hi
    · obtain ⟨l, r, -, hadmits, hsession⟩ := halone.inside hi
      obtain ⟨hwritten, hread⟩ :=
        answers_of_kept (kept_of_served (point_of_admits hadmits) hsession).2
      refine ⟨hdown.trans hwritten, fun hne => ⟨hi, hread fun hnil => ?_⟩⟩
      rw [hnil] at hdown
      exact hne (List.prefix_nil.mp hdown)
    · obtain ⟨hclient, hsession⟩ := halone.outside hi
      have hnil : s.down.written = [] := Desk.written_of_client hsession hclient
      rw [hnil] at hdown
      rw [List.prefix_nil.mp hdown]
      exact ⟨List.nil_prefix, fun hne => absurd rfl hne⟩
  · rintro rfl hi
    have hstop := Desk.one_at_a_time hrun (fun l r hadmits e he => ?_) hs hi
    · exact server_stopped (v := .blocking) hstop
    · have hall : ∀ e ∈ l, e.2.right = .stopped := by
        have h := of_decide_eq_true hadmits
        exact h.2
      rw [hall e he]
      rfl

end Service

/-- Two clients; the second one has sent its message before it is accepted. -/
def twoClients : List (Desk.Event UInt8 Client ServerPoint) :=
  [.connect .basic, .connect .closing, .talk 1 (.left (.sent 5)), .accept .receiving,
    .talk 0 (.left (.sent 12)), .talk 0 (.right (.got (ascii "hello server"))),
    .talk 0 (.right (.sent 23)), .talk 0 (.right .done), .accept .receiving,
    .talk 0 (.left (.got (ascii "server recieved message"))),
    .talk 1 (.right (.got (ascii "hello")))]

/-- What is left of a session: where the server stands, and what the client has read. -/
def outcome (d : Desk UInt8 Client ClientPoint ServerPoint) :
    List (Client × ServerPoint × List UInt8) :=
  d.line.map fun e => (e.1, e.2.right, e.2.down.taken)

lemma run_twoClients : ∃ d, Run (Desk.Step Serving.blocking.rules) .empty twoClients d ∧
    (d.accepted, outcome d) =
      (2, [(.basic, .stopped, ascii "server recieved message"), (.closing, .responding, [])]) :=
  Run.exists_of_foldlM (f := fun d => (Desk.accepted d, outcome d)) (by decide)

theorem service_completes_two : ∃ d, Run (Desk.Step Serving.blocking.rules) .empty twoClients d ∧
    twoClients.length ≤ d.line.length * 54 := by
  obtain ⟨d, hrun, -⟩ := run_twoClients
  exact ⟨d, hrun, (service_completes hrun).1⟩

theorem service_answers_two : ∃ (d : Desk UInt8 Client ClientPoint ServerPoint)
    (s : Session UInt8 ClientPoint ServerPoint), d.line[0]? = some (.basic, s) ∧
      s.down.taken = ascii "server recieved message" ∧ s.up.taken ≠ [] := by
  obtain ⟨d, hrun, hend⟩ := run_twoClients
  simp only [Prod.mk.injEq] at hend
  have hhead : (outcome d)[0]? = some (.basic, .stopped, ascii "server recieved message") := by
    rw [hend.2]
    rfl
  rw [outcome, List.getElem?_map, Option.map_eq_some_iff] at hhead
  obtain ⟨⟨c, s⟩, hs, heq⟩ := hhead
  simp only [Prod.mk.injEq] at heq
  obtain ⟨rfl, -, htaken⟩ := heq
  refine ⟨d, s, hs, htaken, ((service_answers hrun hs).2.1 ?_).2⟩
  rw [htaken]
  decide

end Network

end CsLab
