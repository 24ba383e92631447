/-
The programs that talk over one connection: the clients of `06-network/01-tcp-basic`,
`07-tcp-deep/01-stream`, `07-tcp-deep/02-close-states` and `07-tcp-deep/03-half-close`, and
what the servers of `01-tcp-basic`, `02-blocking-server`, `03-thread-per-connection`,
`07-tcp-deep/02-close-states` and `07-tcp-deep/03-half-close` do with a client that they
have accepted.

All of them use the same port, so each client can meet each server.

Not in the model: the calls up to `connect` and `accept`, what is printed, `sleep`, and resets (a
`send` to a program that has closed its socket may be taken or fail, and no `SIGPIPE` comes with
it).  A program that ends closes its socket, if it has not done so itself.
-/
import CsLab.Lib.Session
import CsLab.Network.Socket

namespace CsLab

namespace Network

open Session

/-- The bytes of a string literal. -/
def ascii (s : String) : List UInt8 := s.toList.map fun c => UInt8.ofNat c.toNat

lemma length_ascii (s : String) : (ascii s).length = s.toList.length := by simp [ascii]

/-- Where a client stands. -/
inductive ClientPoint where
  /-- at `send`, with the messages that are left -/
  | sending (messages : List (List UInt8))
  /-- at `recv` or `read` -/
  | receiving
  /-- at `close`, or at the end of `main` -/
  | closing
  | stopped
deriving DecidableEq

/-- Where a server stands with a client. -/
inductive ServerPoint where
  /-- at `recv` or `read` -/
  | receiving
  /-- at `send` -/
  | responding
  /-- at `close`, or at the end of `main` -/
  | closing
  | stopped
deriving DecidableEq

/-! ### The clients -/

/-- `main` of `01-tcp-basic/client.c`, and of the same file in `02-blocking-server` and
`03-thread-per-connection`: one message, one answer -/
@[simp]
def basicClient : ClientPoint → Act UInt8 ClientPoint
  | .sending (message :: _) => .send message fun
    | some _ => .receiving
    | none => .closing
  | .sending [] => .close .stopped
  | .receiving => .recv (bufSize - 1) fun _ => .closing
  | .closing => .close .stopped
  | .stopped => .stop

/-- `main` of `02-close-states/client.c`: it sends and closes -/
@[simp]
def closingClient : ClientPoint → Act UInt8 ClientPoint
  | .sending (message :: rest) => .send message fun _ => .sending rest
  | .sending [] => .close .stopped
  | .receiving => .close .stopped
  | .closing => .close .stopped
  | .stopped => .stop

/-- `main` of `03-half-close/client.c`: it sends, ends its stream and reads once -/
@[simp]
def halfCloseClient : ClientPoint → Act UInt8 ClientPoint
  | .sending (message :: rest) => .send message fun _ => .sending rest
  | .sending [] => .shutdown .receiving
  | .receiving => .recv (bufSize - 1) fun _ => .closing
  | .closing => .close .stopped
  | .stopped => .stop

/-- `main` of `01-stream/client.c`: it sends, ends its stream and reads to the end -/
@[simp]
def streamClient : ClientPoint → Act UInt8 ClientPoint
  | .sending (message :: rest) => .send message fun _ => .sending rest
  | .sending [] => .shutdown .receiving
  | .receiving => .recv (bufSize - 1) fun
    | .data _ => .receiving
    | .eof => .closing
    | .failed => .closing
  | .closing => .close .stopped
  | .stopped => .stop

/-! ### The servers -/

/-- `main` of `01-tcp-basic/server.c` behind `accept`: the end of the stream is answered too -/
@[simp]
def basicServer : ServerPoint → Act UInt8 ServerPoint
  | .receiving => .recv (bufSize - 1) fun
    | .data _ => .responding
    | .eof => .responding
    | .failed => .closing
  | .responding => .send (ascii "hello client") fun _ => .closing
  | .closing => .close .stopped
  | .stopped => .stop

/-- One read, which is answered if it gave data. -/
@[simp]
def answerOnce (response : List UInt8) : ServerPoint → Act UInt8 ServerPoint
  | .receiving => .recv (bufSize - 1) fun
    | .data _ => .responding
    | .eof => .closing
    | .failed => .closing
  | .responding => .send response fun _ => .closing
  | .closing => .close .stopped
  | .stopped => .stop

/-- The body of the loop of `02-blocking-server/server.c` -/
@[simp]
def blockingServer : ServerPoint → Act UInt8 ServerPoint :=
  answerOnce (ascii "server recieved message")

/-- `handle_client` of `03-thread-per-connection/server.c` -/
@[simp]
def handleClient : ServerPoint → Act UInt8 ServerPoint :=
  answerOnce (ascii "server received message")

/-- `main` of `02-close-states/server.c` behind `accept` -/
@[simp]
def closeStatesServer : ServerPoint → Act UInt8 ServerPoint
  | .receiving => .recv (bufSize - 1) fun
    | .data _ => .receiving
    | .eof => .closing
    -- here the socket is closed by the end of `main`
    | .failed => .closing
  | .responding => .close .stopped
  | .closing => .close .stopped
  | .stopped => .stop

/-- `main` of `03-half-close/server.c` behind `accept` -/
@[simp]
def halfCloseServer : ServerPoint → Act UInt8 ServerPoint
  | .receiving => .recv (bufSize - 1) fun
    | .data _ => .receiving
    | .eof => .responding
    -- a failed read ends the loop in the same way
    | .failed => .responding
  | .responding => .send (ascii "I received everything") fun _ => .closing
  | .closing => .close .stopped
  | .stopped => .stop

/-! ### All of them -/

inductive Client where
  | basic
  | closing
  | halfClose
  | stream
deriving DecidableEq

inductive Server where
  | basic
  | blocking
  | thread
  | closeStates
  | halfClose
deriving DecidableEq

namespace Client

@[simp]
def program : Client → ClientPoint → Act UInt8 ClientPoint
  | .basic => basicClient
  | .closing => closingClient
  | .halfClose => halfCloseClient
  | .stream => streamClient

/-- What the client sends. -/
@[simp]
def messages : Client → List (List UInt8)
  | .basic => [ascii "hello server"]
  | .closing => [ascii "hello"]
  | .halfClose => [ascii "Hello", ascii "World"]
  | .stream => [ascii "HELLO", ascii "WORLD", ascii "ABCDE"]

end Client

@[simp]
def Server.program : Server → ServerPoint → Act UInt8 ServerPoint
  | .basic => basicServer
  | .blocking => blockingServer
  | .thread => handleClient
  | .closeStates => closeStatesServer
  | .halfClose => halfCloseServer

/-- The client is connected and accepted. -/
def connected (c : Client) : Session UInt8 ClientPoint ServerPoint :=
  .start (.sending c.messages) .receiving

/-- A step of the client or of the server. -/
abbrev Talk (c : Client) (v : Server) : Session UInt8 ClientPoint ServerPoint → Turn UInt8 →
    Session UInt8 ClientPoint ServerPoint → Prop :=
  Session.Step c.program v.program

end Network

end CsLab
