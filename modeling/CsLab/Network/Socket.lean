/-
What the kernel answers to the system calls of the echo servers
(`06-network/03-thread-per-connection/server.c`, `06-network/05-poll/server.c` and
`06-network/06-epoll/server.c`).

A server never looks at what a client is, so all that a model of it needs of the
network is the answers to its calls.  They are free, within what a call may return.
-/
import Mathlib.Algebra.Order.Ring.Int
import Mathlib.Data.Int.Notation
import Mathlib.Tactic.Common

namespace CsLab

namespace Network

/-- `BUF_SIZE` -/
abbrev bufSize : ℕ := 1024

/-! ### The values of `errno` that the servers test for -/

abbrev eintr : ℕ := 4

abbrev eagain : ℕ := 11

abbrev ewouldblock : ℕ := 11

/-- What `recv(fd, buffer, sizeof(buffer) - 1, 0)` puts into the buffer when it returns
`n > 0`. -/
structure Chunk where
  bytes : List UInt8
  ne_nil : bytes ≠ []
  length_le : bytes.length ≤ bufSize - 1
deriving DecidableEq

namespace Chunk

/-- The `n` that `recv` returns. -/
def n (chunk : Chunk) : ℕ := chunk.bytes.length

end Chunk

/-- The result of `recv`. -/
inductive Recv where
  /-- `n > 0` -/
  | data (chunk : Chunk)
  /-- `n == 0` -/
  | eof
  /-- `-1` with this `errno` -/
  | failed (errno : ℕ)
deriving DecidableEq

/-- The result of `send`. -/
inductive Send where
  /-- the kernel has taken `k` bytes -/
  | taken (k : ℕ)
  /-- `-1` with this `errno` -/
  | failed (errno : ℕ)
deriving DecidableEq

/-- What a `send` of these bytes gives to the kernel. -/
def Send.bytes (data : List UInt8) : Send → List UInt8
  | .taken k => data.take k
  | .failed _ => []

lemma Send.bytes_prefix (answer : Send) (data : List UInt8) : answer.bytes data <+: data := by
  cases answer with
  | taken k => exact List.take_prefix k data
  | failed errno => exact List.nil_prefix

/-- The result makes a server close the connection: `0`, or an error other than that
there is nothing to read now. -/
def Recv.Ends : Recv → Prop
  | .data _ => False
  | .eof => True
  | .failed errno => errno ≠ eagain ∧ errno ≠ ewouldblock

instance : DecidablePred Recv.Ends := fun r =>
  match r with
  | .data _ => inferInstanceAs (Decidable False)
  | .eof => inferInstanceAs (Decidable True)
  | .failed errno => inferInstanceAs (Decidable (errno ≠ eagain ∧ errno ≠ ewouldblock))

end Network

end CsLab
