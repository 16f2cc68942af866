import Mathlib.Logic.Function.Basic
import Iax.Matlab.FileHandler

/-!
# Buffered socket reading

`socket_handler.m` over `buffer.m`: a callback moves the bytes that are available at the socket into
a buffer, and `read` waits until the buffer holds what it wants. The buffer outlives the socket.

* `NetAct`: what the network, the callback and `reconn` do. A connection carries the beginning of
  its stream, of any length, in pieces of any length.
* `read_eq`: `read` takes from the buffer.
-/

namespace Iax.Matlab

/-- A `socket_handler` and its network. The connections are numbered as they are made; `carried` is
what has arrived on each. -/
structure SocketHandler where
  conn : ℕ
  connected : Bool
  carried : ℕ → Bytes
  available : Bytes
  sbuf : Bytes

/-- What happens to the handler while it reads. -/
inductive NetAct
  /-- Bytes arrive on the connection. -/
  | arrive (bs : Bytes)
  /-- The callback reads some of the bytes that are available. -/
  | bytesAvaliableFcn (count : ℕ)
  /-- The peer ends the connection. -/
  | disconnect
  /-- `close`, by which `reconn` begins. -/
  | close
  /-- A new connection, of a client by `reconn`, of a server by accepting it. -/
  | connect
  deriving DecidableEq

namespace SocketHandler

/-- The handler with its first connection. -/
def init : SocketHandler where
  conn := 0
  connected := true
  carried := fun _ => []
  available := []
  sbuf := []

/-- What the network does, when connection `c` carries `stream c`. A socket that is closed loses the
bytes that were not read; the buffer is kept. -/
def netStep (stream : ℕ → Bytes) (h : SocketHandler) : NetAct → Option SocketHandler
  | .arrive bs =>
    if h.connected ∧ h.carried h.conn ++ bs <+: stream h.conn then
      some { h with
        carried := Function.update h.carried h.conn (h.carried h.conn ++ bs)
        available := h.available ++ bs }
    else none
  | .bytesAvaliableFcn count =>
    if count ≤ h.available.length then
      some { h with
        available := h.available.drop count
        sbuf := h.sbuf ++ h.available.take count }
    else none
  | .disconnect => some { h with connected := false }
  | .close => some { h with connected := false, available := [] }
  | .connect =>
    if h.connected then none else some { h with conn := h.conn + 1, connected := true }

/-- `read`, `none` as long as it waits. -/
def read (h : SocketHandler) (count : ℤ) : Option (Except MatErr (Bytes × SocketHandler)) :=
  if (h.sbuf.length : ℤ) < count then none
  else some ((FileHandler.bufferRead h.sbuf count).map fun (rbuf, sbuf) =>
    (rbuf, { h with sbuf := sbuf }))

/-- **Reading** takes from the buffer, when it holds enough. -/
theorem read_eq {h : SocketHandler} {n : ℕ} (hn : n ≤ h.sbuf.length) :
    h.read n = some (.ok (h.sbuf.take n, { h with sbuf := h.sbuf.drop n })) := by
  rw [read, if_neg (by omega), FileHandler.bufferRead_eq]
  rfl

/-- Otherwise it waits. -/
theorem read_of_lt {h : SocketHandler} {n : ℕ} (hn : h.sbuf.length < n) : h.read n = none := by
  rw [read, if_pos (by omega)]

/-- A read that returns for a length that is not negative. -/
theorem read_eq_some {h h' : SocketHandler} {n : ℕ} {buf : Bytes}
    (hread : h.read n = some (.ok (buf, h'))) :
    n ≤ h.sbuf.length ∧ buf = h.sbuf.take n ∧ h' = { h with sbuf := h.sbuf.drop n } := by
  rcases Nat.lt_or_ge h.sbuf.length n with hlt | hle
  · cases (read_of_lt hlt).symm.trans hread
  · rw [read_eq hle] at hread
    cases hread
    exact ⟨hle, rfl, rfl⟩

/-- A read of a length that is not negative does not fail. -/
theorem read_ne_error {h : SocketHandler} (n : ℕ) (e : MatErr) : h.read n ≠ some (.error e) := by
  intro hread
  rcases Nat.lt_or_ge h.sbuf.length n with hlt | hle
  · cases (read_of_lt hlt).symm.trans hread
  · cases (read_eq hle).symm.trans hread

end SocketHandler

end Iax.Matlab
