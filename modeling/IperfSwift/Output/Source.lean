import IperfSwift.Output.Types

/-!
Contract: where the scanner's bytes come from.

Owns: the interface the scanner reads through; the buffered feed of
`iperf_bounded_output.c`, which refills from a read function; and the plain
stream, which has the bytes of the frame at hand.

Does not own: the proof that the two cannot be told apart.
-/

set_option autoImplicit false

namespace IperfSwift.Output

open IperfSwift.Lib

/-- What looking at the next byte finds. -/
inductive Peeked where
  | byte (byte : Byte)
  | finished
  | failed (error : Errno)
deriving DecidableEq, Repr

/-- The scanner's view of its input. `left` is the number of bytes of the frame
that have not been consumed. -/
structure Source (σ : Type) where
  peek : σ → Peeked × σ
  advance : σ → σ
  left : σ → Nat

/-! ### The buffered feed -/

/-- What one call of the read function does: a count of bytes written, which may
be zero or out of range, or -1 with an error number. -/
inductive ReadResult where
  | data (bytes : List Byte)
  | failed (errno : Errno)
deriving DecidableEq, Repr

/-- An `iperf_result_read_function` with its context made explicit. -/
abbrev ReadFunction (κ : Type) := κ → Nat → ReadResult × κ

/-- `sizeof(p->input)`. -/
def inputBuffer : Nat := 4096

/-- One call of the read function: how many bytes of the frame had arrived before
it, and the capacity it was given. -/
structure ReadRequest where
  offset : Nat
  capacity : Nat
deriving DecidableEq, Repr

/-- The input half of `struct parser`, with `metrics.bytes_read`. `pending` is `input`
from `cursor` up to `available`, and `requests` records every read. -/
structure Feed (κ : Type) where
  context : κ
  remaining : Nat
  pending : List Byte
  bytesRead : Nat
  requests : List ReadRequest

namespace Feed

variable {κ : Type}

/-- The part of `peek` that runs when the buffer is empty. -/
def refill (read : ReadFunction κ) (feed : Feed κ) : Peeked × Feed κ :=
  let count := min feed.remaining inputBuffer
  let outcome := read feed.context count
  let asked :=
    { feed with
      context := outcome.2
      requests := feed.requests ++ [⟨feed.bytesRead, count⟩] }
  match outcome.1 with
  | .failed errno => (.failed (if errno ≠ 0 then errno else EPROTO), asked)
  | .data [] => (.failed EPROTO, asked)
  | .data (first :: rest) =>
      if count < (first :: rest).length then (.failed EPROTO, asked)
      else
        (.byte first,
          { asked with
            remaining := feed.remaining - (first :: rest).length
            bytesRead := feed.bytesRead + (first :: rest).length
            pending := first :: rest })

def peek (read : ReadFunction κ) (feed : Feed κ) : Peeked × Feed κ :=
  match feed.pending with
  | byte :: _ => (.byte byte, feed)
  | [] => if feed.remaining = 0 then (.finished, feed) else refill read feed

def advance (feed : Feed κ) : Feed κ := { feed with pending := feed.pending.tail }

def left (feed : Feed κ) : Nat := feed.pending.length + feed.remaining

def source (read : ReadFunction κ) : Source (Feed κ) := ⟨peek read, advance, left⟩

end Feed

/-! ### The plain stream -/

/-- The bytes still to come, how many bytes of the frame will never arrive, and
the error met in their place. -/
structure Stream where
  bytes : List Byte
  lost : Nat
  ending : Errno
deriving DecidableEq, Repr

namespace Stream

def peek (stream : Stream) : Peeked × Stream :=
  match stream.bytes with
  | byte :: _ => (.byte byte, stream)
  | [] => if stream.lost = 0 then (.finished, stream) else (.failed stream.ending, stream)

def advance (stream : Stream) : Stream := { stream with bytes := stream.bytes.tail }

def left (stream : Stream) : Nat := stream.bytes.length + stream.lost

def source : Source Stream := ⟨peek, advance, left⟩

end Stream

end IperfSwift.Output
