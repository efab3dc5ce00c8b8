/-
  Bancho.Server.AsyncWrite
  ────────────────────────
  `Writer.h` over asio's `async_write`, which is not one operation of the socket:
  it sends its buffer by `async_write_some`, one chunk after another, and each of
  these may send less than it was given.

  §1  `consuming_single_buffer`: one buffer, and how much of it is sent;
  §2  `transfer_all_t` and `write_op`, the operation between two chunks.  Its test
      of `cancelled()` is left out: the server connects no cancellation slot;
  §3  a session that `Writer.h` works on, with what it starts;
  §4  the session writing, chunk by chunk, on a socket that may be closed.

  A buffer is the vector itself here.  The source's points into `write_queue`, so
  what it points to must stay at the front as long as the write is in flight.
-/
import Bancho.Server.Writer

namespace Bancho.AsyncWrite

open Session

/-! ## §1. `consuming_single_buffer`. -/

structure ConsumingBuffer where
  buffer : List UInt8
  totalConsumed : Nat := 0
  deriving Repr, DecidableEq

namespace ConsumingBuffer

variable (b : ConsumingBuffer)

def empty : Bool := b.totalConsumed ≥ b.buffer.length

/-- `buffer_ + total_consumed_`, and of it at most `max_size` bytes. -/
def prepare (maxSize : Nat) : List UInt8 := (b.buffer.drop b.totalConsumed).take maxSize

def consume (size : Nat) : ConsumingBuffer := { b with totalConsumed := b.totalConsumed + size }

end ConsumingBuffer

/-! ## §2. `write_op`. -/

/-- `default_max_transfer_size`. -/
def defaultMaxTransferSize : Nat := 65536

/-- `transfer_all_t`, the completion condition of the server's writes: how many
bytes the next chunk may have, `0` to stop. -/
def transferAll (ec : Bool) (_bytesTransferred : Nat) : Nat :=
  if ec then 0 else defaultMaxTransferSize

/-- What a call of `write_op` ends in. -/
inductive Continuation where
  /-- `async_write_some` of this chunk. -/
  | writeSome (chunk : List UInt8)
  /-- The call of the handler. -/
  | handler (ec : Bool) (bytesTransferred : Nat)
  deriving Repr, DecidableEq

/-- `write_op::operator()`.  With `start` it begins the write; without, it is the
handler of the `async_write_some` before. -/
def writeOp (buffers : ConsumingBuffer) (ec : Bool) (bytesTransferred : Nat) (start : Bool) :
    ConsumingBuffer × Continuation :=
  if start then
    let maxSize := transferAll ec buffers.totalConsumed
    (buffers, .writeSome (buffers.prepare maxSize))
  else
    let buffers := buffers.consume bytesTransferred
    if (!ec && bytesTransferred == 0) || buffers.empty then
      (buffers, .handler ec buffers.totalConsumed)
    else
      let maxSize := transferAll ec buffers.totalConsumed
      if maxSize = 0 then (buffers, .handler ec buffers.totalConsumed)
      else (buffers, .writeSome (buffers.prepare maxSize))

/-! ## §3. A session and its writes. -/

/-- A write in flight: its buffer, the chunk that was given to `async_write_some`,
and how that ended, if it has. -/
structure Op where
  buffers : ConsumingBuffer
  chunk : List UInt8
  result : Option (Bool × Nat)
  deriving Repr, DecidableEq

/-- What is known of an `async_write_some` when it is started.  A closed socket
refuses it, also if the chunk is empty; on an open one an empty chunk is a no-op
and has succeeded, and any other waits for the socket. -/
def asyncWriteSome (isOpen : Bool) (chunk : List UInt8) : Option (Bool × Nat) :=
  if !isOpen then some (true, 0)
  else if chunk.isEmpty then some (false, 0)
  else none

/-- A write that has ended: its buffer, and what its handler was called with. -/
structure Ended where
  buffer : List UInt8
  ec : Bool
  bytesTransferred : Nat
  deriving Repr, DecidableEq

/-- A session, its writes in flight and those that have ended, the bytes put on
the socket, and whether that is open. -/
structure Config where
  state : State := {}
  ops : List Op := []
  ended : List Ended := []
  socketBytes : List UInt8 := []
  isOpen : Bool := true
  deriving Repr, DecidableEq

/-- One more write in flight, of all of `buffer`. -/
def asyncWrite (c : Config) (buffer : List UInt8) : Config :=
  match writeOp { buffer := buffer } false 0 true with
  | (buffers, .writeSome chunk) =>
      { c with ops := c.ops ++ [⟨buffers, chunk, asyncWriteSome c.isOpen chunk⟩] }
  | _ => c

instance : Writer.HasAsyncWrite Config where
  state := Config.state
  withState c s := { c with state := s }
  asyncWrite := asyncWrite
  state_withState _ _ := rfl
  withState_withState _ _ _ := rfl

/-! ## §4. The session writing, chunk by chunk. -/

inductive Action where
  | enqueue (data : List UInt8)
  /-- The chunk of write `op` was accepted up to its first `n` bytes. -/
  | send (op n : Nat)
  /-- It was refused with an error; none of it was sent. -/
  | abort (op : Nat)
  /-- What came of the chunk is handed to `write_op`. -/
  | resume (op : Nat)
  deriving Repr, DecidableEq

/-- Which actions can happen.  Of a chunk that waits an open socket takes some
bytes, or it is refused; a closed one takes none. -/
def enabled (c : Config) : Action → Bool
  | .enqueue _ => true
  | .send op n => c.isOpen && c.ops[op]?.any fun o =>
      o.result == none && 0 < n && n ≤ o.chunk.length
  | .abort op => c.ops[op]?.any fun o => o.result == none
  | .resume op => c.ops[op]?.any fun o => o.result != none

/-- What an action does; `none` is undefined behaviour. -/
def act (c : Config) : Action → Option Config
  | .enqueue data => Writer.enqueue c data
  | .send op n =>
      c.ops[op]?.map fun o =>
        { c with
          ops := c.ops.set op { o with result := some (false, n) }
          socketBytes := c.socketBytes ++ o.chunk.take n }
  | .abort op =>
      c.ops[op]?.map fun o => { c with ops := c.ops.set op { o with result := some (true, 0) } }
  | .resume op =>
      c.ops[op]?.bind fun o => o.result.bind fun (ec, n) =>
        match writeOp o.buffers ec n false with
        | (buffers, .writeSome chunk) =>
            some { c with ops := c.ops.set op ⟨buffers, chunk, asyncWriteSome c.isOpen chunk⟩ }
        | (_, .handler ec bytesTransferred) =>
            Writer.onWrite { c with
              ops := c.ops.eraseIdx op
              ended := c.ended ++ [⟨o.buffers.buffer, ec, bytesTransferred⟩] } ec

def step (c : Config) (a : Action) : Option Config := if enabled c a then act c a else none

/-- `socket.close()`, which the writer never calls. -/
def close (c : Config) : Config := { c with isOpen := false }

/-- What happens to the writing side of a session. -/
inductive Label where
  | action (a : Action)
  /-- Its socket is closed, by `Event::Disconnect`. -/
  | close
  deriving Repr, DecidableEq

/-- The writing side of a session, chunk by chunk. -/
def system : Transition.System Config Label where
  init := {}
  step c
    | .action a => step c a
    | .close => some (close c)

/-- The vectors enqueued, in order. -/
def enqueuedOf (ls : List Label) : List (List UInt8) :=
  ls.filterMap fun
    | .action (.enqueue data) => some data
    | _ => none

end Bancho.AsyncWrite
