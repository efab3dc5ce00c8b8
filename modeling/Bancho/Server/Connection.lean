/-
  Bancho.Server.Connection
  ────────────────────────
  `Session::start`: a session of the server, the reads of `Reader.h` and the writes
  of `Writer.h` by chunks, on the one `State` and the one socket they share.

  Completions of reads and of chunks and calls of `enqueue` come in any order.
  `Event::Packet` only logs, so a delivered packet enqueues nothing by itself.
  `Event::Disconnect` shuts the socket down and closes it: what the socket has
  accepted before is still handed to the handler of its write, and every chunk
  that waits or is started later ends in an error.
-/
import Bancho.Server.AsyncWrite
import Bancho.Server.Reader

namespace Bancho.Connection

open Session

/-- A session: the shared state, and what the reader and the writer have besides. -/
structure Config where
  state : State
  phase : Reader.Phase
  events : List Event
  received : List UInt8
  ops : List AsyncWrite.Op
  ended : List AsyncWrite.Ended
  socketBytes : List UInt8
  /-- `Event::Disconnect` has not closed the socket. -/
  isOpen : Bool
  deriving Repr, DecidableEq

namespace Config

variable (c : Config)

/-- What the reader works on. -/
def reader : Reader.Config := ⟨c.state, c.phase, c.events, c.received⟩

/-- What the writer works on. -/
def writer : AsyncWrite.Config := ⟨c.state, c.ops, c.ended, c.socketBytes, c.isOpen⟩

/-- The session after the reader worked on it: a call of `Event::Disconnect` has
closed the socket. -/
def readerDone (r : Reader.Config) : Config :=
  { c with
    state := r.state, phase := r.phase, events := r.events, received := r.received
    isOpen := c.isOpen && !r.events.contains .disconnect }

/-- The session after the writer worked on it. -/
def writerDone (w : AsyncWrite.Config) : Config :=
  { c with
    state := w.state, ops := w.ops, ended := w.ended, socketBytes := w.socketBytes
    isOpen := w.isOpen }

end Config

/-- An action of the reader or one of the writer. -/
abbrev Action : Type := Reader.Action ⊕ AsyncWrite.Action

/-- `Session::start`: a fresh state, `Event::Connect`, the first read, no write. -/
def start : Config := ⟨{}, .reading, [.connect], [], [], [], [], true⟩

def step (z : Zlib) (c : Config) : Action → Option Config
  | .inl a => ((Reader.system z).step c.reader a).map c.readerDone
  | .inr a => (AsyncWrite.step c.writer a).map c.writerDone

/-- A session of the server, as its reads and chunks complete. -/
def system (z : Zlib) : Transition.System Config Action := ⟨start, step z⟩

/-- The vectors enqueued, in order. -/
def enqueuedOf (as : List Action) : List (List UInt8) :=
  as.filterMap fun
    | .inr (.enqueue data) => some data
    | _ => none

end Bancho.Connection
