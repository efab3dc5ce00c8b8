/-
  Bancho.Server.Lifetime
  ──────────────────────
  What keeps a session in memory.  `start` makes the `State` by `make_shared`, and
  the functions of the server pass copies of the `shared_ptr` on.  A parameter's
  copy goes when the call returns; the copy that a lambda captures goes with the
  lambda, when it has run.  With the last copy the `State` goes, and with it the
  socket, `read_buf` and the queue.

  §1  the copies;
  §2  what the functions of `Reader.h` and `Writer.h` do with them;
  §3  a session in memory.  Whoever is passed a copy may keep it (`held`).
-/
import Bancho.Server.Connection

namespace Bancho.Lifetime

open BanchoPacket Session

/-! ## §1. Copies. -/

/-- A session, and the copies of its `shared_ptr`. -/
structure Config where
  session : Connection.Config
  /-- `use_count`. -/
  useCount : Nat
  /-- Of these, the copies that are kept outside of the session's lambdas. -/
  held : Nat
  deriving Repr, DecidableEq

namespace Config

variable (c : Config)

def copy : Config := { c with useCount := c.useCount + 1 }

/-- One copy goes; `none` if there is none. -/
def release : Option Config :=
  if 0 < c.useCount then some { c with useCount := c.useCount - 1 } else none

end Config

/-! ## §2. The functions of the server. -/

/-- The lambda of `do_read`, after a call of `consume_packet_stream`: it goes on
with the loop, returns, or calls `do_read(state)` and then returns. -/
def afterConsume (c : Config) : ParseStatus → Option Config
  | .ok => some c
  | .invalid => c.release
  -- the lambda of the next read has its copy before this one's goes
  | .needMoreData => c.copy.release

/-- Starting an `async_write` takes the lambda of `do_write`, which has captured a
copy. -/
instance : Writer.HasAsyncWrite Config where
  state c := c.session.state
  withState c s := { c with session := { c.session with state := s } }
  asyncWrite c buffer :=
    { c with session := c.session.writerDone (AsyncWrite.asyncWrite c.session.writer buffer) }.copy
  state_withState _ _ := rfl
  withState_withState _ _ _ := rfl

/-- The lambda of `do_write`, whose own copy goes when it has run. -/
def onWrite (c : Config) (ec : Bool) : Option Config := (Writer.onWrite c ec).bind Config.release

/-! ## §3. A session in memory. -/

inductive Action where
  /-- The session reads or writes. -/
  | session (a : Connection.Action)
  /-- Somebody who was passed a copy keeps it. -/
  | copy
  /-- A copy that was kept goes. -/
  | drop

/-- What comes of a read, or of the call of `consume_packet_stream` on `before`. -/
def readerStep (z : Zlib) (before : State) (c : Config) : Reader.Action → Option Config
  | .read _ => some c
  | .readError => c.release
  | .consume => afterConsume c (Reader.consumePacketStream z before).1

/-- What an action of the writer does, as in `AsyncWrite.act`.  `enqueue` is called
with a copy, so there has to be one. -/
def writerStep (c : Config) : AsyncWrite.Action → Option Config
  | .enqueue data => if 0 < c.useCount then Writer.enqueue c data else none
  | .resume op =>
      c.session.ops[op]?.bind fun o => o.result.bind fun (ec, n) =>
        match AsyncWrite.writeOp o.buffers ec n false with
        | (buffers, .writeSome chunk) =>
            some { c with session := { c.session with
              ops := c.session.ops.set op
                ⟨buffers, chunk, AsyncWrite.asyncWriteSome c.session.isOpen chunk⟩ } }
        | (_, .handler ec bytesTransferred) =>
            onWrite { c with session := { c.session with
              ops := c.session.ops.eraseIdx op
              ended := c.session.ended ++ [⟨o.buffers.buffer, ec, bytesTransferred⟩] } } ec
  -- nothing of the server runs
  | a => (AsyncWrite.act c.session.writer a).map fun w =>
      { c with session := c.session.writerDone w }

def step (z : Zlib) (c : Config) : Action → Option Config
  | .session (.inl a) =>
      ((Connection.system z).step c.session (.inl a)).bind fun s =>
        readerStep z c.session.state { c with session := s } a
  | .session (.inr a) =>
      if AsyncWrite.enabled c.session.writer a then writerStep c a else none
  | .copy => if 0 < c.useCount then some { c.copy with held := c.held + 1 } else none
  | .drop => if 0 < c.held then { c with held := c.held - 1 }.release else none

/-- `Session::start`: of `state` itself and of the copy that the lambda of `do_read`
captured, the second is left. -/
def start : Config := ⟨Connection.start, 1, 0⟩

/-- A session in memory, as its reads and chunks complete and copies come and go. -/
def system (z : Zlib) : Transition.System Config Action := ⟨start, step z⟩

def Action.toSession : Action → Option Connection.Action
  | .session a => some a
  | _ => none

/-- What the session itself did. -/
def sessionOf (as : List Action) : List Connection.Action := as.filterMap Action.toSession

end Bancho.Lifetime
