/-
  Bancho.Server.Reader
  ────────────────────
  `Reader.h`: taking packets off the byte stream of a session.

  §1  `consume_packet_stream`, as the header has it;
  §2  the completion handler of `do_read`, with its `while (true)` loop;
  §3  a session reading: the handler run on one read after another (`run`);
  §4  the same session in small steps — a read arrives, the loop makes one call,
      the read fails — for what must hold inside the handler too (`system`).
-/
import Bancho.Library.Transition
import Bancho.Server.Session

namespace Bancho.Reader

open BanchoPacket Session

/-! ## §1. `consume_packet_stream`. -/

/-- The tail of `consume_packet_stream`: leave unless the status is `Ok`, check
the byte count, erase the frame, raise the event. -/
def finishConsume (state : State) (parseStatus : ParseStatus) (packet : Packet)
    (consumedBytes : Nat) : ParseStatus × State × List Event :=
  if parseStatus ≠ .ok then (parseStatus, state, [])
  -- the guard of the source; `legacy_header` may be written by now
  else if consumedBytes = 0 ∨ consumedBytes > state.packetStream.length then
    (.invalid, state, [])
  else
    (.ok, { state with packetStream := state.packetStream.drop consumedBytes }, [.packet packet])

/-- `consume_packet_stream`: the status, the session it leaves, the events it
raised. -/
def consumePacketStream (z : Zlib) (state : State) : ParseStatus × State × List Event :=
  match state.legacyHeader with
  | some legacyHeader =>
      -- header format locked in after the first packet
      let r := tryParsePacket z state.packetStream {} legacyHeader
      finishConsume state r.status r.packet r.consumedBytes
  | none =>
      -- auto-detect on the first packet: modern first, fall back to legacy
      let modern := tryParsePacket z state.packetStream {} false
      let legacy := tryParsePacket z state.packetStream {} true
      if modern.status = .ok then
        finishConsume { state with legacyHeader := some false }
          modern.status modern.packet modern.consumedBytes
      else if legacy.status = .ok then
        finishConsume { state with legacyHeader := some true }
          legacy.status legacy.packet legacy.consumedBytes
      else if modern.status = .invalid ∧ legacy.status = .invalid then
        finishConsume state .invalid {} 0
      else
        -- one format may already be ruled out while the other waits
        finishConsume state .needMoreData {} 0

/-- After an `Ok` the stream is shorter: the guard on the byte count sees to it. -/
theorem finishConsume_lt {state state' : State} {status : ParseStatus} {p : Packet} {n : Nat}
    {evs : List Event} (h : finishConsume state status p n = (.ok, state', evs)) :
    state'.packetStream.length < state.packetStream.length := by
  unfold finishConsume at h
  split at h
  next hs =>
    rw [Prod.mk.injEq] at h
    exact absurd h.1 hs
  next =>
    split at h
    next => exact nomatch (Prod.mk.inj h).1
    next hn =>
      -- past the guard `0 < n` and `n` is at most the length, so the erase shortens
      obtain ⟨-, rfl, -⟩ := h
      show (state.packetStream.drop n).length < _
      rw [List.length_drop]
      omega

theorem consumePacketStream_lt {z : Zlib} {state state' : State} {evs : List Event}
    (h : consumePacketStream z state = (.ok, state', evs)) :
    state'.packetStream.length < state.packetStream.length := by
  unfold consumePacketStream at h
  split at h
  next => exact finishConsume_lt h
  next =>
    simp only at h
    split at h
    next =>
      have hlt := finishConsume_lt h
      exact hlt
    next =>
      split at h
      next =>
        have hlt := finishConsume_lt h
        exact hlt
      next => split at h <;> exact finishConsume_lt h

/-! ## §2. The completion handler of `do_read`. -/

/-- The `while (true)` loop: call `consume_packet_stream` as long as it returns
`Ok`; the status it stopped on, the session, the events raised on the way. -/
def consumeLoop (z : Zlib) (state : State) (events : List Event) :
    ParseStatus × State × List Event :=
  match _h : consumePacketStream z state with
  | (.ok, state', evs) => consumeLoop z state' (events ++ evs)
  | (status, state', evs) => (status, state', events ++ evs)
termination_by state.packetStream.length
decreasing_by exact consumePacketStream_lt _h

/-- What the handler leaves: the session, its events, and whether it ends in the
call `do_read(state)` that arms the next read. -/
structure Handled where
  state : State
  events : List Event
  rearmed : Bool

/-- The handler, on a completion with error code `ec` and `length` bytes read. -/
def onRead (z : Zlib) (state : State) (ec : Bool) (read : List UInt8) : Handled :=
  if ec then ⟨state, [.disconnect], false⟩
  else
    let state := { state with packetStream := state.packetStream ++ read }
    match consumeLoop z state [] with
    -- `Disconnect` and `return`: no read is armed any more
    | (.invalid, state, events) => ⟨state, events ++ [.disconnect], false⟩
    | (_, state, events) => ⟨state, events, true⟩

/-! ## §3. A session reading. -/

/-- Where the reader of a session is: a read is outstanding, the handler is in
its loop, or it returned without arming another read. -/
inductive Phase where
  | reading
  | draining
  | closed
  deriving Repr, DecidableEq

/-- A session, the events raised so far, and the bytes appended so far. -/
structure Config where
  state : State
  phase : Phase
  events : List Event
  received : List UInt8
  deriving Repr, DecidableEq

/-- `Session::start`: a fresh state, `Event::Connect`, and the first read. -/
def start : Config := ⟨{}, .reading, [.connect], []⟩

/-- One read completes and its handler runs to the end; without an outstanding
read nothing is read. -/
def deliver (z : Zlib) (c : Config) (read : ReadBytes) : Config :=
  match c.phase with
  | .reading =>
      let r := onRead z c.state false read.bytes
      ⟨r.state, if r.rearmed then .reading else .closed, c.events ++ r.events,
        c.received ++ read.bytes⟩
  | _ => c

/-- A fresh session after a sequence of reads. -/
def run (z : Zlib) (reads : List ReadBytes) : Config := reads.foldl (deliver z) start

/-! ## §4. The session in small steps. -/

inductive Action where
  /-- The outstanding read completes with these bytes. -/
  | read (read : ReadBytes)
  /-- The outstanding read completes with an error. -/
  | readError
  /-- The loop of the handler makes one call. -/
  | consume

def step (z : Zlib) (c : Config) : Action → Option Config
  | .read read =>
      if c.phase = .reading then
        some { c with
          state := { c.state with packetStream := c.state.packetStream ++ read.bytes }
          phase := .draining
          received := c.received ++ read.bytes }
      else none
  | .readError =>
      if c.phase = .reading then
        some { c with phase := .closed, events := c.events ++ [.disconnect] }
      else none
  | .consume =>
      if c.phase = .draining then
        match consumePacketStream z c.state with
        | (.ok, state, evs) => some { c with state := state, events := c.events ++ evs }
        | (.invalid, state, evs) =>
            some { c with
              state := state, phase := .closed, events := c.events ++ evs ++ [.disconnect] }
        | (.needMoreData, state, evs) =>
            some { c with state := state, phase := .reading, events := c.events ++ evs }
      else none

/-- A session of the server, as its reads complete. -/
def system (z : Zlib) : Transition.System Config Action := ⟨start, step z⟩

end Bancho.Reader
