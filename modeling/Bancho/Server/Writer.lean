/-
  Bancho.Server.Writer
  ────────────────────
  `Writer.h`: the queue of outgoing packets of a session, and the one
  `async_write` that is to be in flight.

  §1  `do_write`, its completion handler, and `enqueue`, for whatever a session is
      and whatever starting an `async_write` does to it (`HasAsyncWrite`).
      `front()` and `pop()` of an empty `std::queue` are undefined: here they are
      `none`;
  §2  a session writing: calls of `enqueue` and completions in any order.

  An `async_write` is in flight until its handler has run: it does not run inside
  the call that starts the write, and it runs once.  Its buffer is the vector that
  was `front()` when it was started.
-/
import Bancho.Library.Transition
import Bancho.Server.Session

namespace Bancho.Writer

open Session

/-! ## §1. The functions of the header. -/

/-- What the functions of the header work on: a session, of which they read and
write the `State`, and on which they start an `async_write` of a buffer. -/
class HasAsyncWrite (C : Type) where
  state : C → State
  withState : C → State → C
  asyncWrite : C → List UInt8 → C
  state_withState : ∀ c s, state (withState c s) = s
  withState_withState : ∀ c s s', withState (withState c s) s' = withState c s'

open HasAsyncWrite (state withState asyncWrite)

section Header

variable {C : Type} [HasAsyncWrite C]

/-- `do_write`: start an `async_write` of `write_queue.front()`. -/
def doWrite (c : C) : Option C :=
  match (state c).writeQueue with
  | [] => none
  | front :: _ => some (asyncWrite c front)

/-- The completion handler of `do_write`, on a completion with error code `ec`. -/
def onWrite (c : C) (ec : Bool) : Option C :=
  match (state c).writeQueue with
  | [] => none
  | _ :: queue =>
      let c := withState c { state c with writeQueue := queue }
      if !ec && !queue.isEmpty then doWrite c
      -- on an error too: the rest of the queue stays, with no write in flight
      else some (withState c { state c with writing := false })

def enqueue (c : C) (data : List UInt8) : Option C :=
  let c := withState c { state c with writeQueue := (state c).writeQueue ++ [data] }
  -- what is started is the front, which after an error may be an older vector
  if !(state c).writing then doWrite (withState c { state c with writing := true })
  else some c

end Header

/-! ## §2. A session writing. -/

/-- A session, the buffers of its writes in flight, and what came of the others:
the bytes put on the socket, the buffers written without an error, and the bytes
that failed writes did not send. -/
structure Config where
  state : State := {}
  outstanding : List (List UInt8) := []
  socketBytes : List UInt8 := []
  completed : List (List UInt8) := []
  unsent : List UInt8 := []
  deriving Repr, DecidableEq

instance : HasAsyncWrite Config where
  state := Config.state
  withState c s := { c with state := s }
  asyncWrite c buffer := { c with outstanding := c.outstanding ++ [buffer] }
  state_withState _ _ := rfl
  withState_withState _ _ _ := rfl

inductive Action where
  | enqueue (data : List UInt8)
  /-- Write number `op` of those in flight has sent its buffer. -/
  | complete (op : Nat)
  /-- It ends in an error, with the first `sent` bytes of its buffer sent. -/
  | fail (op sent : Nat)
  deriving Repr, DecidableEq

/-- Which actions can happen: any call, and the completion of a write in flight. -/
def Enabled (c : Config) : Action → Prop
  | .enqueue _ => True
  | .complete op => op < c.outstanding.length
  | .fail op sent => op < c.outstanding.length ∧ sent ≤ (c.outstanding.getD op []).length

instance (c : Config) : (a : Action) → Decidable (Enabled c a)
  | .enqueue _ => inferInstanceAs (Decidable True)
  | .complete op => inferInstanceAs (Decidable (op < c.outstanding.length))
  | .fail op sent => inferInstanceAs
      (Decidable (op < c.outstanding.length ∧ sent ≤ (c.outstanding.getD op []).length))

/-- What an action does: the bytes of a completed write are on the socket, then
its handler runs.  `none` is undefined behaviour. -/
def act (c : Config) : Action → Option Config
  | .enqueue data => enqueue c data
  | .complete op =>
      let buffer := c.outstanding.getD op []
      onWrite { c with
        outstanding := c.outstanding.eraseIdx op
        socketBytes := c.socketBytes ++ buffer
        completed := c.completed ++ [buffer] } false
  | .fail op sent =>
      let buffer := c.outstanding.getD op []
      onWrite { c with
        outstanding := c.outstanding.eraseIdx op
        socketBytes := c.socketBytes ++ buffer.take sent
        unsent := c.unsent ++ buffer.drop sent } true

/-- The writing side of a session. -/
def system : Transition.System Config Action where
  init := {}
  step c a := if Enabled c a then act c a else none

/-- The vectors enqueued by some actions, in order. -/
def enqueuedOf (as : List Action) : List (List UInt8) :=
  as.filterMap fun
    | .enqueue data => some data
    | _ => none

end Bancho.Writer
