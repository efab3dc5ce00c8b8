/-
  Bancho.Server.Server
  ────────────────────
  `Server.h`: the acceptor and the sessions it starts.  Each connection that is
  accepted is a session of its own, on a state and a socket of its own; the
  handlers of all of them run on the one `io_context`, in any order, each as one
  step.

  A session stays in the list after its `Disconnect`, where nothing more happens
  to it but the end of its writes.  Left out are the endpoint, and `listen` failing
  to bind it; that the `io_context` runs on several threads, on which handlers may
  overlap; and exceptions thrown by a handler, which would end its thread, and with
  it the program.
-/
import Bancho.Server.Connection

namespace Bancho.Server

/-- The server: how many `async_accept`s are outstanding, and the sessions started
so far, in order. -/
structure Config where
  accepts : Nat := 0
  sessions : List Connection.Config := []
  deriving Repr, DecidableEq

/-- `do_accept`. -/
def doAccept (c : Config) : Config := { c with accepts := c.accepts + 1 }

/-- The completion handler of `do_accept`. -/
def onAccept (c : Config) (ec : Bool) : Config :=
  doAccept (if !ec then { c with sessions := c.sessions ++ [Connection.start] } else c)

/-- `listen`. -/
def listen : Config := doAccept {}

inductive Action where
  /-- The outstanding `async_accept` completes, with error code `ec`. -/
  | accept (ec : Bool)
  /-- Something happens to session number `i`. -/
  | session (i : Nat) (a : Connection.Action)

def step (z : Zlib) (c : Config) : Action → Option Config
  | .accept ec =>
      if 0 < c.accepts then some (onAccept { c with accepts := c.accepts - 1 } ec) else none
  | .session i a =>
      c.sessions[i]?.bind fun s =>
        ((Connection.system z).step s a).map fun s' => { c with sessions := c.sessions.set i s' }

/-- The server, as connections come in and their reads and writes complete. -/
def system (z : Zlib) : Transition.System Config Action := ⟨listen, step z⟩

end Bancho.Server
