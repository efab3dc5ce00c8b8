/-
  Bancho.Server.Session
  ─────────────────────
  `Session.h`: the state of one client session.  The socket and the raw
  `read_buf` are not fields here: a completed read is the list of bytes it put at
  the front of `read_buf` (`ReadBytes`), and what happens on the socket is
  observed by the reader's events and the writer's configuration.
-/
import Bancho.Server.BanchoPacket

namespace Bancho

namespace Session

/-- Size of `read_buf`, the buffer of every `async_read_some`. -/
def maxLength : Nat := 1024

structure State where
  packetStream : List UInt8 := []
  writeQueue : List (List UInt8) := []
  legacyHeader : Option Bool := none
  writing : Bool := false
  deriving Repr, DecidableEq

/-- The bytes of one successful `async_read_some`: at least one, at most what
the buffer holds. -/
structure ReadBytes where
  bytes : List UInt8
  pos : 0 < bytes.length
  le : bytes.length ≤ maxLength

/-- The byte string that a sequence of reads brought. -/
def readsOf (reads : List ReadBytes) : List UInt8 := (reads.map ReadBytes.bytes).flatten

end Session

/-- The calls into `Server::Event`. -/
inductive Event where
  | connect
  | packet (packet : BanchoPacket.Packet)
  | disconnect
  deriving Repr, DecidableEq

/-- The packets handed to `Event::Packet`, in order. -/
def packetsOf (events : List Event) : List BanchoPacket.Packet :=
  events.filterMap fun
    | .packet p => some p
    | _ => none

@[simp] theorem packetsOf_append (es fs : List Event) :
    packetsOf (es ++ fs) = packetsOf es ++ packetsOf fs :=
  List.filterMap_append

@[simp] theorem packetsOf_disconnect : packetsOf [.disconnect] = [] := rfl

@[simp] theorem packetsOf_packet (p : BanchoPacket.Packet) : packetsOf [.packet p] = [p] := rfl

end Bancho
