/-
  Bancho.Server.SessionLog
  ────────────────────────
  A session reading, with what it logs: the line of each read, of which `read_buf`
  holds the bytes, and the lines of the events it raises.

  Each line needs the endpoint anew, and `remote_endpoint` may find it or not, so
  what it finds in a step is a part of the action.
-/
import Bancho.Server.Logger
import Bancho.Server.Reader

namespace Bancho.Logger

open Session

/-- A session, its `read_buf`, and the lines it has logged. -/
structure Logged where
  session : Reader.Config
  readBuf : List UInt8
  lines : List (Stream × List Char)

/-- An action of the reader, and what `remote_endpoint` finds in it. -/
structure Action where
  action : Reader.Action
  endpoint : Option (List Char)

/-- What is put into `read_buf`: the bytes behind those read stay. -/
def fill (readBuf : List UInt8) : Reader.Action → List UInt8
  | .read r => r.bytes ++ readBuf.drop r.bytes.length
  | _ => readBuf

/-- The line of the read, if the action is one. -/
def readLine (endpoint : Option (List Char)) (readBuf : List UInt8) :
    Reader.Action → Option (Stream × List Char)
  | .read r => logRawRead endpoint readBuf r.bytes.length
  | _ => none

def step (z : Zlib) (c : Logged) (a : Action) : Option Logged :=
  ((Reader.system z).step c.session a.action).map fun s =>
    let readBuf := fill c.readBuf a.action
    let raised := s.events.drop c.session.events.length
    { session := s
      readBuf := readBuf
      lines := c.lines ++ (readLine a.endpoint readBuf a.action).toList
        ++ raised.filterMap (event a.endpoint) }

/-- `start`, with anything in `read_buf`. -/
def start (endpoint : Option (List Char)) (readBuf : List UInt8) : Logged :=
  ⟨Reader.start, readBuf, (connect endpoint).toList⟩

/-- A session of the server as it logs what it reads. -/
def system (z : Zlib) (endpoint : Option (List Char)) (readBuf : List UInt8) :
    Transition.System Logged Action := ⟨start endpoint readBuf, step z⟩

end Bancho.Logger
