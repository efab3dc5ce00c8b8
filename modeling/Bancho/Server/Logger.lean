/-
  Bancho.Server.Logger
  ────────────────────
  `Logger.h` with its `Config.h`; `log_raw_read` of `Reader.h`, whose line shows a
  hexadecimal preview of what was read; and the lines of `Server::Event`.

  Text is the list of its characters.  The endpoint is asio's text for the remote
  address, `none` where the socket has none; the mutex is left out.
-/
import Bancho.Server.Session

namespace Bancho.Logger

inductive Category where
  | server
  | thread
  | connect
  | disconnect
  | packet
  | rawRead
  | error
  deriving Repr, DecidableEq

namespace Config

def server : Bool := true
def thread : Bool := true
def connect : Bool := true
def disconnect : Bool := true
def packet : Bool := true
def rawRead : Bool := true
def error : Bool := true

end Config

def isEnabled : Category → Bool
  | .server => Config.server
  | .thread => Config.thread
  | .connect => Config.connect
  | .disconnect => Config.disconnect
  | .packet => Config.packet
  | .rawRead => Config.rawRead
  | .error => Config.error

/-- `std::cout` and `std::cerr`. -/
inductive Stream where
  | cout
  | cerr
  deriving Repr, DecidableEq

/-- `log`: the line, and where it is written. -/
def log (category : Category) (args : List (List Char)) : Option (Stream × List Char) :=
  if !isEnabled category then none
  else some (if category = .error then .cerr else .cout, args.flatten ++ ['\n'])

/-! ## The raw read. -/

/-- `std::setw` with `std::setfill`. -/
def setw (width : Nat) (fill : Char) (text : List Char) : List Char :=
  List.replicate (width - text.length) fill ++ text

/-- `std::hex << std::setw(2) << static_cast<unsigned int>(…)`. -/
def hexByte (byte : UInt8) : List Char := setw 2 '0' (Nat.toDigits 16 byte.toNat)

def previewSize : Nat := 64

/-- The body of the loop, at index `i` of `read_buf`. -/
def previewStep (readBuf : List UInt8) (hex : List Char) (i : Nat) : List Char :=
  (if i ≠ 0 then hex ++ [' '] else hex) ++ hexByte (readBuf.getD i 0)

/-- `hex.str()`. -/
def preview (readBuf : List UInt8) (length : Nat) : List Char :=
  let bytesToLog := min length previewSize
  let hex := (List.range bytesToLog).foldl (previewStep readBuf) []
  if length > previewSize then hex ++ " ...".toList else hex

/-- `log_raw_read`. -/
def logRawRead (endpoint : Option (List Char)) (readBuf : List UInt8) (length : Nat) :
    Option (Stream × List Char) :=
  match endpoint with
  | some endpoint =>
      log .rawRead ["Raw read ".toList, Nat.toDigits 10 length, " bytes from ".toList, endpoint,
        ": ".toList, preview readBuf length]
  | none =>
      log .rawRead ["Raw read ".toList, Nat.toDigits 10 length, " bytes: ".toList,
        preview readBuf length]

/-! ## The events. -/

/-- `Event::Connect`. -/
def connect (endpoint : Option (List Char)) : Option (Stream × List Char) :=
  match endpoint with
  | some endpoint => log .connect ["Client connected ".toList, endpoint]
  | none => none

/-- `Event::Packet`. -/
def packet (endpoint : Option (List Char)) (packet : BanchoPacket.Packet) :
    Option (Stream × List Char) :=
  match endpoint with
  | some endpoint =>
      log .packet ["Packet ".toList, Nat.toDigits 10 packet.id.toNat, " from ".toList, endpoint,
        " (".toList, Nat.toDigits 10 packet.content.length, " bytes)".toList]
  | none =>
      log .packet ["Packet ".toList, Nat.toDigits 10 packet.id.toNat, " (".toList,
        Nat.toDigits 10 packet.content.length, " bytes)".toList]

/-- `Event::Disconnect`. -/
def disconnect (endpoint : Option (List Char)) : Option (Stream × List Char) :=
  match endpoint with
  | some endpoint => log .disconnect ["Client disconnected ".toList, endpoint]
  | none => log .disconnect ["Client disconnected (ERROR)".toList]

def event (endpoint : Option (List Char)) : Event → Option (Stream × List Char)
  | .connect => connect endpoint
  | .packet p => packet endpoint p
  | .disconnect => disconnect endpoint

end Bancho.Logger
