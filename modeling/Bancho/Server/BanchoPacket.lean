/-
  Bancho.Server.BanchoPacket
  ──────────────────────────
  `BanchoPacket.h`: the wire format of a packet, its parser and its serializer,
  and the two gzip loops they use.

      modern header   id:u16le  compressed:u8  content_size:u32le     (7 bytes)
      legacy header   id:u16le                 content_size:u32le     (6 bytes)

  `content_size` counts the payload on the wire.  A legacy payload is always
  gzip; a modern one is gzip when the third byte is not 0.

  A byte vector is a `List UInt8`, its `size()` is the length; `const uint8_t*`
  arguments are the bytes from the pointer on.  Every read of a byte takes a
  proof that the index is inside the vector.
-/
import Bancho.Server.Zlib

namespace Bancho.BanchoPacket

open Streaming

/-! ## §1. Data. -/

inductive ParseStatus where
  | needMoreData
  | ok
  | invalid
  deriving Repr, DecidableEq

structure Packet where
  id : UInt16 := 0
  compressed : Bool := false
  content : List UInt8 := []
  deriving Repr, DecidableEq

def modernHeaderSize : Nat := 7
def legacyHeaderSize : Nat := 6
def maxContentSize : UInt32 := 4 * 1024 * 1024

/-- `legacy_header ? legacy_header_size : modern_header_size`. -/
def headerSize (legacyHeader : Bool) : Nat :=
  if legacyHeader then legacyHeaderSize else modernHeaderSize

/-! ## §2. Little-endian fields. -/

def readU16Le (data : List UInt8) (h : 2 ≤ data.length) : UInt16 :=
  data[0].toUInt16 ||| (data[1].toUInt16 <<< 8)

def readU32Le (data : List UInt8) (h : 4 ≤ data.length) : UInt32 :=
  data[0].toUInt32 ||| (data[1].toUInt32 <<< 8)
    ||| (data[2].toUInt32 <<< 16) ||| (data[3].toUInt32 <<< 24)

def appendU16Le (out : List UInt8) (value : UInt16) : List UInt8 :=
  out ++ [(value &&& 0xFF).toUInt8, ((value >>> 8) &&& 0xFF).toUInt8]

def appendU32Le (out : List UInt8) (value : UInt32) : List UInt8 :=
  out ++ [(value &&& 0xFF).toUInt8, ((value >>> 8) &&& 0xFF).toUInt8,
    ((value >>> 16) &&& 0xFF).toUInt8, ((value >>> 24) &&& 0xFF).toUInt8]

/-! ## §3. The gzip loops. -/

/-- `sizeof(tmp)`. -/
def tmpSize : Nat := 4096

/-- `static_cast<uInt>(length)`: zlib's `uInt` has 32 bits. -/
def uInt (length : Nat) : Nat := length % 2 ^ 32

/-- `gzip_decompress(data, data.size())`. -/
def gzipDecompress (z : Zlib) (data : List UInt8) : Option (List UInt8) :=
  match z.inflate.start with
  | none => none
  | some stream =>
      -- only the first `avail_in` bytes are shown to inflate
      let (status, output) :=
        z.inflate.pump tmpSize stream (data.take (uInt data.length)) []
      if status ≠ .streamEnd then none else some output

/-- `gzip_compress(data, data.size())`. -/
def gzipCompress (z : Zlib) (data : List UInt8) : Option (List UInt8) :=
  match z.deflate.start with
  | none => none
  | some stream =>
      -- only the first `avail_in` bytes are shown to deflate
      let (status, output) :=
        z.deflate.pump tmpSize stream (data.take (uInt data.length)) []
      if status ≠ .streamEnd then none else some output

/-! ## §4. Parser and serializer. -/

/-- What `try_parse_packet` returns and leaves in its two out-parameters. -/
structure ParseResult where
  status : ParseStatus
  packet : Packet
  consumedBytes : Nat
  deriving Repr, DecidableEq

/-- `try_parse_packet`; `packet` is the value the out-parameter comes in with. -/
def tryParsePacket (z : Zlib) (stream : List UInt8) (packet : Packet)
    (legacyHeader : Bool) : ParseResult :=
  if hsize : stream.length < headerSize legacyHeader then
    ⟨.needMoreData, packet, 0⟩
  else
    -- past the first check every header byte can be read
    have h7 : legacyHeader = false → 7 ≤ stream.length := by
      intro hl
      simp only [headerSize, hl, modernHeaderSize] at hsize
      simpa using hsize
    have h6 : 6 ≤ stream.length := by
      simp only [headerSize, legacyHeaderSize, modernHeaderSize] at hsize
      split at hsize <;> omega
    let packet := { packet with
      id := readU16Le stream (by omega)
      compressed := legacyHeader || stream[2] != 0 }
    -- the length field follows the flag byte, which a legacy header does not have
    let contentSize := readU32Le (stream.drop (if legacyHeader then 2 else 3)) (by
      cases legacyHeader
      · have := h7 rfl
        simp only [List.length_drop, Bool.false_eq_true, if_false]
        omega
      · simp only [List.length_drop, if_true]
        omega)
    if contentSize > maxContentSize then
      ⟨.invalid, packet, 0⟩
    else
      -- a `std::size_t` sum of at most 4 MiB and 7, so it does not wrap
      let packetSize := headerSize legacyHeader + contentSize.toNat
      if stream.length < packetSize then
        ⟨.needMoreData, packet, 0⟩
      else
        let payload := (stream.drop (headerSize legacyHeader)).take contentSize.toNat
        if !packet.compressed then
          ⟨.ok, { packet with content := payload }, packetSize⟩
        else
          match gzipDecompress z payload with
          | none => ⟨.invalid, packet, 0⟩
          | some decompressed => ⟨.ok, { packet with content := decompressed }, packetSize⟩

def serializePacket (z : Zlib) (packetId : UInt16) (content : List UInt8)
    (compress legacyHeader : Bool) : Option (List UInt8) :=
  let compressed := if compress || legacyHeader then gzipCompress z content else some content
  match compressed with
  | none => none
  | some payload =>
      -- the limit is one on the wire: it is tested on what was compressed
      if payload.length > maxContentSize.toNat then none
      else
        let out := appendU16Le [] packetId
        let out := if !legacyHeader then out ++ [if compress then 1 else 0] else out
        let out := appendU32Le out (UInt32.ofNat payload.length)
        some (out ++ payload)

end Bancho.BanchoPacket
