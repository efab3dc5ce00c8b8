/-
  Bancho.Server.Zlib
  ──────────────────
  The part of zlib that `BanchoPacket.h` calls, as a parameter: two streaming
  machines over bytes, `inflate` and `deflate`, both set up for the gzip wrapper
  (`16 + MAX_WBITS`).  zlib is not part of the repository, so nothing is said
  here about the compressed format; what a result needs of zlib is a named
  property of the parameter: of whole runs (§2), or call by call (§3, §4).
-/
import Bancho.Library.Streaming

namespace Bancho

open Streaming

/-- The flush argument of a zlib call (the two values the code passes). -/
inductive Flush where
  | noFlush
  | finish
  deriving Repr, DecidableEq

namespace Zlib

/-! ## §1. What the code asks of zlib. -/

/-- `gzip_decompress` passes `Z_NO_FLUSH` on every call. -/
def inflateFlush (_avail_in : List UInt8) : Flush := .noFlush

/-- `gzip_compress` passes `stream.avail_in > 0 ? Z_NO_FLUSH : Z_FINISH`. -/
def deflateFlush (avail_in : List UInt8) : Flush :=
  if avail_in.length > 0 then .noFlush else .finish

theorem deflateFlush_nil : deflateFlush [] = .finish := rfl

theorem deflateFlush_of_ne_nil {avail_in : List UInt8} (h : avail_in ≠ []) :
    deflateFlush avail_in = .noFlush := by
  unfold deflateFlush
  rw [if_pos (List.length_pos_iff.mpr h)]

end Zlib

/-- zlib as the server sees it: two machines, each called with the flush argument
that its loop passes.  `inflate.start` is the outcome of
`inflateInit2(&stream, 16 + MAX_WBITS)` and `deflate.start` that of
`deflateInit2(.., 16 + MAX_WBITS, ..)`: `none` stands for a code other than
`Z_OK`. -/
structure Zlib where
  inflate : Machine Zlib.inflateFlush UInt8
  deflate : Machine Zlib.deflateFlush UInt8

namespace Zlib

variable (z : Zlib)

/-- `Inflates payload out st rest`: inflate, started and called on `payload`
with output buffers of any sizes, wrote `out`, ended with code `st`, and left
`rest` in `avail_in`. -/
def Inflates (payload out : List UInt8) (st : Status) (rest : List UInt8) : Prop :=
  ∃ s, z.inflate.start = some s ∧ z.inflate.Run s payload out st rest

/-- `Deflates data payload`: deflate, started and fed `data` and then finished,
reached `Z_STREAM_END` having written `payload`. -/
def Deflates (data payload : List UInt8) : Prop :=
  ∃ s rest, z.deflate.start = some s
    ∧ z.deflate.Run s data payload .streamEnd rest

/-! ## §2. Documented behaviour, as named assumptions. -/

/-- In gzip mode inflate reaches `Z_STREAM_END` only on input that begins with
the gzip magic bytes. -/
def AcceptsOnlyGzip : Prop :=
  ∀ payload out rest, z.Inflates payload out .streamEnd rest →
    ∃ tail, payload = 0x1f :: 0x8b :: tail

/-- inflate inverts deflate on what deflate was given through the 32-bit
`avail_in`: it can be set up, and however it is driven over the payload it ends
in `Z_STREAM_END` having written the data. -/
def InflateInvertsDeflate : Prop :=
  ∀ data payload, data.length < 2 ^ 32 → z.Deflates data payload →
    z.inflate.start.isSome
      ∧ ∀ out st rest, z.Inflates payload out st rest → st = .streamEnd ∧ out = data

/-- A payload inflates to at most `r` times its length. -/
def ExpandsAtMost (r : Nat) : Prop :=
  ∀ payload out rest, z.Inflates payload out .streamEnd rest →
    out.length ≤ r * payload.length

/-- inflate stops at the end of the first gzip member: the bytes it left unread
played no part, and it would have ended the same way without them. -/
def StopsAtMemberEnd : Prop :=
  ∀ member out rest, z.Inflates (member ++ rest) out .streamEnd rest →
    z.Inflates member out .streamEnd []

/-! ## §3. The contract of inflate, call by call. -/

/-- One call of a fresh inflate with room to spare decodes the gzip member at the
front of its input and leaves what follows it; and what it reports the end of is
a member.  `Member m d`: the bytes `m` are a complete valid gzip member with the
data `d`. -/
structure DecodesMembers (Member : List UInt8 → List UInt8 → Prop) : Prop where
  reaches : ∀ {s member data} (rest : List UInt8) {room}, z.inflate.start = some s →
    Member member data → data.length < room →
    (z.inflate.call s .noFlush (member ++ rest) room).status = .streamEnd
      ∧ (z.inflate.call s .noFlush (member ++ rest) room).consumed = member.length
      ∧ (z.inflate.call s .noFlush (member ++ rest) room).produced = data
  only : ∀ {s payload room}, z.inflate.start = some s →
    (z.inflate.call s .noFlush payload room).status = .streamEnd →
    Member (payload.take (z.inflate.call s .noFlush payload room).consumed)
      (z.inflate.call s .noFlush payload room).produced

/-- The division of the output space makes no difference: calls with any room end
in `Z_STREAM_END` exactly when one call with room for all the output does, and
then they have written the same. -/
def IgnoresDivision : Prop :=
  ∀ {s payload out st rest room}, z.inflate.start = some s →
    z.inflate.Run s payload out st rest → z.inflate.outputBound s payload < room →
    ((z.inflate.call s .noFlush payload room).status = .streamEnd ↔ st = .streamEnd)
      ∧ (st = .streamEnd → (z.inflate.call s .noFlush payload room).produced = out)

/-! ## §4. The contract of deflate, call by call. -/

/-- Where a deflate stream is: it takes input; it was given `Z_FINISH`, with `left`
bytes of input not taken yet; or it returned `Z_STREAM_END`. -/
inductive DeflatePhase where
  | taking
  | finishing (left : Nat)
  | done
  deriving Repr, DecidableEq

/-- What zlib promises of deflate to a caller that leaves it room in the output
and, after the first `Z_FINISH`, passes `Z_FINISH` and no new input.  Nothing is
promised to a caller that does otherwise.  `pending` is the output that stands
ready to be written: in a stream that is finishing, all that is still to come. -/
structure DeflateContract (m : Machine deflateFlush UInt8) where
  phase : m.State → DeflatePhase
  pending : m.State → Nat
  fresh : ∀ {s}, m.start = some s → phase s = .taking
  /-- Progress while input or pending output remains. -/
  noFlush : ∀ {s inp room}, phase s = .taking → 0 < room → inp ≠ [] ∨ 0 < pending s →
    (m.call s .noFlush inp room).status = .ok
      ∧ phase (m.call s .noFlush inp room).next = .taking
  /-- `Z_FINISH` is `Z_OK` while output is pending, and `Z_STREAM_END` when all the
  input has been taken and all the output written. -/
  finish : ∀ {s inp room}, phase s = .taking ∨ phase s = .finishing inp.length → 0 < room →
    ((m.call s .finish inp room).status = .ok
        ∧ 0 < pending (m.call s .finish inp room).next
        ∧ phase (m.call s .finish inp room).next
          = .finishing (inp.length - (m.call s .finish inp room).consumed))
      ∨ ((m.call s .finish inp room).status = .streamEnd
        ∧ pending (m.call s .finish inp room).next = 0
        ∧ (m.call s .finish inp room).consumed = inp.length
        ∧ phase (m.call s .finish inp room).next = .done)

end Zlib

end Bancho
