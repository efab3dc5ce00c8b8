/-
  Bancho.Packet.Decompress
  ────────────────────────
  The loop of `gzip_decompress` against the contract of inflate.

      while (status == Z_OK)  inflate into 4096 bytes, append what was written

  The loop looks at nothing but the code: it stops on truncated input because a
  call without progress is not `Z_OK`, and goes on when the buffer was filled
  exactly because such a call is.  What it collects is what one call with room
  for everything would have written, so the 4096 do not show.

  Main result: `gzipDecompress_returns` — the loop ends, and returns a value
  exactly when the payload begins with a complete valid gzip member, which is
  then its data.
-/
import Bancho.Server.FixedZlib

namespace Bancho.BanchoPacket

open Streaming

/-- **The loop ends**: within one call more than there is input to take and output
to come. -/
theorem gzipDecompress_pumpFor {z : Zlib} {stream : z.inflate.State} {payload : List UInt8}
    (hstart : z.inflate.start = some stream) (hlen : payload.length < 2 ^ 32) :
    ∃ status output,
      z.inflate.pumpFor tmpSize (z.inflate.work stream payload + 1) stream
          payload [] = some (status, output)
        ∧ gzipDecompress z payload = if status ≠ .streamEnd then none else some output := by
  have hpump := z.inflate.pumpFor_eq tmpSize
    (z.inflate.work stream payload + 1) stream payload [] (Nat.lt_succ_self _)
  refine ⟨_, _, hpump, ?_⟩
  unfold gzipDecompress
  rw [hstart, take_uInt hlen]

section Member

variable {z : Zlib} {Member : List UInt8 → List UInt8 → Prop}

/-- What the loop returns is the data of a member at the front of the payload. -/
theorem member_of_gzipDecompress (hmember : z.DecodesMembers Member) (hdiv : z.IgnoresDivision)
    {payload content : List UInt8} (hlen : payload.length < 2 ^ 32)
    (h : gzipDecompress z payload = some content) :
    ∃ member rest, payload = member ++ rest ∧ Member member content := by
  obtain ⟨rest, stream, hstart, hrun⟩ := gzipDecompress_some h
  rw [take_uInt hlen] at hrun
  -- the calls of the loop against one call with room for all the output
  obtain ⟨hend, hsame⟩ := hdiv hstart hrun
    (Nat.lt_succ_self (z.inflate.outputBound stream payload))
  have hdata := hmember.only hstart (hend.mpr rfl)
  rw [hsame rfl] at hdata
  exact ⟨_, _, (List.take_append_drop _ payload).symm, hdata⟩

/-- A member at the front of the payload is returned, whatever follows it. -/
theorem gzipDecompress_of_member (hmember : z.DecodesMembers Member) (hdiv : z.IgnoresDivision)
    {stream : z.inflate.State} (hstart : z.inflate.start = some stream)
    {member content rest : List UInt8} (hlen : (member ++ rest).length < 2 ^ 32)
    (h : Member member content) : gzipDecompress z (member ++ rest) = some content := by
  apply gzipDecompress_of_runs
  · rw [hstart]
    rfl
  · intro out st left hruns
    obtain ⟨s, hs, hrun⟩ := hruns
    rw [take_uInt hlen] at hrun
    -- room for the content and for whatever the stream could write
    have hroom : content.length
        < z.inflate.outputBound s (member ++ rest) + content.length + 1 := by omega
    have hbound : z.inflate.outputBound s (member ++ rest)
        < z.inflate.outputBound s (member ++ rest) + content.length + 1 := by omega
    obtain ⟨hend, -, hdata⟩ := hmember.reaches rest hs h hroom
    obtain ⟨hsame, hout⟩ := hdiv hs hrun hbound
    have hst : st = .streamEnd := hsame.mp hend
    exact ⟨hst, (hout hst).symm.trans hdata⟩

end Member

/-- **`gzip_decompress`**, for any inflate that meets its contract and any payload
within the limit: the loop ends, and it returns a value exactly when some prefix
of the payload is a complete valid gzip member, the value being its data. -/
theorem gzipDecompress_returns (z : Zlib) (Member : List UInt8 → List UInt8 → Prop)
    (hmember : z.DecodesMembers Member) (hdiv : z.IgnoresDivision) (stream : z.inflate.State)
    (hstart : z.inflate.start = some stream) (payload : List UInt8)
    (hlen : payload.length ≤ maxContentSize.toNat) :
    (∃ status output,
      z.inflate.pumpFor tmpSize (z.inflate.work stream payload + 1) stream
          payload [] = some (status, output)
        ∧ gzipDecompress z payload = if status ≠ .streamEnd then none else some output)
      ∧ ∀ content, gzipDecompress z payload = some content
          ↔ ∃ member rest, payload = member ++ rest ∧ Member member content := by
  have hsmall : payload.length < 2 ^ 32 := Nat.lt_of_le_of_lt hlen (by decide)
  refine ⟨gzipDecompress_pumpFor hstart hsmall, ?_⟩
  intro content
  constructor
  · intro h
    exact member_of_gzipDecompress hmember hdiv hsmall h
  · intro h
    obtain ⟨member, rest, hpayload, hdata⟩ := h
    rw [hpayload] at hsmall ⊢
    exact gzipDecompress_of_member hmember hdiv hstart hsmall hdata

/-- The member of one byte, followed by another byte. -/
theorem gzipDecompress_returns_oneByte :
    gzipDecompress fixedZlib (Gzip.encodeMember [1] ++ [9]) = some [1] := by
  have hmember : FixedZlib.Member (Gzip.encodeMember [1]) [1] := by
    have hdec := Gzip.decodeMember_encode [1] (by decide) []
    rw [List.append_nil] at hdec
    exact hdec
  exact ((gzipDecompress_returns fixedZlib FixedZlib.Member FixedZlib.decodesMembers
    FixedZlib.ignoresDivision (OneShot.reading []) rfl (Gzip.encodeMember [1] ++ [9])
    (by decide +kernel)).2 [1]).mpr ⟨_, _, rfl, hmember⟩

end Bancho.BanchoPacket
