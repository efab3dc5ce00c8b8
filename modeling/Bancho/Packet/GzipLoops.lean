/-
  Bancho.Packet.GzipLoops
  ───────────────────────
  `gzip_decompress` and `gzip_compress` as runs of the two zlib machines.  Both
  loops end on every input (`pump` is total), so what they return is decided by
  what zlib did on the bytes it was given: those below the 32-bit `avail_in`.
-/
import Bancho.Server.BanchoPacket

namespace Bancho.BanchoPacket

open Streaming

/-- Below 2^32 bytes the cast to `uInt` loses nothing. -/
theorem take_uInt {data : List UInt8} (h : data.length < 2 ^ 32) :
    data.take (uInt data.length) = data := by
  rw [uInt, Nat.mod_eq_of_lt h, List.take_length]

/-- What is given to zlib always fits. -/
theorem length_take_uInt (data : List UInt8) : (data.take (uInt data.length)).length < 2 ^ 32 := by
  have hlt : data.length % 2 ^ 32 < 2 ^ 32 := Nat.mod_lt _ (by decide)
  rw [List.length_take, uInt]
  omega

/-- **`gzip_decompress` returns a value** exactly for the bytes that inflate
wrote up to `Z_STREAM_END`. -/
theorem gzipDecompress_some {z : Zlib} {payload content : List UInt8}
    (h : gzipDecompress z payload = some content) :
    ∃ rest, z.Inflates (payload.take (uInt payload.length)) content .streamEnd rest := by
  unfold gzipDecompress at h
  cases hs : z.inflate.start with
  | none =>
      rw [hs] at h
      exact nomatch h
  | some stream =>
      rw [hs] at h
      obtain ⟨out, rest, hrun, hout⟩ := Machine.pump_run tmpSize
        (by decide) stream (payload.take (uInt payload.length)) []
      simp only at h
      split at h
      next => exact nomatch h
      next hend =>
        rw [List.nil_append] at hout
        obtain rfl : out = content := hout.symm.trans (Option.some.inj h)
        exact ⟨rest, stream, hs, by rwa [not_not.mp hend] at hrun⟩

/-- If every run of inflate over the payload ends in `Z_STREAM_END` with the
same bytes, these are the result. -/
theorem gzipDecompress_of_runs {z : Zlib} {payload content : List UInt8}
    (hstart : z.inflate.start.isSome)
    (hruns : ∀ out st rest, z.Inflates (payload.take (uInt payload.length)) out st rest →
      st = .streamEnd ∧ out = content) :
    gzipDecompress z payload = some content := by
  obtain ⟨stream, hs⟩ := Option.isSome_iff_exists.mp hstart
  obtain ⟨out, rest, hrun, hout⟩ := Machine.pump_run tmpSize
    (by decide) stream (payload.take (uInt payload.length)) []
  -- the loop is one of these runs, so it collects the same bytes
  obtain ⟨hend, hcontent⟩ := hruns _ _ _ ⟨stream, hs, hrun⟩
  unfold gzipDecompress
  rw [hs]
  simp only [hend, hout, hcontent, List.nil_append, ne_eq, not_true, if_false]

/-- **`gzip_compress` returns** what deflate wrote for the bytes it was given. -/
theorem gzipCompress_some {z : Zlib} {content payload : List UInt8}
    (h : gzipCompress z content = some payload) :
    z.Deflates (content.take (uInt content.length)) payload := by
  unfold gzipCompress at h
  cases hs : z.deflate.start with
  | none =>
      rw [hs] at h
      exact nomatch h
  | some stream =>
      rw [hs] at h
      obtain ⟨out, rest, hrun, hout⟩ := Machine.pump_run tmpSize
        (by decide) stream (content.take (uInt content.length)) []
      simp only at h
      split at h
      next => exact nomatch h
      next hend =>
        rw [List.nil_append] at hout
        obtain rfl : out = payload := hout.symm.trans (Option.some.inj h)
        exact ⟨stream, rest, hs, by rwa [not_not.mp hend] at hrun⟩

/-- If every run of deflate over the content ends in `Z_STREAM_END` with the
same bytes, these are the result. -/
theorem gzipCompress_of_runs {z : Zlib} {content payload : List UInt8}
    (hstart : z.deflate.start.isSome)
    (hruns : ∀ s out st rest, z.deflate.start = some s →
      z.deflate.Run s (content.take (uInt content.length)) out st rest →
      st = .streamEnd ∧ out = payload) :
    gzipCompress z content = some payload := by
  obtain ⟨stream, hs⟩ := Option.isSome_iff_exists.mp hstart
  obtain ⟨out, rest, hrun, hout⟩ := Machine.pump_run tmpSize
    (by decide) stream (content.take (uInt content.length)) []
  obtain ⟨hend, hpayload⟩ := hruns _ _ _ _ hs hrun
  unfold gzipCompress
  rw [hs]
  simp only [hend, hout, hpayload, List.nil_append, ne_eq, not_true, if_false]

/-- **Inflating what was compressed** gives the bytes that deflate was given:
the content cut at its length modulo 2^32. -/
theorem gzipDecompress_compress {z : Zlib} (hz : z.InflateInvertsDeflate)
    {content payload : List UInt8} (h : gzipCompress z content = some payload)
    (hlen : payload.length < 2 ^ 32) :
    gzipDecompress z payload = some (content.take (uInt content.length)) := by
  obtain ⟨hstart, hruns⟩ := hz _ _ (length_take_uInt content) (gzipCompress_some h)
  refine gzipDecompress_of_runs hstart ?_
  rwa [take_uInt hlen]

end Bancho.BanchoPacket
