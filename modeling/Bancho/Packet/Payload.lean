/-
  Bancho.Packet.Payload
  ─────────────────────
  What becomes of the payload of an accepted packet.

      frame  =  header  payload            payload.size() = content_size
      payload  =  member  rest             when the packet is compressed

  An uncompressed payload is the content.  Of a compressed one, inflate decides
  where the data ends: the content is that of the member it read, and whatever
  follows the member inside the payload is consumed with the frame and ignored;
  `avail_in` is not looked at.  The size limit is one on the payload.

  Main results:
    * `ok_frameBytes`  — an uncompressed frame is the bytes of its packet;
    * `ok_member`      — a compressed packet is the first member of its payload;
    * `content_length` — the content of a packet within the limit, or the
      expansion of one.
-/
import Bancho.Packet.RoundTrip

namespace Bancho.BanchoPacket

open Streaming LittleEndian

variable {z : Zlib} {s : List UInt8} {p q : Packet} {l : Bool} {n : Nat}

/-- The bytes of an `Ok` are a header and a payload within the limit. -/
theorem ok_payload (h : tryParsePacket z s p l = ⟨.ok, q, n⟩) :
    s.take n = s.take (headerSize l) ++ payloadField l s
      ∧ n = headerSize l + (payloadField l s).length
      ∧ (payloadField l s).length ≤ maxContentSize.toNat := by
  obtain ⟨c, hc, -, -, rfl⟩ := (tryParsePacket_ok_iff z s p q l n).mp h
  have hlen := length_payloadField l s hc.2
  rw [hlen]
  refine ⟨?_, rfl, hc.1⟩
  rw [payloadField, frameSize, List.take_add]

theorem ok_plain (h : tryParsePacket z s p l = ⟨.ok, q, n⟩) (hq : q.compressed = false) :
    q.content = payloadField l s := by
  obtain ⟨c, -, hs, rfl, -⟩ := (tryParsePacket_ok_iff z s p q l n).mp h
  have hflag : flagField l s = false := hq
  rw [contentOf, hflag] at hs
  exact (Option.some.inj hs).symm

/-- A modern header with flag byte 0 is the bytes of its fields. -/
theorem take_header (hlen : 7 ≤ s.length) (hflag : flagField false s = false) :
    s.take 7 = bytesOf 2 (idField s).toNat ++ [0] ++ bytesOf 4 (sizeField false s) := by
  have hid : bytesOf 2 (idField s).toNat = s.take 2 := by
    have htwo : (s.take 2).length = 2 := List.length_take_of_le (by omega)
    have hback := bytesOf_valueOf (s.take 2)
    rw [htwo] at hback
    rw [idField_toNat (by omega), hback]
  have hsize : bytesOf 4 (sizeField false s) = (s.drop 3).take 4 := by
    have hfour : ((s.drop 3).take 4).length = 4 := by
      rw [List.length_take, List.length_drop]
      omega
    have hback := bytesOf_valueOf ((s.drop 3).take 4)
    rw [hfour] at hback
    exact hback
  have hzero : [0] = (s.drop 2).take 1 := by
    have hthree : 2 < s.length := by omega
    unfold flagField at hflag
    rw [List.getD_eq_getElem _ _ hthree] at hflag
    have hbyte : s[2] = 0 := by simpa using hflag
    rw [List.drop_eq_getElem_cons hthree, hbyte]
    rfl
  rw [hid, hsize, hzero, ← List.take_add, ← List.take_add]

/-- **An uncompressed frame is the bytes of its packet**: only the modern format
has one. -/
theorem ok_frameBytes (h : tryParsePacket z s p l = ⟨.ok, q, n⟩) (hq : q.compressed = false) :
    l = false ∧ s.take n = frameBytes false q.id false q.content := by
  obtain ⟨hframe, -, -⟩ := ok_payload h
  have hplain := ok_plain h hq
  obtain ⟨c, hc, -, rfl, -⟩ := (tryParsePacket_ok_iff z s p q l n).mp h
  have hflag : flagField l s = false := hq
  have hl : l = false := by
    cases l with
    | false => rfl
    | true => exact nomatch hflag
  subst hl
  have hsize := length_payloadField false s hc.2
  refine ⟨rfl, ?_⟩
  rw [hframe, hplain]
  show s.take 7 ++ _ = _
  rw [take_header hc.headerSize_le hflag, ← hsize]
  rfl

/-- The content of a compressed packet is what inflate wrote for its payload. -/
theorem ok_inflates (h : tryParsePacket z s p l = ⟨.ok, q, n⟩) (hq : q.compressed = true) :
    ∃ rest, z.Inflates (payloadField l s) q.content .streamEnd rest := by
  have hmax := (ok_payload h).2.2
  have hsmall : (payloadField l s).length < 2 ^ 32 := Nat.lt_of_le_of_lt hmax (by decide)
  obtain ⟨c, -, hs, rfl, -⟩ := (tryParsePacket_ok_iff z s p q l n).mp h
  have hflag : flagField l s = true := hq
  rw [contentOf, hflag, if_pos rfl] at hs
  obtain ⟨rest, hi⟩ := gzipDecompress_some hs
  rw [take_uInt hsmall] at hi
  exact ⟨rest, hi⟩

/-- **The size of a content**: a plain one is the payload; a compressed one is at
most the expansion of the payload. -/
theorem content_length {r : Nat} (hz : z.ExpandsAtMost r)
    (h : tryParsePacket z s p l = ⟨.ok, q, n⟩) :
    (q.compressed = false → q.content.length ≤ maxContentSize.toNat)
      ∧ (q.compressed = true → q.content.length ≤ r * maxContentSize.toNat) := by
  have hmax := (ok_payload h).2.2
  constructor
  · intro hq
    rw [ok_plain h hq]
    exact hmax
  · intro hq
    obtain ⟨rest, hi⟩ := ok_inflates h hq
    exact Nat.le_trans (hz _ _ _ hi) (Nat.mul_le_mul_left r hmax)

/-- **A compressed packet is the first member of its payload.**  The frame is a
header, a member and a rest; inflate reached `Z_STREAM_END` on them having
written the content and left the rest unread; the member alone inflates to the
content with nothing unread. -/
theorem ok_member (z : Zlib) (hz : z.StopsAtMemberEnd) (s : List UInt8) (p q : Packet) (n : Nat)
    (l : Bool) (h : tryParsePacket z s p l = ⟨.ok, q, n⟩) (hq : q.compressed = true) :
    ∃ member rest, s.take n = s.take (headerSize l) ++ (member ++ rest)
      ∧ n = headerSize l + (member ++ rest).length
      ∧ z.Inflates (member ++ rest) q.content .streamEnd rest
      ∧ z.Inflates member q.content .streamEnd [] := by
  obtain ⟨hframe, hn, -⟩ := ok_payload h
  obtain ⟨rest, hi⟩ := ok_inflates h hq
  obtain ⟨stream, hs, hrun⟩ := hi
  obtain ⟨member, hpayload⟩ := hrun.suffix
  -- what inflate left unread is a tail of the payload; the member is what is before it
  rw [← hpayload] at hframe hn hrun
  exact ⟨member, rest, hframe, hn, ⟨stream, hs, hrun⟩, hz member q.content rest ⟨stream, hs, hrun⟩⟩

/-- A payload of two members, of one byte each. -/
def twoMembers : List UInt8 := Gzip.encodeMember [1] ++ Gzip.encodeMember [2]

theorem decode_twoMembers : Gzip.decodeMember twoMembers = some ([1], Gzip.encodeMember [2]) :=
  Gzip.decodeMember_encode [1] (by decide) _

theorem parse_twoMembers :
    tryParsePacket fixedZlib (frameBytes false 1 true twoMembers) {} false
      = ⟨.ok, ⟨1, true, [1]⟩, (frameBytes false 1 true twoMembers).length⟩ := by
  have hgzip : gzipDecompress fixedZlib twoMembers = some [1] := by
    rw [FixedZlib.gzipDecompress_eq (by decide +kernel), decode_twoMembers]
    rfl
  exact parse_gzipFrame (by decide +kernel) hgzip {}

theorem ok_member_twoMembers :
    ∃ member rest, (frameBytes false 1 true twoMembers).take
        (frameBytes false 1 true twoMembers).length
          = (frameBytes false 1 true twoMembers).take 7 ++ (member ++ rest)
      ∧ (frameBytes false 1 true twoMembers).length = 7 + (member ++ rest).length
      ∧ fixedZlib.Inflates (member ++ rest) [1] .streamEnd rest
      ∧ fixedZlib.Inflates member [1] .streamEnd [] :=
  ok_member fixedZlib FixedZlib.stopsAtMemberEnd _ {} ⟨1, true, [1]⟩ _ false parse_twoMembers rfl

/-- **The second member is dropped**: the packet is accepted with the content of
the first, and the only way inflate ends on the payload leaves the second one
unread. -/
theorem second_member_ignored :
    tryParsePacket fixedZlib (frameBytes false 1 true twoMembers) {} false
        = ⟨.ok, ⟨1, true, [1]⟩, (frameBytes false 1 true twoMembers).length⟩
      ∧ fixedZlib.Inflates twoMembers [1] .streamEnd (Gzip.encodeMember [2])
      ∧ ¬ fixedZlib.Inflates twoMembers [1] .streamEnd [] := by
  refine ⟨parse_twoMembers, FixedZlib.inflates_of_decode decode_twoMembers, ?_⟩
  intro hall
  rcases FixedZlib.inflates_cases hall with ⟨-, hd⟩ | ⟨hend, -⟩
  · have hrest : Gzip.encodeMember [2] = [] :=
      (Prod.mk.inj (Option.some.inj (decode_twoMembers.symm.trans hd))).2
    exact absurd hrest (by decide +kernel)
  · exact nomatch hend

end Bancho.BanchoPacket
