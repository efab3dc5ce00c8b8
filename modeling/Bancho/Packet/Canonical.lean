/-
  Bancho.Packet.Canonical
  ───────────────────────
  Uncompressed frames are canonical: the bytes the modern parser takes for one
  are the bytes `serialize_packet` writes for its packet.

      parse (b ++ t) = packet   ⟺   serialize packet = b

  The limits of the two functions are the same 4 MiB on the same payload, so
  nothing that is accepted fails to be written, up to and including the limit.

  Main result: `plain_canonical`.
-/
import Bancho.Packet.Payload

namespace Bancho.BanchoPacket

variable {z : Zlib} {s s' : List UInt8} {p p' q : Packet} {n n' : Nat}

/-- Without compression a content within the limit is its own payload. -/
theorem serializePacket_plain {packetId : UInt16} {content : List UInt8}
    (h : content.length ≤ maxContentSize.toNat) :
    serializePacket z packetId content false false
      = some (frameBytes false packetId false content) := by
  rw [serializePacket_some_iff]
  exact ⟨content, rfl, h, rfl⟩

/-- **Encoding undoes decoding.** -/
theorem serializePacket_of_parse (h : tryParsePacket z s p false = ⟨.ok, q, n⟩)
    (hq : q.compressed = false) :
    serializePacket z q.id q.content false false = some (s.take n) := by
  have hlen : q.content.length ≤ maxContentSize.toNat := by
    rw [ok_plain h hq]
    exact (ok_payload h).2.2
  obtain ⟨-, hframe⟩ := ok_frameBytes h hq
  rw [hframe]
  exact serializePacket_plain hlen

/-- **Decoding undoes encoding**, whatever follows. -/
theorem parse_of_serializePacket {packetId : UInt16} {content b : List UInt8}
    (h : serializePacket z packetId content false false = some b) (t : List UInt8) (p : Packet) :
    tryParsePacket z (b ++ t) p false = ⟨.ok, ⟨packetId, false, content⟩, b.length⟩ := by
  obtain ⟨payload, hpayload, hlen, rfl⟩ := serializePacket_some_iff.mp h
  obtain rfl : content = payload := Option.some.inj hpayload
  exact parse_frameBytes hlen rfl t p

/-- The frames the modern parser accepts uncompressed are what the serializer
writes, with anything behind. -/
theorem parse_plain_iff {packetId : UInt16} {content : List UInt8} :
    tryParsePacket z s p false = ⟨.ok, ⟨packetId, false, content⟩, n⟩
      ↔ ∃ b t, serializePacket z packetId content false false = some b
          ∧ s = b ++ t ∧ n = b.length := by
  constructor
  · intro h
    have hn := (consumedBytes_bounds h).2
    refine ⟨s.take n, s.drop n, serializePacket_of_parse h rfl, ?_, ?_⟩
    · rw [List.take_append_drop]
    · rw [List.length_take_of_le hn]
  · intro h
    obtain ⟨b, t, hb, rfl, rfl⟩ := h
    exact parse_of_serializePacket hb t p

/-- One packet, one frame. -/
theorem plain_frame_unique (h : tryParsePacket z s p false = ⟨.ok, q, n⟩)
    (h' : tryParsePacket z s' p' false = ⟨.ok, q, n'⟩) (hq : q.compressed = false) :
    s.take n = s'.take n' := by
  have hb := serializePacket_of_parse h hq
  have hb' := serializePacket_of_parse h' hq
  exact Option.some.inj (hb.symm.trans hb')

/-- **Uncompressed frames are canonical.**  Serializing what was parsed gives the
bytes that were parsed; the parser accepts exactly what the serializer writes,
followed by anything; and no two frames carry the same packet. -/
theorem plain_canonical (z : Zlib) :
    (∀ s p q n, tryParsePacket z s p false = ⟨.ok, q, n⟩ → q.compressed = false →
        serializePacket z q.id q.content false false = some (s.take n))
      ∧ (∀ s p packetId content n,
        tryParsePacket z s p false = ⟨.ok, ⟨packetId, false, content⟩, n⟩
          ↔ ∃ b t, serializePacket z packetId content false false = some b
              ∧ s = b ++ t ∧ n = b.length)
      ∧ ∀ s s' p p' q n n', tryParsePacket z s p false = ⟨.ok, q, n⟩ →
          tryParsePacket z s' p' false = ⟨.ok, q, n'⟩ → q.compressed = false →
          s.take n = s'.take n' := by
  refine ⟨?_, ?_, ?_⟩
  · intro s p q n h hq
    exact serializePacket_of_parse h hq
  · intro s p packetId content n
    exact parse_plain_iff
  · intro s s' p p' q n n' h h' hq
    exact plain_frame_unique h h' hq

/-- A frame of one byte, with one byte behind it. -/
theorem plain_canonical_oneByte :
    serializePacket fixedZlib 1 [7] false false = some [1, 0, 0, 1, 0, 0, 0, 7] :=
  (plain_canonical fixedZlib).1 [1, 0, 0, 1, 0, 0, 0, 7, 9] {} ⟨1, false, [7]⟩ 8
    (by decide +kernel) rfl

end Bancho.BanchoPacket
