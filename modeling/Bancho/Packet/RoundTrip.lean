/-
  Bancho.Packet.RoundTrip
  ───────────────────────
  `serialize_packet` and what `try_parse_packet` makes of its bytes.

      frameBytes l id flag payload  =  id  [flag]  payload.size()  payload

  A serialized packet is `frameBytes` of its wire payload, and the parser takes
  the fields of `frameBytes` apart again whatever follows (`parse_frameBytes`).
  So a round trip is one of the payload: what `gzip_decompress` makes of what
  `gzip_compress` returned.

  Main results:
    * `parse_serialize` — the round trip for contents below 2^32 bytes;
    * `serialize_parse_iff` — when it holds for contents of any length: the cast
      to the 32-bit `avail_in` cuts a longer content, and the cut one is sent
      unless it is too large itself.
-/
import Bancho.Packet.Verdict
import Bancho.Server.FixedZlib

namespace Bancho.BanchoPacket

open LittleEndian

/-! ## §1. The bytes of a frame. -/

/-- `payload` in `serialize_packet`, before the check of its size. -/
def wirePayload (z : Zlib) (content : List UInt8) (gzip : Bool) : Option (List UInt8) :=
  if gzip then gzipCompress z content else some content

def frameBytes (l : Bool) (packetId : UInt16) (compress : Bool) (payload : List UInt8) :
    List UInt8 :=
  bytesOf 2 packetId.toNat ++ (if l then [] else [if compress then 1 else 0])
    ++ bytesOf 4 payload.length ++ payload

theorem length_frameBytes (l : Bool) (packetId : UInt16) (compress : Bool)
    (payload : List UInt8) :
    (frameBytes l packetId compress payload).length = headerSize l + payload.length := by
  unfold frameBytes
  cases l
  · simp only [List.length_append, length_bytesOf, Bool.false_eq_true, if_false]
    rfl
  · simp only [List.length_append, length_bytesOf, if_true]
    rfl

/-- **The serializer** returns a frame exactly when there is a payload within
the limit. -/
theorem serializePacket_some_iff {z : Zlib} {packetId : UInt16} {content b : List UInt8}
    {compress l : Bool} :
    serializePacket z packetId content compress l = some b
      ↔ ∃ payload, wirePayload z content (compress || l) = some payload
          ∧ payload.length ≤ maxContentSize.toNat ∧ b = frameBytes l packetId compress payload := by
  -- within the limit the cast of `payload.size()` to 32 bits loses nothing
  have hbytes : ∀ payload : List UInt8, payload.length ≤ maxContentSize.toNat →
      appendU32Le (if !l then appendU16Le [] packetId ++ [if compress then 1 else 0]
          else appendU16Le [] packetId) (UInt32.ofNat payload.length) ++ payload
        = frameBytes l packetId compress payload := by
    intro payload hlen
    have hcast : (UInt32.ofNat payload.length).toNat = payload.length := by
      rw [UInt32.toNat_ofNat']
      exact Nat.mod_eq_of_lt (Nat.lt_of_le_of_lt hlen (by decide))
    rw [appendU32Le_eq, hcast, appendU16Le_eq, List.nil_append]
    cases l
    · rfl
    · simp only [frameBytes, Bool.not_true, Bool.false_eq_true, if_false, if_true,
        List.append_nil]
  have hwire : (if compress || l then gzipCompress z content else some content)
      = wirePayload z content (compress || l) := rfl
  unfold serializePacket
  simp only [hwire]
  cases wirePayload z content (compress || l) with
  | none => simp
  | some payload =>
      simp only [Option.some.injEq, exists_eq_left']
      by_cases hmax : payload.length > maxContentSize.toNat
      · rw [if_pos hmax]
        constructor
        · intro h
          exact nomatch h
        · intro h
          omega
      · rw [if_neg hmax, hbytes payload (by omega), Option.some.injEq]
        constructor
        · intro h
          exact ⟨by omega, h.symm⟩
        · intro h
          exact h.2.symm

/-! ## §2. The parser takes a frame apart. -/

section Fields

variable (l : Bool) (packetId : UInt16) (compress : Bool) (payload t : List UInt8)

theorem idField_frameBytes : idField (frameBytes l packetId compress payload ++ t) = packetId := by
  have hval := valueOf_bytesOf 2 packetId.toNat packetId.toNat_lt
  unfold idField frameBytes
  rw [List.append_assoc, List.append_assoc, List.append_assoc,
    List.take_left' (length_bytesOf 2 _), hval, UInt16.ofNat_toNat]

theorem flagField_frameBytes :
    flagField l (frameBytes l packetId compress payload ++ t) = (compress || l) := by
  cases l
  · cases compress <;> rfl
  · cases compress <;> rfl

theorem sizeField_frameBytes (h : payload.length ≤ maxContentSize.toNat) :
    sizeField l (frameBytes l packetId compress payload ++ t) = payload.length := by
  have hval := valueOf_bytesOf 4 payload.length (Nat.lt_of_le_of_lt h (by decide))
  have hoff : (bytesOf 2 packetId.toNat
      ++ (if l then [] else [if compress then 1 else 0])).length = sizeOffset l := by
    cases l <;> rfl
  unfold sizeField frameBytes
  rw [List.append_assoc, List.append_assoc, List.drop_left' hoff,
    List.take_left' (length_bytesOf 4 _), hval]

theorem payloadField_frameBytes (h : payload.length ≤ maxContentSize.toNat) :
    payloadField l (frameBytes l packetId compress payload ++ t) = payload := by
  have hoff : (bytesOf 2 packetId.toNat
      ++ (if l then [] else [if compress then 1 else 0])
      ++ bytesOf 4 payload.length).length = headerSize l := by
    cases l <;> rfl
  unfold payloadField
  rw [sizeField_frameBytes l packetId compress payload t h]
  unfold frameBytes
  rw [List.append_assoc _ payload t, List.drop_left' hoff, List.take_left]

theorem frameSize_frameBytes (h : payload.length ≤ maxContentSize.toNat) :
    frameSize l (frameBytes l packetId compress payload ++ t)
      = (frameBytes l packetId compress payload).length := by
  rw [frameSize, sizeField_frameBytes l packetId compress payload t h, length_frameBytes]

end Fields

/-- **A frame is parsed** to its id, its flag, and its payload, which is inflated
when the flag or the format says so. -/
theorem parse_frameBytes {z : Zlib} {l : Bool} {packetId : UInt16} {compress : Bool}
    {payload content : List UInt8} (hlen : payload.length ≤ maxContentSize.toNat)
    (hcontent : (if compress || l then gzipDecompress z payload else some payload) = some content)
    (t : List UInt8) (p : Packet) :
    tryParsePacket z (frameBytes l packetId compress payload ++ t) p l
      = ⟨.ok, ⟨packetId, compress || l, content⟩,
          (frameBytes l packetId compress payload).length⟩ := by
  have hsize := sizeField_frameBytes l packetId compress payload t hlen
  have hframe := frameSize_frameBytes l packetId compress payload t hlen
  have hflag := flagField_frameBytes l packetId compress payload t
  refine (tryParsePacket_ok_iff z _ p _ l _).mpr ⟨content, ⟨?_, ?_⟩, ?_, ?_, hframe.symm⟩
  · rw [hsize]
    exact hlen
  · rw [hframe, List.length_append]
    omega
  · rw [contentOf, hflag, payloadField_frameBytes l packetId compress payload t hlen]
    exact hcontent
  · rw [framePacket, hflag, idField_frameBytes]

/-- A modern frame with its flag set carries what its payload inflates to. -/
theorem parse_gzipFrame {z : Zlib} {packetId : UInt16} {payload content : List UInt8}
    (hlen : payload.length ≤ maxContentSize.toNat)
    (hgzip : gzipDecompress z payload = some content) (p : Packet) :
    tryParsePacket z (frameBytes false packetId true payload) p false
      = ⟨.ok, ⟨packetId, true, content⟩, (frameBytes false packetId true payload).length⟩ := by
  have hcontent : (if true || false then gzipDecompress z payload else some payload)
      = some content := hgzip
  rw [← List.append_nil (frameBytes false packetId true payload),
    parse_frameBytes hlen hcontent [] p]
  rw [List.append_nil]
  rfl

/-! ## §3. The round trip. -/

/-- What arrives of a content: gzip sees the bytes below its 32-bit count. -/
def carried (content : List UInt8) (gzip : Bool) : List UInt8 :=
  if gzip then content.take (uInt content.length) else content

/-- **What is serialized is parsed** to what was carried. -/
theorem parse_carried {z : Zlib} (hz : z.InflateInvertsDeflate) {packetId : UInt16}
    {content b : List UInt8} {compress l : Bool}
    (h : serializePacket z packetId content compress l = some b) (t : List UInt8) (p : Packet) :
    tryParsePacket z (b ++ t) p l
      = ⟨.ok, ⟨packetId, compress || l, carried content (compress || l)⟩, b.length⟩ := by
  obtain ⟨payload, hpayload, hlen, rfl⟩ := serializePacket_some_iff.mp h
  refine parse_frameBytes hlen ?_ t p
  have hsmall : payload.length < 2 ^ 32 := Nat.lt_of_le_of_lt hlen (by decide)
  unfold wirePayload at hpayload
  unfold carried
  by_cases hgzip : (compress || l) = true
  · rw [if_pos hgzip] at hpayload ⊢
    rw [if_pos hgzip]
    exact gzipDecompress_compress hz hpayload hsmall
  · rw [if_neg hgzip] at hpayload ⊢
    rw [if_neg hgzip]
    exact hpayload.symm

theorem carried_eq_iff (content : List UInt8) (gzip : Bool) :
    carried content gzip = content ↔ gzip = false ∨ content.length < 2 ^ 32 := by
  unfold carried
  cases gzip with
  | false => simp
  | true =>
      have hlen := length_take_uInt content
      simp only [if_true, Bool.true_eq_false, false_or]
      constructor
      · intro h
        rwa [h] at hlen
      · exact take_uInt

/-- **Round trip** for a content below 2^32 bytes. -/
theorem parse_serialize {z : Zlib} (hz : z.InflateInvertsDeflate) {packetId : UInt16}
    {content b : List UInt8} {compress l : Bool} (hlen : content.length < 2 ^ 32)
    (h : serializePacket z packetId content compress l = some b) (t : List UInt8) (p : Packet) :
    tryParsePacket z (b ++ t) p l = ⟨.ok, ⟨packetId, compress || l, content⟩, b.length⟩ := by
  rw [parse_carried hz h, (carried_eq_iff content (compress || l)).mpr (Or.inr hlen)]

/-! ## §4. Contents of any length. -/

/-- A content past the 32-bit count is cut to its length modulo 2^32, and the
cut content compresses to a payload within the limit. -/
def CutIsSent (z : Zlib) (content : List UInt8) : Prop :=
  2 ^ 32 ≤ content.length
    ∧ ∃ payload, gzipCompress z (content.take (content.length % 2 ^ 32)) = some payload
        ∧ payload.length ≤ maxContentSize.toNat

/-- Compressing a content is compressing its cut. -/
theorem gzipCompress_cut (z : Zlib) (content : List UInt8) :
    gzipCompress z (content.take (content.length % 2 ^ 32)) = gzipCompress z content := by
  have hle : content.length % 2 ^ 32 ≤ content.length := Nat.mod_le _ _
  have hcut : (content.take (content.length % 2 ^ 32)).take
      (uInt (content.take (content.length % 2 ^ 32)).length)
        = content.take (uInt content.length) := by
    rw [List.length_take_of_le hle, uInt, uInt, Nat.mod_mod, List.take_take, Nat.min_self]
  unfold gzipCompress
  rw [hcut]

/-- **Exactly when a serialized packet is parsed back to its content**: unless it
is compressed and `CutIsSent`. -/
theorem serialize_parse_iff (z : Zlib) (hz : z.InflateInvertsDeflate) (packetId : UInt16)
    (content : List UInt8) (compress l : Bool) :
    (∀ b, serializePacket z packetId content compress l = some b →
        ∀ t p, tryParsePacket z (b ++ t) p l
          = ⟨.ok, ⟨packetId, compress || l, content⟩, b.length⟩)
      ↔ ¬ ((compress || l) = true ∧ CutIsSent z content) := by
  constructor
  · intro hall hbad
    obtain ⟨hgzip, hlong, payload, hpayload, hlen⟩ := hbad
    rw [gzipCompress_cut] at hpayload
    have hb : serializePacket z packetId content compress l
        = some (frameBytes l packetId compress payload) := by
      refine serializePacket_some_iff.mpr ⟨payload, ?_, hlen, rfl⟩
      rw [wirePayload, if_pos hgzip]
      exact hpayload
    -- the parser returns the cut content, which is shorter
    have hparse := (parse_carried hz hb [] {}).symm.trans (hall _ hb [] {})
    have hsame : carried content (compress || l) = content :=
      congrArg (fun r => r.packet.content) hparse
    rcases (carried_eq_iff content (compress || l)).mp hsame with hflag | hshort
    · exact nomatch hgzip.symm.trans hflag
    · omega
  · intro hgood b hb t p
    rw [parse_carried hz hb]
    have hsame : carried content (compress || l) = content := by
      rw [carried_eq_iff]
      by_cases hgzip : (compress || l) = true
      · -- a longer content that was serialized has been cut and sent
        right
        by_contra hlong
        obtain ⟨payload, hpayload, hlen, -⟩ := serializePacket_some_iff.mp hb
        rw [wirePayload, if_pos hgzip, ← gzipCompress_cut] at hpayload
        exact hgood ⟨hgzip, by omega, payload, hpayload, hlen⟩
      · left
        exact Bool.eq_false_iff.mpr hgzip
    rw [hsame]

/-- The serializer over `fixedZlib`. -/
theorem serializePacket_fixed {packetId : UInt16} {content payload : List UInt8}
    {compress l : Bool}
    (hpayload : (if compress || l then Gzip.encodeMember (content.take (uInt content.length))
      else content) = payload) (hlen : payload.length ≤ maxContentSize.toNat) :
    serializePacket fixedZlib packetId content compress l
      = some (frameBytes l packetId compress payload) := by
  refine serializePacket_some_iff.mpr ⟨payload, ?_, hlen, rfl⟩
  rw [← hpayload, wirePayload, FixedZlib.gzipCompress_eq]
  split <;> rfl

/-- The gzip member of two bytes. -/
def twoBytesMember : List UInt8 :=
  [0x1f, 0x8b, 8, 0, 0, 0, 0, 0, 0, 3, 203, 200, 4, 0, 172, 42, 147, 216, 2, 0, 0, 0]

theorem encodeMember_twoBytes : Gzip.encodeMember [104, 105] = twoBytesMember := by
  decide +kernel

/-- A content of two bytes, compressed, followed by another byte. -/
theorem serialize_parse_iff_twoBytes :
    tryParsePacket fixedZlib (frameBytes false 1 true twoBytesMember ++ [7]) {} false
      = ⟨.ok, ⟨1, true, [104, 105]⟩, 29⟩ := by
  have hb : serializePacket fixedZlib 1 [104, 105] true false
      = some (frameBytes false 1 true twoBytesMember) :=
    serializePacket_fixed encodeMember_twoBytes (by decide)
  refine (serialize_parse_iff fixedZlib FixedZlib.inflateInvertsDeflate 1 [104, 105] true
    false).mpr ?_ _ hb [7] {}
  intro h
  exact absurd h.2.1 (by decide)

/-- The gzip member of no data. -/
def emptyMember : List UInt8 := [0x1f, 0x8b, 8, 0, 0, 0, 0, 0, 0, 3, 3, 0, 0, 0, 0, 0, 0, 0, 0, 0]

theorem encodeMember_nil : Gzip.encodeMember [] = emptyMember := by decide +kernel

/-- **A content of 4 GiB** of zero bytes is serialized, and its packet parses to
an empty content: no round trip. -/
theorem serialize_parse_fourGiB :
    serializePacket fixedZlib 1 (List.replicate (2 ^ 32) 0) true false
        = some (frameBytes false 1 true emptyMember)
      ∧ tryParsePacket fixedZlib (frameBytes false 1 true emptyMember) {} false
        = ⟨.ok, ⟨1, true, []⟩, 27⟩
      ∧ ¬ ∀ b, serializePacket fixedZlib 1 (List.replicate (2 ^ 32) 0) true false = some b →
          ∀ t p, tryParsePacket fixedZlib (b ++ t) p false
            = ⟨.ok, ⟨1, true, List.replicate (2 ^ 32) 0⟩, b.length⟩ := by
  have hcut : (List.replicate (2 ^ 32) (0 : UInt8)).take
      (uInt (List.replicate (2 ^ 32) (0 : UInt8)).length) = [] := by
    rw [List.length_replicate]
    exact List.take_zero
  have hcarried : carried (List.replicate (2 ^ 32) 0) (true || false) = [] := by
    rw [carried, if_pos (Bool.or_false true), hcut]
  have hb : serializePacket fixedZlib 1 (List.replicate (2 ^ 32) 0) true false
      = some (frameBytes false 1 true emptyMember) := by
    refine serializePacket_fixed ?_ (by decide)
    rw [hcut]
    exact encodeMember_nil
  have hparse := parse_carried FixedZlib.inflateInvertsDeflate hb [] {}
  rw [List.append_nil, hcarried] at hparse
  refine ⟨hb, hparse, ?_⟩
  intro hall
  have hsame := hall _ hb [] {}
  rw [List.append_nil, hparse] at hsame
  have hlen := congrArg (fun r => r.packet.content.length) hsame
  simp only [List.length_replicate] at hlen
  exact absurd hlen (by decide)

end Bancho.BanchoPacket
