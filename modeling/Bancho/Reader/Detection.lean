/-
  Bancho.Reader.Detection
  ───────────────────────
  No byte of a header says which of the two formats it is in.  What separates
  them is byte 6: it is the top byte of the modern size field, which the 4 MiB
  limit forces to 0, and it is the first payload byte of a legacy frame, which
  gzip forces to 0x1f.

  Main results:
    * `legacyOk_modernInvalid`, `modernOk_legacyNotOk` — an `Ok` under one format
      rules the other one out, on what came before and on what comes after;
    * `detection_unambiguous` — so the order in which the two parses are tried
      does not matter.
-/
import Bancho.Packet.RoundTrip
import Bancho.Server.Reader

namespace Bancho.Reader

open BanchoPacket Session LittleEndian

/-! ## §1. Byte 6. -/

/-- A payload that inflates begins with the magic bytes. -/
theorem magic_of_content {z : Zlib} (hz : z.AcceptsOnlyGzip) {payload content : List UInt8}
    (hlen : payload.length ≤ maxContentSize.toNat)
    (h : gzipDecompress z payload = some content) : ∃ tail, payload = 0x1f :: 0x8b :: tail := by
  have hsmall : payload.length < 2 ^ 32 := Nat.lt_of_le_of_lt hlen (by decide)
  obtain ⟨rest, hi⟩ := gzipDecompress_some h
  rw [take_uInt hsmall] at hi
  exact hz payload content rest hi

/-- A legacy frame shows 0x1f in byte 6, and reaches past it. -/
theorem byteSix_of_legacyOk {z : Zlib} (hz : z.AcceptsOnlyGzip) {s : List UInt8} {p : Packet}
    (h : (tryParsePacket z s p true).status = .ok) : 7 ≤ s.length ∧ s.getD 6 0 = 0x1f := by
  obtain ⟨c, hok⟩ := (status_ok_iff z s p true).mp h
  obtain ⟨c, hc, hcontent, -, -⟩ := (tryParsePacket_ok_iff z s p _ true _).mp hok
  have hlen := length_payloadField true s hc.2
  have hgzip : gzipDecompress z (payloadField true s) = some c := by
    rw [← hcontent]
    rfl
  obtain ⟨tail, htail⟩ := magic_of_content hz (by rw [hlen]; exact hc.1) hgzip
  have hsix := hc.headerSize_le
  -- the payload begins at byte 6, and it begins with the magic bytes
  have hstream : s = s.take 6 ++ (0x1f :: 0x8b :: tail ++ (s.drop 6).drop (sizeField true s)) := by
    rw [← htail]
    show s = s.take 6 ++ ((s.drop 6).take (sizeField true s) ++ _)
    rw [List.take_append_drop, List.take_append_drop]
  have htake : (s.take 6).length = 6 := List.length_take_of_le hsix
  constructor
  · rw [hstream]
    simp only [List.length_append, List.length_cons, htake]
    omega
  · rw [hstream, List.getD_append_right _ _ _ _ (Nat.le_of_eq htake), htake]
    rfl

/-- Byte 6 is the top byte of the modern size field. -/
theorem sizeField_modern_ge {s : List UInt8} (h : 7 ≤ s.length) :
    (s.getD 6 0).toNat * 2 ^ 24 ≤ sizeField false s := by
  match s, h with
  | _ :: _ :: _ :: b3 :: b4 :: b5 :: b6 :: rest, _ =>
      show b6.toNat * 2 ^ 24
        ≤ b3.toNat + 256 * (b4.toNat + 256 * (b5.toNat + 256 * (b6.toNat + 256 * 0)))
      omega

/-- With 0x1f in byte 6 the modern size field is past the limit. -/
theorem modernInvalid_of_byteSix (z : Zlib) {s : List UInt8} (h : 7 ≤ s.length)
    (hsix : s.getD 6 0 = 0x1f) (p : Packet) : (tryParsePacket z s p false).status = .invalid := by
  have hge := sizeField_modern_ge h
  rw [hsix] at hge
  refine (status_invalid_iff z s p false).mpr ⟨h, Or.inl (Nat.lt_of_lt_of_le ?_ hge)⟩
  decide

/-! ## §2. The two formats exclude one another. -/

/-- Byte 6 of a stream is that of each of its prefixes that reach it. -/
theorem byteSix_initial {u s : List UInt8} (h : u <+: s) (hu : 7 ≤ u.length) :
    u.getD 6 0 = s.getD 6 0 := by
  obtain ⟨t, rfl⟩ := h
  rw [List.getD_append _ _ _ _ hu]

/-- **A legacy `Ok`** makes the modern parse `Invalid` as soon as there is a
modern header, and for good. -/
theorem legacyOk_modernInvalid {z : Zlib} (hz : z.AcceptsOnlyGzip) {s u : List UInt8} {p : Packet}
    (h : (tryParsePacket z s p true).status = .ok)
    (hu : (u <+: s ∧ 7 ≤ u.length) ∨ s <+: u) (p' : Packet) :
    (tryParsePacket z u p' false).status = .invalid := by
  obtain ⟨hseven, hsix⟩ := byteSix_of_legacyOk hz h
  rcases hu with ⟨hu, hlen⟩ | hu
  · exact modernInvalid_of_byteSix z hlen (by rw [byteSix_initial hu hlen, hsix]) p'
  · have hlen := Nat.le_trans hseven hu.length_le
    exact modernInvalid_of_byteSix z hlen (by rw [← byteSix_initial hu hseven, hsix]) p'

/-- **A modern `Ok`** rules out a legacy `Ok`, earlier and later. -/
theorem modernOk_legacyNotOk {z : Zlib} (hz : z.AcceptsOnlyGzip) {s u : List UInt8} {p : Packet}
    (h : (tryParsePacket z s p false).status = .ok) (hu : u <+: s ∨ s <+: u) (p' : Packet) :
    (tryParsePacket z u p' true).status ≠ .ok := by
  intro hlegacy
  obtain ⟨hseven, -⟩ := byteSix_of_legacyOk hz hlegacy
  -- by the other direction the modern parse of `s` would be refused
  have hinvalid : (tryParsePacket z s p false).status = .invalid := by
    rcases hu with hu | hu
    · exact legacyOk_modernInvalid hz hlegacy (Or.inr hu) p
    · obtain ⟨c, hok⟩ := (status_ok_iff z s p false).mp h
      exact legacyOk_modernInvalid hz hlegacy (Or.inl ⟨hu, (consumedBytes_bounds hok).1.trans
        (consumedBytes_bounds hok).2⟩) p
  exact nomatch h.symm.trans hinvalid

/-! ## §3. The order of detection. -/

/-- `consume_packet_stream` with the detection the other way round: legacy
first, fall back to modern. -/
def consumePacketStreamLegacyFirst (z : Zlib) (state : State) :
    ParseStatus × State × List Event :=
  match state.legacyHeader with
  | some legacyHeader =>
      let r := tryParsePacket z state.packetStream {} legacyHeader
      finishConsume state r.status r.packet r.consumedBytes
  | none =>
      let modern := tryParsePacket z state.packetStream {} false
      let legacy := tryParsePacket z state.packetStream {} true
      if legacy.status = .ok then
        finishConsume { state with legacyHeader := some true }
          legacy.status legacy.packet legacy.consumedBytes
      else if modern.status = .ok then
        finishConsume { state with legacyHeader := some false }
          modern.status modern.packet modern.consumedBytes
      else if modern.status = .invalid ∧ legacy.status = .invalid then
        finishConsume state .invalid {} 0
      else
        finishConsume state .needMoreData {} 0

/-- **Detection is unambiguous**, now and later: an `Ok` under one format makes
the other format refuse every stream it can have grown from or grow into, and
the order in which the two are tried makes no difference. -/
theorem detection_unambiguous (z : Zlib) (hz : z.AcceptsOnlyGzip) :
    (∀ s p, (tryParsePacket z s p true).status = .ok →
        ∀ u p', (u <+: s ∧ 7 ≤ u.length) ∨ s <+: u →
          (tryParsePacket z u p' false).status = .invalid)
      ∧ (∀ s p, (tryParsePacket z s p false).status = .ok →
          ∀ u p', u <+: s ∨ s <+: u → (tryParsePacket z u p' true).status ≠ .ok)
      ∧ ∀ state : State, state.legacyHeader = none →
          consumePacketStream z state = consumePacketStreamLegacyFirst z state := by
  refine ⟨?_, ?_, ?_⟩
  · intro s p h u p' hu
    exact legacyOk_modernInvalid hz h hu p'
  · intro s p h u p' hu
    exact modernOk_legacyNotOk hz h hu p'
  · intro state hnone
    unfold consumePacketStream consumePacketStreamLegacyFirst
    rw [hnone]
    -- the two orders differ only where both parses are `Ok`, which is nowhere
    by_cases hmodern : (tryParsePacket z state.packetStream {} false).status = .ok
    · have hlegacy := modernOk_legacyNotOk hz hmodern (Or.inl (List.prefix_refl _)) {}
      simp only [if_pos hmodern, if_neg hlegacy]
    · simp only [if_neg hmodern]

/-- The legacy frame of an empty content, as soon as it could be a modern header. -/
theorem detection_unambiguous_emptyLegacy :
    (tryParsePacket fixedZlib [5, 0, 20, 0, 0, 0, 0x1f] {} false).status = .invalid := by
  have hb : serializePacket fixedZlib 5 [] true true = some (frameBytes true 5 true emptyMember) :=
    serializePacket_fixed encodeMember_nil (by decide)
  have hok := parse_carried FixedZlib.inflateInvertsDeflate hb [] {}
  refine (detection_unambiguous fixedZlib FixedZlib.acceptsOnlyGzip).1 _ {} (by rw [hok]) _ {}
    (Or.inl ⟨?_, by decide⟩)
  exact ⟨emptyMember.tail, by decide⟩

end Bancho.Reader
