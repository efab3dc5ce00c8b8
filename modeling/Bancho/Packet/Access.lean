/-
  Bancho.Packet.Access
  ────────────────────
  What `try_parse_packet` touches, and the finality of its verdicts.

  §1 is the parser once more, written over recorded primitives: a byte read is a
  read at an index, inside the stream or not, and `header_size + content_size` is
  a sum in a `std::size_t` of `w` bits, which may wrap.  §2 shows that this
  parser is `tryParsePacket` from 32 bits on, and that none of its reads is
  outside the stream and none of its sums wraps (`tryParsePacketTraced_yields`).

  Main result: `verdicts_final` — an `Ok` and an `Invalid` stay what they are
  when more bytes arrive, an `Ok` needs its frame and no more, short of it the
  answer was `NeedMoreData`, and all accesses are in bounds.
-/
import Bancho.Library.Traced
import Bancho.Packet.Verdict
import Bancho.Server.FixedZlib

namespace Bancho.BanchoPacket

open Traced LittleEndian

/-! ## §1. The parser over recorded primitives. -/

/-- A byte of the stream is read; a sum of two sizes is taken. -/
inductive Access where
  | read (index : Nat)
  | add (a b : Nat)
  deriving Repr, DecidableEq

/-- In a stream of `size` bytes, with a `std::size_t` of `w` bits. -/
def Access.Safe (size w : Nat) : Access → Prop
  | .read index => index < size
  | .add a b => a + b < 2 ^ w

/-- `data[index]`; outside the vector the value means nothing. -/
def byteAt (data : List UInt8) (index : Nat) : Traced Access UInt8 :=
  record (.read index) (data.getD index 0)

/-- `a + b` in a `std::size_t` of `w` bits. -/
def addSize (w a b : Nat) : Traced Access Nat := record (.add a b) ((a + b) % 2 ^ w)

/-- `read_u16_le(data + offset)`. -/
def readU16At (data : List UInt8) (offset : Nat) : Traced Access UInt16 := do
  let b0 ← byteAt data offset
  let b1 ← byteAt data (offset + 1)
  return b0.toUInt16 ||| (b1.toUInt16 <<< 8)

/-- `read_u32_le(data + offset)`. -/
def readU32At (data : List UInt8) (offset : Nat) : Traced Access UInt32 := do
  let b0 ← byteAt data offset
  let b1 ← byteAt data (offset + 1)
  let b2 ← byteAt data (offset + 2)
  let b3 ← byteAt data (offset + 3)
  return b0.toUInt32 ||| (b1.toUInt32 <<< 8) ||| (b2.toUInt32 <<< 16) ||| (b3.toUInt32 <<< 24)

/-- The `length` bytes from `data + offset` on. -/
def bytesAt (data : List UInt8) : Nat → Nat → Traced Access (List UInt8)
  | _, 0 => return []
  | offset, length + 1 => do
      let b ← byteAt data offset
      let bs ← bytesAt data (offset + 1) length
      return b :: bs

/-- `legacy_header || stream[2] != 0`: a legacy header has no flag to read. -/
def compressedAt (data : List UInt8) (legacyHeader : Bool) : Traced Access Bool :=
  if legacyHeader then return true
  else do
    let flag ← byteAt data 2
    return flag != 0

/-- `try_parse_packet`, with every read and the sum recorded.  The whole payload
counts as read, by `assign` or by inflate. -/
def tryParsePacketTraced (w : Nat) (z : Zlib) (stream : List UInt8) (packet : Packet)
    (legacyHeader : Bool) : Traced Access ParseResult :=
  if stream.length < headerSize legacyHeader then return ⟨.needMoreData, packet, 0⟩
  else do
    let id ← readU16At stream 0
    let compressed ← compressedAt stream legacyHeader
    let packet := { packet with id := id, compressed := compressed }
    let contentSize ← readU32At stream (if legacyHeader then 2 else 3)
    if contentSize > maxContentSize then return ⟨.invalid, packet, 0⟩
    else do
      let packetSize ← addSize w (headerSize legacyHeader) contentSize.toNat
      if stream.length < packetSize then return ⟨.needMoreData, packet, 0⟩
      else do
        let payload ← bytesAt stream (headerSize legacyHeader) contentSize.toNat
        if !packet.compressed then return ⟨.ok, { packet with content := payload }, packetSize⟩
        else
          match gzipDecompress z payload with
          | none => return ⟨.invalid, packet, 0⟩
          | some decompressed =>
              return ⟨.ok, { packet with content := decompressed }, packetSize⟩

/-! ## §2. Its accesses. -/

section Reads

variable {data : List UInt8} {offset w : Nat}

theorem byteAt_yields {index : Nat} (h : index < data.length) :
    Yields (Access.Safe data.length w) (byteAt data index) data[index] := by
  have hvalue : data.getD index 0 = data[index] := List.getD_eq_getElem _ _ h
  have hsafe : Access.Safe data.length w (.read index) := h
  rw [← hvalue]
  exact Yields.record hsafe _

theorem addSize_yields {a b : Nat} (h : a + b < 2 ^ w) :
    Yields (Access.Safe data.length w) (addSize w a b) (a + b) := by
  have hsafe : Access.Safe data.length w (.add a b) := h
  have hvalue : (a + b) % 2 ^ w = a + b := Nat.mod_eq_of_lt h
  unfold addSize
  rw [hvalue]
  exact Yields.record hsafe _

theorem readU16At_yields (h : 2 ≤ (data.drop offset).length) :
    Yields (Access.Safe data.length w) (readU16At data offset)
      (readU16Le (data.drop offset) h) := by
  have hlen : offset + 1 < data.length := by
    rw [List.length_drop] at h
    omega
  unfold readU16Le
  simp only [List.getElem_drop]
  apply Yields.bind (byteAt_yields (by omega))
  apply Yields.bind (byteAt_yields hlen)
  exact Yields.pure _

theorem readU32At_yields (h : 4 ≤ (data.drop offset).length) :
    Yields (Access.Safe data.length w) (readU32At data offset)
      (readU32Le (data.drop offset) h) := by
  have hlen : offset + 3 < data.length := by
    rw [List.length_drop] at h
    omega
  unfold readU32Le
  simp only [List.getElem_drop]
  apply Yields.bind (byteAt_yields (by omega))
  apply Yields.bind (byteAt_yields (by omega))
  apply Yields.bind (byteAt_yields (by omega))
  apply Yields.bind (byteAt_yields hlen)
  exact Yields.pure _

theorem bytesAt_yields (length : Nat) :
    ∀ offset, offset + length ≤ data.length →
      Yields (Access.Safe data.length w) (bytesAt data offset length)
        ((data.drop offset).take length) := by
  induction length with
  | zero =>
      intro offset _
      rw [List.take_zero]
      exact Yields.pure _
  | succ length ih =>
      intro offset h
      have hoffset : offset < data.length := by omega
      rw [List.drop_eq_getElem_cons hoffset, List.take_succ_cons]
      apply Yields.bind (byteAt_yields hoffset)
      apply Yields.bind (ih (offset + 1) (by omega))
      exact Yields.pure _

theorem compressedAt_yields (l : Bool) (h : 2 < data.length) :
    Yields (Access.Safe data.length w) (compressedAt data l) (flagField l data) := by
  unfold flagField
  rw [List.getD_eq_getElem _ _ h]
  cases l with
  | true => exact Yields.pure _
  | false =>
      apply Yields.bind (byteAt_yields h)
      exact Yields.pure _

end Reads

/-- **The accesses of the parser.**  From 32 bits on it is `tryParsePacket`, each
of its reads is inside the stream, and its sum does not wrap. -/
theorem tryParsePacketTraced_yields {w : Nat} (hw : 32 ≤ w) (z : Zlib) (s : List UInt8)
    (p : Packet) (l : Bool) :
    Yields (Access.Safe s.length w) (tryParsePacketTraced w z s p l)
      (tryParsePacket z s p l) := by
  rw [tryParsePacket_eq]
  unfold tryParsePacketTraced
  by_cases hsize : s.length < headerSize l
  · rw [if_pos hsize, if_pos hsize]
    exact Yields.pure _
  · rw [if_neg hsize, if_neg hsize]
    have hb := headerSize_bounds l
    have hoff := sizeOffset_add_four l
    -- the header is there: id, flag and length are read inside it
    have htwo : 2 ≤ (s.drop 0).length := by
      rw [List.drop_zero]
      omega
    have hfour : 4 ≤ (s.drop (sizeOffset l)).length := by
      rw [List.length_drop]
      omega
    have hid : readU16Le (s.drop 0) htwo = idField s := readU16Le_eq_idField s htwo
    have hcs : (readU32Le (s.drop (sizeOffset l)) hfour).toNat = sizeField l s :=
      readU32Le_toNat _ hfour
    apply Yields.bind (readU16At_yields htwo)
    apply Yields.bind (compressedAt_yields l (by omega))
    apply Yields.bind (readU32At_yields hfour)
    rw [hid]
    simp only [GT.gt, UInt32.lt_iff_toNat_lt, hcs]
    by_cases hmax : maxContentSize.toNat < sizeField l s
    · rw [if_pos hmax, if_pos hmax]
      exact Yields.pure _
    · rw [if_neg hmax, if_neg hmax]
      -- at most 4 MiB and 7: no wrap
      have hlimit : maxContentSize.toNat = 4194304 := rfl
      have hpow : 2 ^ 32 ≤ 2 ^ w := Nat.pow_le_pow_right (by decide) hw
      apply Yields.bind (addSize_yields (by omega))
      show Yields _ (if s.length < frameSize l s then _ else _) _
      by_cases hframe : s.length < frameSize l s
      · rw [if_pos hframe, if_pos hframe]
        exact Yields.pure _
      · rw [if_neg hframe, if_neg hframe]
        -- the frame is there: the payload is read inside it
        have hpayload : headerSize l + sizeField l s ≤ s.length := Nat.le_of_not_lt hframe
        apply Yields.bind (bytesAt_yields _ _ hpayload)
        have hfield : (s.drop (headerSize l)).take (sizeField l s) = payloadField l s := rfl
        simp only [hfield, contentOf]
        cases hflag : flagField l s with
        | false =>
            simp only [Bool.not_false, Bool.false_eq_true, if_true, if_false, framePacket, hflag]
            exact Yields.pure _
        | true =>
            simp only [Bool.not_true, Bool.false_eq_true, if_true, if_false]
            cases gzipDecompress z (payloadField l s) with
            | none =>
                simp only [headerPacket, hflag]
                exact Yields.pure _
            | some content =>
                simp only [framePacket, hflag]
                exact Yields.pure _

/-! ## §3. The verdicts. -/

/-- **The verdicts of the parser are final, and its accesses are in bounds.**
An `Ok` counts at least a header and at most the stream; with more bytes behind
it, and on the counted bytes alone, it is the same `Ok`; on fewer it was
`NeedMoreData`.  An `Invalid` stays one.  And with a `std::size_t` of 32 bits or
more the parser reads no byte outside the stream and `header_size + content_size`
does not wrap. -/
theorem verdicts_final (z : Zlib) (s : List UInt8) (p : Packet) (l : Bool) :
    (∀ q n, tryParsePacket z s p l = ⟨.ok, q, n⟩ →
        headerSize l ≤ n ∧ n ≤ s.length
          ∧ (∀ t p', tryParsePacket z (s ++ t) p' l = ⟨.ok, q, n⟩)
          ∧ (∀ p', tryParsePacket z (s.take n) p' l = ⟨.ok, q, n⟩)
          ∧ ∀ u p', u <+: s → u.length < n →
              (tryParsePacket z u p' l).status = .needMoreData)
      ∧ ((tryParsePacket z s p l).status = .invalid →
        ∀ t p', (tryParsePacket z (s ++ t) p' l).status = .invalid)
      ∧ ∀ w, 32 ≤ w → value (tryParsePacketTraced w z s p l) = tryParsePacket z s p l
          ∧ (∀ index, .read index ∈ effects (tryParsePacketTraced w z s p l) →
              index < s.length)
          ∧ ∀ a b, .add a b ∈ effects (tryParsePacketTraced w z s p l) → a + b < 2 ^ w := by
  refine ⟨?_, ?_, ?_⟩
  · intro q n hok
    obtain ⟨hheader, hsize⟩ := consumedBytes_bounds hok
    refine ⟨hheader, hsize, ?_, ?_, ?_⟩
    · intro t p'
      exact ok_extend hok (List.prefix_append s t) p'
    · intro p'
      have hlen : (s.take n).length = n := List.length_take_of_le hsize
      exact ok_restrict hok (List.take_prefix n s) (Nat.le_of_eq hlen.symm) p'
    · intro u p' hu hshort
      exact needMoreData_of_short hok hu hshort p'
  · intro hinvalid t p'
    exact invalid_extend hinvalid (List.prefix_append s t) p'
  · intro w hw
    have hyields := tryParsePacketTraced_yields hw z s p l
    refine ⟨hyields.value_eq, ?_, ?_⟩
    · intro index hread
      exact hyields.safe _ hread
    · intro a b hadd
      exact hyields.safe _ hadd

/-- A frame of one byte and a byte behind it: two bytes short of the frame the
parser waits. -/
theorem verdicts_final_oneByte :
    (tryParsePacket fixedZlib [1, 0, 0, 1, 0, 0] {} false).status = .needMoreData := by
  have hok : tryParsePacket fixedZlib [1, 0, 0, 1, 0, 0, 0, 7, 9] {} false
      = ⟨.ok, ⟨1, false, [7]⟩, 8⟩ := by decide +kernel
  exact ((verdicts_final fixedZlib [1, 0, 0, 1, 0, 0, 0, 7, 9] {} false).1 _ _ hok).2.2.2.2
    [1, 0, 0, 1, 0, 0] {} ⟨[0, 7, 9], rfl⟩ (by decide)

end Bancho.BanchoPacket
