/-
  Bancho.Packet.Verdict
  ─────────────────────
  What `try_parse_packet` can answer, said once.  The three verdicts are three
  disjoint conditions on the stream (`Waiting`, `Refused`, and `Complete` with a
  content that can be taken out), and the packet of an `Ok` is read off the
  fields; every later result cites the equivalences of §2 and never unfolds the
  parser.

  §3 is the finality of the verdicts: an `Ok` or an `Invalid` stays what it is
  when more bytes arrive, an `Ok` needs no byte past its frame, and short of its
  frame it was `NeedMoreData`.
-/
import Bancho.Packet.Fields

namespace Bancho.BanchoPacket

open LittleEndian

/-! ## §1. The parser on the fields. -/

/-- The out-parameter once the header has been read. -/
def headerPacket (l : Bool) (s : List UInt8) (p : Packet) : Packet :=
  { p with id := idField s, compressed := flagField l s }

/-- The packet of a complete frame with content `c`. -/
def framePacket (l : Bool) (s : List UInt8) (c : List UInt8) : Packet :=
  ⟨idField s, flagField l s, c⟩

theorem readU16Le_eq_idField (s : List UInt8) (h : 2 ≤ s.length) :
    readU16Le s h = idField s := by
  apply UInt16.toNat_inj.mp
  rw [readU16Le_toNat, idField_toNat h]

/-- `try_parse_packet`, on the fields of the stream. -/
theorem tryParsePacket_eq (z : Zlib) (s : List UInt8) (p : Packet) (l : Bool) :
    tryParsePacket z s p l =
      if s.length < headerSize l then ⟨.needMoreData, p, 0⟩
      else if maxContentSize.toNat < sizeField l s then ⟨.invalid, headerPacket l s p, 0⟩
      else if s.length < frameSize l s then ⟨.needMoreData, headerPacket l s p, 0⟩
      else match contentOf z l s with
        | none => ⟨.invalid, headerPacket l s p, 0⟩
        | some c => ⟨.ok, framePacket l s c, frameSize l s⟩ := by
  unfold tryParsePacket
  by_cases hsize : s.length < headerSize l
  · rw [dif_pos hsize, if_pos hsize]
  · rw [dif_neg hsize, if_neg hsize]
    have hb := headerSize_bounds l
    have htwo : 2 < s.length := by omega
    have hflag : (l || s[2] != 0) = flagField l s := by
      rw [flagField, List.getD_eq_getElem _ _ htwo]
    have hcs : ∀ h, (readU32Le (s.drop (if l then 2 else 3)) h).toNat = sizeField l s :=
      fun h => readU32Le_toNat _ h
    have hfs : headerSize l + sizeField l s = frameSize l s := rfl
    have hpl : (s.drop (headerSize l)).take (sizeField l s) = payloadField l s := rfl
    simp only [readU16Le_eq_idField, hflag, GT.gt, UInt32.lt_iff_toNat_lt, hcs, hfs, hpl]
    by_cases hmax : maxContentSize.toNat < sizeField l s
    · rw [if_pos hmax, if_pos hmax]
      rfl
    · rw [if_neg hmax, if_neg hmax]
      by_cases hframe : s.length < frameSize l s
      · rw [if_pos hframe, if_pos hframe]
        rfl
      · rw [if_neg hframe, if_neg hframe, contentOf]
        -- the uncompressed branch copies the payload, the other one inflates it
        cases hc : flagField l s
        · simp only [framePacket, hc, Bool.not_false, Bool.false_eq_true, if_true, if_false]
        · cases gzipDecompress z (payloadField l s) <;>
            simp only [framePacket, headerPacket, hc, Bool.not_true, Bool.false_eq_true,
              if_false, if_true]

/-! ## §2. The three verdicts. -/

/-- The header is not there yet, or its frame is not. -/
def Waiting (l : Bool) (s : List UInt8) : Prop :=
  s.length < headerSize l
    ∨ (sizeField l s ≤ maxContentSize.toNat ∧ s.length < frameSize l s)

/-- The size field exceeds the limit, or the payload does not inflate. -/
def Refused (z : Zlib) (l : Bool) (s : List UInt8) : Prop :=
  headerSize l ≤ s.length
    ∧ (maxContentSize.toNat < sizeField l s
      ∨ (frameSize l s ≤ s.length ∧ contentOf z l s = none))

/-- A frame within the limit is there as a whole. -/
def Complete (l : Bool) (s : List UInt8) : Prop :=
  sizeField l s ≤ maxContentSize.toNat ∧ frameSize l s ≤ s.length

theorem Complete.headerSize_le {l : Bool} {s : List UInt8} (h : Complete l s) :
    headerSize l ≤ s.length := by
  have h2 := h.2
  rw [frameSize] at h2
  omega

/-- One of the three conditions holds, with the answer that goes with it. -/
theorem tryParsePacket_cases (z : Zlib) (s : List UInt8) (p : Packet) (l : Bool) :
    (Waiting l s ∧ (tryParsePacket z s p l).status = .needMoreData)
      ∨ (Refused z l s ∧ (tryParsePacket z s p l).status = .invalid)
      ∨ ∃ c, Complete l s ∧ contentOf z l s = some c
          ∧ tryParsePacket z s p l = ⟨.ok, framePacket l s c, frameSize l s⟩ := by
  rw [tryParsePacket_eq]
  -- the checks in the order of the source: header, limit, frame, payload
  by_cases hsize : s.length < headerSize l
  · exact Or.inl ⟨Or.inl hsize, by rw [if_pos hsize]⟩
  · rw [if_neg hsize]
    by_cases hmax : maxContentSize.toNat < sizeField l s
    · exact Or.inr (Or.inl ⟨⟨by omega, Or.inl hmax⟩, by rw [if_pos hmax]⟩)
    · rw [if_neg hmax]
      by_cases hframe : s.length < frameSize l s
      · exact Or.inl ⟨Or.inr ⟨by omega, hframe⟩, by rw [if_pos hframe]⟩
      · rw [if_neg hframe]
        cases hc : contentOf z l s with
        | none => exact Or.inr (Or.inl ⟨⟨by omega, Or.inr ⟨by omega, hc⟩⟩, rfl⟩)
        | some c => exact Or.inr (Or.inr ⟨c, ⟨by omega, by omega⟩, rfl, rfl⟩)

/-- The three conditions exclude one another. -/
theorem Waiting.not_refused {z : Zlib} {l : Bool} {s : List UInt8} (h : Waiting l s) :
    ¬ Refused z l s := by
  rintro ⟨hh, hm | ⟨hf, -⟩⟩ <;> rcases h with h | ⟨hs, h⟩ <;> omega

theorem Waiting.not_complete {l : Bool} {s : List UInt8} (h : Waiting l s) :
    ¬ Complete l s := by
  intro hc
  have hh := hc.headerSize_le
  rcases h with h | ⟨-, h⟩
  · omega
  · have hf := hc.2
    omega

theorem Complete.contentOf_none {z : Zlib} {l : Bool} {s : List UInt8} (hc : Complete l s)
    (h : Refused z l s) : contentOf z l s = none := by
  rcases h.2 with hm | ⟨-, hn⟩
  · exact absurd hc.1 (by omega)
  · exact hn

theorem status_needMoreData_iff (z : Zlib) (s : List UInt8) (p : Packet) (l : Bool) :
    (tryParsePacket z s p l).status = .needMoreData ↔ Waiting l s := by
  rcases tryParsePacket_cases z s p l with ⟨hw, h⟩ | ⟨hr, h⟩ | ⟨c, hc, -, h⟩
  · simp [h, hw]
  · have hnot : ¬ Waiting l s := fun hw => hw.not_refused hr
    simp [h, hnot]
  · have hnot : ¬ Waiting l s := fun hw => hw.not_complete hc
    simp [h, hnot]

theorem status_invalid_iff (z : Zlib) (s : List UInt8) (p : Packet) (l : Bool) :
    (tryParsePacket z s p l).status = .invalid ↔ Refused z l s := by
  rcases tryParsePacket_cases z s p l with ⟨hw, h⟩ | ⟨hr, h⟩ | ⟨c, hc, hs, h⟩
  · have hnot : ¬ Refused z l s := hw.not_refused
    simp [h, hnot]
  · simp [h, hr]
  · have hnot : ¬ Refused z l s := by
      intro hr
      rw [hc.contentOf_none hr] at hs
      exact nomatch hs
    simp [h, hnot]

/-- The answer `Ok`, in full: the packet and the byte count are those of the
frame, whatever the out-parameter came in with. -/
theorem tryParsePacket_ok_iff (z : Zlib) (s : List UInt8) (p q : Packet) (l : Bool) (n : Nat) :
    tryParsePacket z s p l = ⟨.ok, q, n⟩
      ↔ ∃ c, Complete l s ∧ contentOf z l s = some c
          ∧ q = framePacket l s c ∧ n = frameSize l s := by
  rcases tryParsePacket_cases z s p l with ⟨hw, h⟩ | ⟨hr, h⟩ | ⟨c, hc, hs, h⟩
  · constructor
    · intro he
      rw [he] at h
      exact nomatch h
    · rintro ⟨c, hc, -⟩
      exact absurd hc hw.not_complete
  · constructor
    · intro he
      rw [he] at h
      exact nomatch h
    · rintro ⟨c, hc, hs, -⟩
      rw [hc.contentOf_none hr] at hs
      exact nomatch hs
  · rw [h, ParseResult.mk.injEq]
    constructor
    · rintro ⟨-, hq, hn⟩
      exact ⟨c, hc, hs, hq.symm, hn.symm⟩
    · rintro ⟨c', -, hs', rfl, rfl⟩
      obtain rfl : c = c' := Option.some.inj (hs.symm.trans hs')
      exact ⟨rfl, rfl, rfl⟩

theorem status_ok_iff (z : Zlib) (s : List UInt8) (p : Packet) (l : Bool) :
    (tryParsePacket z s p l).status = .ok
      ↔ ∃ c, tryParsePacket z s p l = ⟨.ok, framePacket l s c, frameSize l s⟩ := by
  constructor
  · intro he
    rcases tryParsePacket_cases z s p l with ⟨-, h⟩ | ⟨-, h⟩ | ⟨c, -, -, h⟩
    · exact nomatch h.symm.trans he
    · exact nomatch h.symm.trans he
    · exact ⟨c, h⟩
  · intro hex
    obtain ⟨c, hc⟩ := hex
    rw [hc]

/-- An `Ok` consumes at least a header and at most the stream. -/
theorem consumedBytes_bounds {z : Zlib} {s : List UInt8} {p q : Packet} {l : Bool} {n : Nat}
    (h : tryParsePacket z s p l = ⟨.ok, q, n⟩) : headerSize l ≤ n ∧ n ≤ s.length := by
  obtain ⟨c, hc, -, -, rfl⟩ := (tryParsePacket_ok_iff z s p q l n).mp h
  exact ⟨by rw [frameSize]; omega, hc.2⟩

/-! ## §3. The verdicts are final. -/

theorem Complete.extend {l : Bool} {s s' : List UInt8} (h : Complete l s) (hp : s <+: s') :
    Complete l s' := by
  have hlen := hp.length_le
  rw [Complete, sizeField_initial l hp h.headerSize_le, frameSize_initial l hp h.headerSize_le]
  exact ⟨h.1, Nat.le_trans h.2 hlen⟩

/-- **An `Ok` is final**: more bytes do not change the packet or the count. -/
theorem ok_extend {z : Zlib} {s s' : List UInt8} {p q : Packet} {l : Bool} {n : Nat}
    (h : tryParsePacket z s p l = ⟨.ok, q, n⟩) (hp : s <+: s') (p' : Packet) :
    tryParsePacket z s' p' l = ⟨.ok, q, n⟩ := by
  obtain ⟨c, hc, hs, rfl, rfl⟩ := (tryParsePacket_ok_iff z s p q l n).mp h
  have hb := headerSize_bounds l
  have hh := hc.headerSize_le
  refine (tryParsePacket_ok_iff z s' p' _ l _).mpr ⟨c, hc.extend hp, ?_, ?_, ?_⟩
  · rw [contentOf_initial z l hp hc.2, hs]
  · rw [framePacket, framePacket, idField_initial hp (by omega), flagField_initial l hp (by omega)]
  · rw [frameSize_initial l hp hh]

/-- **An `Invalid` is final.** -/
theorem invalid_extend {z : Zlib} {s s' : List UInt8} {p : Packet} {l : Bool}
    (h : (tryParsePacket z s p l).status = .invalid) (hp : s <+: s') (p' : Packet) :
    (tryParsePacket z s' p' l).status = .invalid := by
  have hlen := hp.length_le
  obtain ⟨hh, hr⟩ := (status_invalid_iff z s p l).mp h
  refine (status_invalid_iff z s' p' l).mpr ⟨Nat.le_trans hh hlen, ?_⟩
  rw [sizeField_initial l hp hh, frameSize_initial l hp hh]
  rcases hr with hm | ⟨hf, hn⟩
  · exact Or.inl hm
  · exact Or.inr ⟨Nat.le_trans hf hlen, by rw [contentOf_initial z l hp hf, hn]⟩

/-- **An `Ok` needs no byte past its frame.** -/
theorem ok_restrict {z : Zlib} {s u : List UInt8} {p q : Packet} {l : Bool} {n : Nat}
    (h : tryParsePacket z s p l = ⟨.ok, q, n⟩) (hu : u <+: s) (hn : n ≤ u.length) (p' : Packet) :
    tryParsePacket z u p' l = ⟨.ok, q, n⟩ := by
  obtain ⟨c, hc, hs, rfl, rfl⟩ := (tryParsePacket_ok_iff z s p q l n).mp h
  have hb := headerSize_bounds l
  have hh : headerSize l ≤ u.length := by
    rw [frameSize] at hn
    omega
  have hsize := sizeField_initial l hu hh
  have hframe := frameSize_initial l hu hh
  have hcu : Complete l u := ⟨by rw [← hsize]; exact hc.1, by rw [← hframe]; exact hn⟩
  refine (tryParsePacket_ok_iff z u p' _ l _).mpr ⟨c, hcu, ?_, ?_, hframe⟩
  · rw [← contentOf_initial z l hu hcu.2, hs]
  · rw [framePacket, framePacket, idField_initial hu (by omega), flagField_initial l hu (by omega)]

/-- **Short of its frame an `Ok` was `NeedMoreData`.** -/
theorem needMoreData_of_short {z : Zlib} {s u : List UInt8} {p q : Packet} {l : Bool} {n : Nat}
    (h : tryParsePacket z s p l = ⟨.ok, q, n⟩) (hu : u <+: s) (hn : u.length < n) (p' : Packet) :
    (tryParsePacket z u p' l).status = .needMoreData := by
  obtain ⟨c, hc, hs, rfl, rfl⟩ := (tryParsePacket_ok_iff z s p q l n).mp h
  refine (status_needMoreData_iff z u p' l).mpr ?_
  by_cases hh : u.length < headerSize l
  · exact Or.inl hh
  · -- with a header, `u` announces the same frame as `s`, and does not hold it
    have hh' : headerSize l ≤ u.length := by omega
    rw [Complete, sizeField_initial l hu hh'] at hc
    rw [frameSize_initial l hu hh'] at hn
    exact Or.inr ⟨hc.1, hn⟩

end Bancho.BanchoPacket
