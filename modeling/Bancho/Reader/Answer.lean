/-
  Bancho.Reader.Answer
  ────────────────────
  The reader is an incremental framer.  `wireAnswer` is what the front of a
  packet stream is, in the mode `legacy_header` (unset while the format is still
  to be detected); `consumePacketStream_eq` says that `consume_packet_stream` is
  that answer acted on, and nothing else:

      more   → NeedMoreData, nothing changes
      bad    → Invalid, nothing changes
      frame  → Ok, the frame comes off the stream, one Packet event,
               legacy_header is set

  In particular the guard on `consumed_bytes` is never taken.
-/
import Bancho.Library.Framing
import Bancho.Packet.Verdict
import Bancho.Server.Reader

namespace Bancho.Reader

open BanchoPacket Session Framing

/-! ## §1. The answer. -/

/-- A parse under one header format, as an answer. -/
def answerOf (l : Bool) (r : ParseResult) : Answer (Option Bool) Packet :=
  match r.status with
  | .needMoreData => .more
  | .ok => .frame r.packet r.consumedBytes (some l)
  | .invalid => .bad

/-- Auto-detection: a modern frame, else a legacy frame, else bad if both are. -/
def detect : Answer (Option Bool) Packet → Answer (Option Bool) Packet →
    Answer (Option Bool) Packet
  | .frame p n m, _ => .frame p n m
  | _, .frame p n m => .frame p n m
  | .bad, .bad => .bad
  | _, _ => .more

theorem detect_frame {a b : Answer (Option Bool) Packet} {p : Packet} {n : Nat}
    {m : Option Bool} (h : detect a b = .frame p n m) :
    a = .frame p n m ∨ (b = .frame p n m ∧ ∀ p n m, a ≠ .frame p n m) := by
  cases a with
  | frame p' n' m' => exact Or.inl h
  | more =>
      cases b with
      | frame p' n' m' => exact Or.inr ⟨h, fun _ _ _ h => nomatch h⟩
      | more => exact nomatch h
      | bad => exact nomatch h
  | bad =>
      cases b with
      | frame p' n' m' => exact Or.inr ⟨h, fun _ _ _ h => nomatch h⟩
      | more => exact nomatch h
      | bad => exact nomatch h

/-- Detection waits only if one of the parses does. -/
theorem detect_more {a b : Answer (Option Bool) Packet} (h : detect a b = .more) :
    a = .more ∨ b = .more := by
  cases a with
  | more => exact Or.inl rfl
  | frame p n m => exact nomatch h
  | bad =>
      cases b with
      | more => exact Or.inr rfl
      | frame p n m => exact nomatch h
      | bad => exact nomatch h

/-- The front of a packet stream under the mode `legacy_header`. -/
def wireAnswer (z : Zlib) (mode : Option Bool) (s : List UInt8) : Answer (Option Bool) Packet :=
  match mode with
  | some l => answerOf l (tryParsePacket z s {} l)
  | none => detect (answerOf false (tryParsePacket z s {} false))
      (answerOf true (tryParsePacket z s {} true))

theorem answerOf_frame_iff {l : Bool} {r : ParseResult} {p : Packet} {n : Nat}
    {m : Option Bool} :
    answerOf l r = .frame p n m ↔ r = ⟨.ok, p, n⟩ ∧ m = some l := by
  obtain ⟨status, q, k⟩ := r
  cases status with
  | needMoreData => simp [answerOf]
  | ok =>
      simp only [answerOf, Answer.frame.injEq, ParseResult.mk.injEq, true_and]
      constructor
      · intro h
        exact ⟨⟨h.1, h.2.1⟩, h.2.2.symm⟩
      · intro h
        exact ⟨h.1.1, h.1.2, h.2.symm⟩
  | invalid => simp [answerOf]

theorem answerOf_bad_iff {l : Bool} {r : ParseResult} :
    answerOf l r = .bad ↔ r.status = .invalid := by
  obtain ⟨status, q, k⟩ := r
  cases status <;> simp [answerOf]

theorem answerOf_more_iff {l : Bool} {r : ParseResult} :
    answerOf l r = .more ↔ r.status = .needMoreData := by
  obtain ⟨status, q, k⟩ := r
  cases status <;> simp [answerOf]

/-! ## §2. What an answer says about the stream. -/

/-- A frame was parsed under one format `l`, and `l` is the mode from then on:
it is the locked one, or the one detected. -/
theorem wireAnswer_frame {z : Zlib} {mode : Option Bool} {s : List UInt8} {p : Packet}
    {n : Nat} {m : Option Bool} (h : wireAnswer z mode s = .frame p n m) :
    ∃ l, m = some l ∧ (mode = none ∨ mode = some l)
      ∧ tryParsePacket z s {} l = ⟨.ok, p, n⟩ := by
  unfold wireAnswer at h
  cases mode with
  | some l =>
      obtain ⟨hr, hm⟩ := answerOf_frame_iff.mp h
      exact ⟨l, hm, Or.inr rfl, hr⟩
  | none =>
      rcases detect_frame h with hmod | ⟨hleg, -⟩
      · obtain ⟨hr, hm⟩ := answerOf_frame_iff.mp hmod
        exact ⟨false, hm, Or.inl rfl, hr⟩
      · obtain ⟨hr, hm⟩ := answerOf_frame_iff.mp hleg
        exact ⟨true, hm, Or.inl rfl, hr⟩

/-- The framer of a packet stream. -/
def wireFramer (z : Zlib) : Framer (Option Bool) UInt8 Packet where
  parse := wireAnswer z
  frame_size := by
    intro m s p n m' h
    obtain ⟨l, -, -, hr⟩ := wireAnswer_frame h
    have hb := headerSize_bounds l
    have hn := consumedBytes_bounds hr
    omega

/-! ## §3. `consume_packet_stream` acts on the answer. -/

/-- An `Ok` passes the guard on the byte count. -/
theorem finishConsume_ok {z : Zlib} (state : State) {l : Bool} {p : Packet} {n : Nat}
    (h : tryParsePacket z state.packetStream {} l = ⟨.ok, p, n⟩) (m : Option Bool) :
    finishConsume { state with legacyHeader := m } .ok p n
      = (.ok, { state with packetStream := state.packetStream.drop n, legacyHeader := m },
          [.packet p]) := by
  have hb := headerSize_bounds l
  have hn := consumedBytes_bounds h
  unfold finishConsume
  -- the status is `Ok`, and the count is neither 0 nor past the stream
  rw [if_neg (by simp), if_neg (by simp only; omega)]

/-- **`consume_packet_stream` is the answer acted on.** -/
theorem consumePacketStream_eq (z : Zlib) (state : State) :
    consumePacketStream z state =
      match wireAnswer z state.legacyHeader state.packetStream with
      | .more => (.needMoreData, state, [])
      | .bad => (.invalid, state, [])
      | .frame p n m =>
          (.ok, { state with packetStream := state.packetStream.drop n, legacyHeader := m },
            [.packet p]) := by
  obtain ⟨stream, queue, mode, writing⟩ := state
  cases mode with
  | some l =>
      -- the format is locked: one parse, and its status is the answer
      show finishConsume _ (tryParsePacket z stream {} l).status _ _
        = match answerOf l (tryParsePacket z stream {} l) with
          | .more => _ | .bad => _ | .frame p n m => _
      cases hr : tryParsePacket z stream {} l with
      | mk status p n =>
          cases status with
          | needMoreData => rfl
          | invalid => rfl
          | ok => exact finishConsume_ok ⟨stream, queue, some l, writing⟩ hr (some l)
  | none =>
      unfold consumePacketStream wireAnswer
      cases hmod : tryParsePacket z stream {} false with
      | mk modern p n =>
          cases hleg : tryParsePacket z stream {} true with
          | mk legacy p' n' =>
              -- nine pairs of statuses; the modern one has priority
              cases modern with
              | ok => exact finishConsume_ok ⟨stream, queue, none, writing⟩ hmod (some false)
              | needMoreData =>
                  cases legacy with
                  | ok => exact finishConsume_ok ⟨stream, queue, none, writing⟩ hleg (some true)
                  | needMoreData => rfl
                  | invalid => rfl
              | invalid =>
                  cases legacy with
                  | ok => exact finishConsume_ok ⟨stream, queue, none, writing⟩ hleg (some true)
                  | needMoreData => rfl
                  | invalid => rfl

section Call

variable {z : Zlib} {state : State}

theorem consumePacketStream_more
    (h : wireAnswer z state.legacyHeader state.packetStream = .more) :
    consumePacketStream z state = (.needMoreData, state, []) := by
  rw [consumePacketStream_eq, h]

theorem consumePacketStream_bad
    (h : wireAnswer z state.legacyHeader state.packetStream = .bad) :
    consumePacketStream z state = (.invalid, state, []) := by
  rw [consumePacketStream_eq, h]

theorem consumePacketStream_frame {p : Packet} {n : Nat} {m : Option Bool}
    (h : wireAnswer z state.legacyHeader state.packetStream = .frame p n m) :
    consumePacketStream z state
      = (.ok, { state with packetStream := state.packetStream.drop n, legacyHeader := m },
          [.packet p]) := by
  rw [consumePacketStream_eq, h]

end Call

end Bancho.Reader
