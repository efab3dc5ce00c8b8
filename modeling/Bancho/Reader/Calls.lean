/-
  Bancho.Reader.Calls
  ───────────────────
  The calls of `consume_packet_stream`: one, and those of the `while (true)` loop.

  One call is all or nothing.  On the detection path `legacy_header` is written
  before the guard on `consumed_bytes` and before the erase, so a guard that
  failed would leave the session half changed; it never does, because an `Ok`
  consumes at least a header and at most the stream.

  The loop has no counter.  Each `Ok` takes a header off the stream, 6 bytes or
  7, so there are at most `packet_stream.size() / 6` of them, and then the call
  that ends it.

  Main results:
    * `consume_all_or_nothing`;
    * `consumeLoop_calls`.
-/
import Bancho.Reader.Simulation

namespace Bancho.Reader

open BanchoPacket Session Framing

/-! ## §1. One call. -/

/-- What reaches the tail of `consume_packet_stream`: the session, in which
`legacy_header` may be written by now, and `parse_status`, `packet` and
`consumed_bytes`. -/
def chosen (z : Zlib) (state : State) : State × ParseResult :=
  match state.legacyHeader with
  | some legacyHeader => (state, tryParsePacket z state.packetStream {} legacyHeader)
  | none =>
      let modern := tryParsePacket z state.packetStream {} false
      let legacy := tryParsePacket z state.packetStream {} true
      if modern.status = .ok then ({ state with legacyHeader := some false }, modern)
      else if legacy.status = .ok then ({ state with legacyHeader := some true }, legacy)
      else if modern.status = .invalid ∧ legacy.status = .invalid then (state, ⟨.invalid, {}, 0⟩)
      else (state, ⟨.needMoreData, {}, 0⟩)

/-- The tail acts on what was chosen. -/
theorem consumePacketStream_chosen (z : Zlib) (state : State) :
    consumePacketStream z state
      = finishConsume (chosen z state).1 (chosen z state).2.status (chosen z state).2.packet
          (chosen z state).2.consumedBytes := by
  obtain ⟨stream, queue, mode, writing⟩ := state
  cases mode with
  | some l => rfl
  | none =>
      unfold consumePacketStream chosen
      by_cases hmodern : (tryParsePacket z stream {} false).status = .ok
      · simp only [if_pos hmodern]
      · by_cases hlegacy : (tryParsePacket z stream {} true).status = .ok
        · simp only [if_neg hmodern, if_pos hlegacy]
        · simp only [if_neg hmodern, if_neg hlegacy]
          split <;> rfl

/-- The guard of the source: `Ok`, and a byte count of 0 or past the stream. -/
def GuardTaken (z : Zlib) (state : State) : Prop :=
  (chosen z state).2.status = .ok
    ∧ ((chosen z state).2.consumedBytes = 0
      ∨ (chosen z state).2.consumedBytes > (chosen z state).1.packetStream.length)

/-- An `Ok` that reaches the tail is one of a parse of the stream. -/
theorem chosen_ok {z : Zlib} {state : State} (h : (chosen z state).2.status = .ok) :
    (chosen z state).1.packetStream = state.packetStream
      ∧ ∃ l, (chosen z state).2 = tryParsePacket z state.packetStream {} l := by
  obtain ⟨stream, queue, mode, writing⟩ := state
  cases mode with
  | some l => exact ⟨rfl, l, rfl⟩
  | none =>
      by_cases hmodern : (tryParsePacket z stream {} false).status = .ok
      · have hchosen : chosen z ⟨stream, queue, none, writing⟩
            = (⟨stream, queue, some false, writing⟩, tryParsePacket z stream {} false) := by
          unfold chosen
          simp only [if_pos hmodern]
        rw [hchosen]
        exact ⟨rfl, false, rfl⟩
      · by_cases hlegacy : (tryParsePacket z stream {} true).status = .ok
        · have hchosen : chosen z ⟨stream, queue, none, writing⟩
              = (⟨stream, queue, some true, writing⟩, tryParsePacket z stream {} true) := by
            unfold chosen
            simp only [if_neg hmodern, if_pos hlegacy]
          rw [hchosen]
          exact ⟨rfl, true, rfl⟩
        · -- neither parse is `Ok`, and the combined verdict is not either
          unfold chosen at h
          simp only [if_neg hmodern, if_neg hlegacy] at h
          split at h <;> exact nomatch h

/-- **The guard is never taken.** -/
theorem not_guardTaken (z : Zlib) (state : State) : ¬ GuardTaken z state := by
  intro hguard
  obtain ⟨hok, hcount⟩ := hguard
  obtain ⟨hstream, l, hparse⟩ := chosen_ok hok
  rw [hparse] at hok hcount
  rw [hstream] at hcount
  obtain ⟨c, hr⟩ := (status_ok_iff z state.packetStream {} l).mp hok
  have hb := headerSize_bounds l
  have hn := consumedBytes_bounds hr
  rw [hr] at hcount
  simp only at hcount
  omega

/-- **`consume_packet_stream` is all or nothing.**  On `NeedMoreData` and on
`Invalid` the session is what it was and no event is raised.  On `Ok` one Packet
event is raised, its frame and no other byte is taken off the front of the
stream, and `legacy_header` is set.  The guard on `consumed_bytes`, which the tail
makes on what was chosen, is not taken. -/
theorem consume_all_or_nothing (z : Zlib) (state : State) :
    ((consumePacketStream z state).1 ≠ .ok → (consumePacketStream z state).2 = (state, []))
      ∧ ((consumePacketStream z state).1 = .ok → ∃ l p n,
        (state.legacyHeader = none ∨ state.legacyHeader = some l)
          ∧ tryParsePacket z state.packetStream {} l = ⟨.ok, p, n⟩
          ∧ tryParsePacket z (state.packetStream.take n) {} l = ⟨.ok, p, n⟩
          ∧ headerSize l ≤ n ∧ n ≤ state.packetStream.length
          ∧ (consumePacketStream z state).2
            = ({ state with packetStream := state.packetStream.drop n, legacyHeader := some l },
                [.packet p]))
      ∧ consumePacketStream z state
        = finishConsume (chosen z state).1 (chosen z state).2.status (chosen z state).2.packet
            (chosen z state).2.consumedBytes
      ∧ ¬ GuardTaken z state := by
  refine ⟨?_, ?_, consumePacketStream_chosen z state, not_guardTaken z state⟩
  · intro hstatus
    cases hanswer : wireAnswer z state.legacyHeader state.packetStream with
    | more => rw [consumePacketStream_more hanswer]
    | bad => rw [consumePacketStream_bad hanswer]
    | frame p n m =>
        rw [consumePacketStream_frame hanswer] at hstatus
        exact absurd rfl hstatus
  · intro hstatus
    cases hanswer : wireAnswer z state.legacyHeader state.packetStream with
    | more =>
        rw [consumePacketStream_more hanswer] at hstatus
        exact nomatch hstatus
    | bad =>
        rw [consumePacketStream_bad hanswer] at hstatus
        exact nomatch hstatus
    | frame p n m =>
        rw [consumePacketStream_frame hanswer]
        obtain ⟨l, rfl, hmode, hparse⟩ := wireAnswer_frame hanswer
        have hn := consumedBytes_bounds hparse
        have halone : tryParsePacket z (state.packetStream.take n) {} l = ⟨.ok, p, n⟩ :=
          ok_restrict hparse (List.take_prefix n _) (by rw [List.length_take_of_le hn.2]) {}
        exact ⟨l, p, n, hmode, hparse, halone, hn.1, hn.2, rfl⟩

/-! ## §2. The calls of the loop. -/

/-- The `while (true)` loop, stopped after `k` calls of `consume_packet_stream`:
`none` if they all returned `Ok`. -/
def consumeLoopFor (z : Zlib) : Nat → State → List Event →
    Option (ParseStatus × State × List Event)
  | 0, _, _ => none
  | k + 1, state, events =>
      let r := consumePacketStream z state
      if r.1 = .ok then consumeLoopFor z k r.2.1 (events ++ r.2.2)
      else some (r.1, r.2.1, events ++ r.2.2)

/-- One call more than there are frames is enough. -/
theorem consumeLoopFor_eq (z : Zlib) (m : Option Bool) (s : List UInt8) :
    ∀ (k : Nat) (state : State) (events : List Event),
      state.legacyHeader = m → state.packetStream = s →
      ((wireFramer z).drain m s).frames.length < k →
      consumeLoopFor z k state events = some (consumeLoop z state events) := by
  induction m, s using Framer.drain.induct (wireFramer z) with
  | case1 m s h =>
      intro k state events hm hs hk
      subst hm hs
      have hc := consumePacketStream_more h
      cases k with
      | zero => exact absurd hk (Nat.not_lt_zero _)
      | succ k =>
          rw [consumeLoop_stop hc (by decide), consumeLoopFor]
          simp only [hc]
          rfl
  | case2 m s h =>
      intro k state events hm hs hk
      subst hm hs
      have hc := consumePacketStream_bad h
      cases k with
      | zero => exact absurd hk (Nat.not_lt_zero _)
      | succ k =>
          rw [consumeLoop_stop hc (by decide), consumeLoopFor]
          simp only [hc]
          rfl
  | case3 m s p n m' h ih =>
      intro k state events hm hs hk
      subst hm hs
      have hc := consumePacketStream_frame h
      rw [Framer.drain_frame h, List.length_cons] at hk
      cases k with
      | zero => exact absurd hk (Nat.not_lt_zero _)
      | succ k =>
          -- this call took one frame, and the others are left for the other calls
          have hrest := Nat.lt_of_succ_lt_succ hk
          rw [consumeLoop_ok hc, consumeLoopFor]
          simp only [hc, if_true]
          exact ih k _ _ rfl rfl hrest

/-- Each frame takes a header off the stream, so there are at most a sixth as
many as bytes. -/
theorem frames_length_le (z : Zlib) (m : Option Bool) (s : List UInt8) :
    ((wireFramer z).drain m s).frames.length ≤ s.length / 6 := by
  rw [Nat.le_div_iff_mul_le (by decide)]
  apply Framer.frames_length_mul_le
  intro m s p n m' h
  obtain ⟨l, -, -, hparse⟩ := wireAnswer_frame h
  have hb := headerSize_bounds l
  have hn := consumedBytes_bounds hparse
  omega

/-- **The loop ends** on every stream in every mode: after at most
`packet_stream.size() / 6 + 1` calls it has a status other than `Ok`. -/
theorem consumeLoop_calls (z : Zlib) (state : State) (events : List Event) :
    consumeLoopFor z (state.packetStream.length / 6 + 1) state events
        = some (consumeLoop z state events)
      ∧ (consumeLoop z state events).1 ≠ .ok := by
  have hframes := frames_length_le z state.legacyHeader state.packetStream
  constructor
  · exact consumeLoopFor_eq z _ _ _ state events rfl rfl (Nat.lt_succ_of_le hframes)
  · rw [consumeLoop_eq z _ _ state events rfl rfl]
    show stopStatus _ ≠ .ok
    unfold stopStatus
    split
    · decide
    · decide

end Bancho.Reader
