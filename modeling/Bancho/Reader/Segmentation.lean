/-
  Bancho.Reader.Segmentation
  ──────────────────────────
  The reader answers for the byte stream, not for the way it was cut into reads.

  What the framer library asks for is proved here of the packet stream: every
  verdict is stable under more bytes (`wireFramer_stable`), and short of a frame
  the reader waits (`wireFramer_prompt`).  While the format is being detected
  this rests on the exclusion of the two formats: a cut at which the legacy parse
  is `Ok` cannot be one that a modern frame grows from.

  Main result: `segmentation_invariant`.
-/
import Bancho.Reader.Detection
import Bancho.Reader.Simulation

namespace Bancho.Reader

open BanchoPacket Session Framing

/-! ## §1. The laws of the packet stream. -/

theorem detect_bad_iff {a b : Answer (Option Bool) Packet} :
    detect a b = .bad ↔ a = .bad ∧ b = .bad := by
  cases a <;> cases b <;> simp [detect]

/-- Detection waits if one parse does and the other has no frame. -/
theorem detect_more_left {b : Answer (Option Bool) Packet} (hb : ∀ p n m, b ≠ .frame p n m) :
    detect .more b = .more := by
  cases b with
  | more => rfl
  | bad => rfl
  | frame p n m => exact absurd rfl (hb p n m)

theorem detect_more_right {a : Answer (Option Bool) Packet} (ha : ∀ p n m, a ≠ .frame p n m) :
    detect a .more = .more := by
  cases a with
  | more => rfl
  | bad => rfl
  | frame p n m => exact absurd rfl (ha p n m)

/-- Detection takes the legacy frame if there is no modern one. -/
theorem detect_frame_right {a : Answer (Option Bool) Packet} {p : Packet} {n : Nat}
    {m : Option Bool} (ha : ∀ p n m, a ≠ .frame p n m) :
    detect a (.frame p n m) = .frame p n m := by
  cases a with
  | more => rfl
  | bad => rfl
  | frame p n m => exact absurd rfl (ha p n m)

/-- No frame under a format whose parse is not `Ok`. -/
theorem answerOf_ne_frame {l : Bool} {r : ParseResult} (h : r.status ≠ .ok) :
    ∀ p n m, answerOf l r ≠ .frame p n m := by
  intro p n m hframe
  obtain ⟨rfl, -⟩ := answerOf_frame_iff.mp hframe
  exact h rfl

theorem answerOf_ok {l : Bool} {r : ParseResult} {p : Packet} {n : Nat} (h : r = ⟨.ok, p, n⟩) :
    answerOf l r = .frame p n (some l) :=
  answerOf_frame_iff.mpr ⟨h, rfl⟩

/-- A stream without a byte is neither a frame nor refused. -/
theorem parse_nil (z : Zlib) (l : Bool) : answerOf l (tryParsePacket z [] {} l) = .more := by
  have hb := headerSize_bounds l
  refine answerOf_more_iff.mpr ((status_needMoreData_iff z [] {} l).mpr (Or.inl ?_))
  show 0 < headerSize l
  omega

/-- **More bytes change no verdict of the reader**, not even while the format is
being detected. -/
theorem wireFramer_stable {z : Zlib} (hz : z.AcceptsOnlyGzip) : (wireFramer z).Stable where
  nil := by
    intro m
    show wireAnswer z m [] = .more
    unfold wireAnswer
    cases m with
    | some l => exact parse_nil z l
    | none =>
        simp only [parse_nil]
        rfl
  frame := by
    intro m s p n m' t h
    show wireAnswer z m (s ++ t) = .frame p n m'
    have hpre := List.prefix_append s t
    unfold wireAnswer
    cases m with
    | some l =>
        obtain ⟨hok, rfl⟩ := answerOf_frame_iff.mp h
        exact answerOf_ok (ok_extend hok hpre {})
    | none =>
        rcases detect_frame h with hmodern | ⟨hlegacy, -⟩
        · obtain ⟨hok, rfl⟩ := answerOf_frame_iff.mp hmodern
          simp only [answerOf_ok (ok_extend hok hpre {})]
          rfl
        · -- the modern parse has a header by now, and refuses it for good
          obtain ⟨hok, rfl⟩ := answerOf_frame_iff.mp hlegacy
          have hmodern := legacyOk_modernInvalid hz (by rw [hok]) (Or.inr hpre) {}
          simp only [answerOf_ok (ok_extend hok hpre {})]
          exact detect_frame_right (answerOf_ne_frame (by rw [hmodern]; decide))
  bad := by
    intro m s t h
    show wireAnswer z m (s ++ t) = .bad
    have hpre := List.prefix_append s t
    unfold wireAnswer
    cases m with
    | some l => exact answerOf_bad_iff.mpr (invalid_extend (answerOf_bad_iff.mp h) hpre {})
    | none =>
        obtain ⟨hmodern, hlegacy⟩ := detect_bad_iff.mp h
        exact detect_bad_iff.mpr
          ⟨answerOf_bad_iff.mpr (invalid_extend (answerOf_bad_iff.mp hmodern) hpre {}),
            answerOf_bad_iff.mpr (invalid_extend (answerOf_bad_iff.mp hlegacy) hpre {})⟩

/-- **Short of a frame the reader waits**: the other format does not interfere. -/
theorem wireFramer_prompt {z : Zlib} (hz : z.AcceptsOnlyGzip) : (wireFramer z).Prompt := by
  intro m s p n m' u h hu hn
  show wireAnswer z m u = .more
  unfold wireAnswer
  cases m with
  | some l =>
      obtain ⟨hok, -⟩ := answerOf_frame_iff.mp h
      exact answerOf_more_iff.mpr (needMoreData_of_short hok hu hn {})
  | none =>
      rcases detect_frame h with hmodern | ⟨hlegacy, hnot⟩
      · obtain ⟨hok, -⟩ := answerOf_frame_iff.mp hmodern
        have hwait : answerOf false (tryParsePacket z u {} false) = .more :=
          answerOf_more_iff.mpr (needMoreData_of_short hok hu hn {})
        have hother := modernOk_legacyNotOk hz (by rw [hok]) (Or.inl hu) {}
        simp only [hwait]
        exact detect_more_left (answerOf_ne_frame hother)
      · obtain ⟨hok, -⟩ := answerOf_frame_iff.mp hlegacy
        have hwait : answerOf true (tryParsePacket z u {} true) = .more :=
          answerOf_more_iff.mpr (needMoreData_of_short hok hu hn {})
        simp only [hwait]
        apply detect_more_right
        intro q k m'' hframe
        -- a modern frame here would still be one on the whole stream
        obtain ⟨hmodern, -⟩ := answerOf_frame_iff.mp hframe
        exact hnot q k (some false) (answerOf_ok (ok_extend hmodern hu {}))

/-! ## §2. Segmentation invariance. -/

/-- **A session agrees with the drain** of all its bytes at once. -/
theorem progressOf_agrees {z : Zlib} (hz : z.AcceptsOnlyGzip) (reads : List ReadBytes) :
    Outcome.Agrees (progressOf z reads) ((wireFramer z).drain none (readsOf reads)) :=
  Framer.feedAll_agrees (wireFramer_stable hz) none (reads.map ReadBytes.bytes)

/-- **Segmentation invariance**: two ways of cutting the same bytes into reads
deliver the same packets, lock the same header format, agree on `Disconnect`,
and, without it, leave the same bytes. -/
theorem segmentation_invariant (z : Zlib) (hz : z.AcceptsOnlyGzip) (cs ds : List ReadBytes)
    (h : readsOf cs = readsOf ds) :
    packetsOf (run z cs).events = packetsOf (run z ds).events
      ∧ (run z cs).state.legacyHeader = (run z ds).state.legacyHeader
      ∧ (.disconnect ∈ (run z cs).events ↔ .disconnect ∈ (run z ds).events)
      ∧ (.disconnect ∉ (run z cs).events →
          (run z cs).state.packetStream = (run z ds).state.packetStream) := by
  have hds := progressOf_agrees hz ds
  rw [← h] at hds
  have hagree := (progressOf_agrees hz cs).trans hds.symm
  rw [packetsOf_run, packetsOf_run, legacyHeader_run, legacyHeader_run, packetStream_run,
    packetStream_run, disconnect_run_iff, disconnect_run_iff, hagree.bad]
  refine ⟨hagree.frames, hagree.mode, Iff.rfl, fun hgood => hagree.rest ?_⟩
  rw [hagree.bad]
  exact Bool.eq_false_iff.mpr hgood

/-- Every byte in a read of its own. -/
def byteReads (bytes : List UInt8) : List ReadBytes :=
  bytes.map fun b => ⟨[b], Nat.one_pos, Nat.succ_le_succ (Nat.zero_le _)⟩

theorem readsOf_byteReads (bytes : List UInt8) : readsOf (byteReads bytes) = bytes := by
  unfold readsOf byteReads
  induction bytes with
  | nil => rfl
  | cons b bytes ih => exact congrArg (b :: ·) ih

/-- An empty legacy packet, in one read and byte by byte. -/
theorem segmentation_invariant_emptyLegacy :
    packetsOf (run fixedZlib [⟨frameBytes true 5 true emptyMember, by decide, by decide⟩]).events
      = packetsOf (run fixedZlib (byteReads (frameBytes true 5 true emptyMember))).events := by
  refine (segmentation_invariant fixedZlib FixedZlib.acceptsOnlyGzip _ _ ?_).1
  rw [readsOf_byteReads]
  exact List.append_nil _

end Bancho.Reader
