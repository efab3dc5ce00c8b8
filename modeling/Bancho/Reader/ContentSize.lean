/-
  Bancho.Reader.ContentSize
  ─────────────────────────
  How large a delivered content can be.  The limit `max_content_size` is one on
  the wire: it bounds the payload, and with it the content of an uncompressed
  packet.  A compressed content is bounded by what the codec can make of such a
  payload, and does exceed the limit (`contentSize_exceeded`).
-/
import Bancho.Packet.Payload
import Bancho.Reader.Invariants
import Bancho.Reader.Segmentation

namespace Bancho.Reader

open BanchoPacket Session Framing Transition

/-- Every delivered packet was parsed from a frame. -/
theorem exists_frame {z : Zlib} {as : List Action} {c : Config}
    (h : (system z).run as = some c) {p : Packet} (hp : p ∈ packetsOf c.events) :
    ∃ l b, FrameOf z l b p := by
  obtain ⟨-, -, frames, -, hframes⟩ := reachable_framed h
  -- along the list of frames, the frame beside `p`
  generalize packetsOf c.events = ps at hp hframes
  induction hframes with
  | nil => exact nomatch hp
  | cons hb _ ih =>
      rcases List.mem_cons.mp hp with rfl | hp
      · obtain ⟨l, -, hframe⟩ := hb
        exact ⟨l, _, hframe⟩
      · exact ih hp

/-- **Content size bound.**  In every reachable state each delivered packet has a
content within `max_content_size` if it was not compressed, and within `r` times
that if it was, for a codec that expands at most `r` times. -/
theorem contentSize_bounded (z : Zlib) (r : Nat) (hz : z.ExpandsAtMost r) (as : List Action)
    (c : Config) (h : (system z).run as = some c) :
    ∀ p ∈ packetsOf c.events,
      (p.compressed = false → p.content.length ≤ maxContentSize.toNat)
        ∧ (p.compressed = true → p.content.length ≤ r * maxContentSize.toNat) := by
  intro p hp
  obtain ⟨l, b, hframe⟩ := exists_frame h hp
  exact content_length hz hframe

theorem contentSize_bounded_twoBytes : ([8, 9] : List UInt8).length ≤ maxContentSize.toNat :=
  (contentSize_bounded fixedZlib 1032 FixedZlib.expandsAtMost twoBytes afterTwoBytes run_twoBytes
    ⟨1, false, [8, 9]⟩ List.mem_cons_self).1 rfl

/-! ## A content past the limit. -/

/-- A member of 26 KB that stands for 4194307 zero bytes. -/
def runMember : List UInt8 :=
  Gzip.wrapMember (Gzip.runBits 0 16257) (List.replicate (258 * 16257 + 1) 0)

theorem length_runMember_le : runMember.length ≤ maxContentSize.toNat := by
  have hmember := Gzip.length_wrapMember_le (Gzip.runBits 0 16257)
    (List.replicate (258 * 16257 + 1) 0)
  have hbits := Gzip.length_runBits_le 0 16257
  have hmax : maxContentSize.toNat = 4194304 := rfl
  unfold runMember
  omega

theorem gzipDecompress_runMember :
    gzipDecompress fixedZlib runMember = some (List.replicate (258 * 16257 + 1) 0) := by
  have hdec := Gzip.decodeMember_wrap (Gzip.inflateBlock_run 0 16257 (by decide)) []
  rw [List.append_nil] at hdec
  rw [FixedZlib.gzipDecompress_eq (Nat.lt_of_le_of_lt length_runMember_le (by decide)), runMember,
    hdec, Option.map_some]

/-- A session that reads one frame and nothing else delivers its packet. -/
theorem packetsOf_frame {z : Zlib} (hz : z.AcceptsOnlyGzip) {l : Bool} {b : List UInt8}
    {p : Packet} (h : wireAnswer z none b = .frame p b.length (some l)) (reads : List ReadBytes)
    (hreads : readsOf reads = b) : packetsOf (run z reads).events = [p] := by
  have hstable := wireFramer_stable hz
  have hagree := progressOf_agrees hz reads
  rw [packetsOf_run, hagree.frames, hreads, Framer.drain_frame h, List.drop_length,
    Framer.drain_more (hstable.nil _)]

/-- **A content past the limit**: a frame of 26 KB, read byte by byte, is
delivered with a content of 4194307 bytes. -/
theorem contentSize_exceeded :
    fixedZlib.ExpandsAtMost 1032
      ∧ packetsOf (run fixedZlib (byteReads (frameBytes false 1 true runMember))).events
        = [⟨1, true, List.replicate 4194307 0⟩]
      ∧ maxContentSize.toNat < (List.replicate 4194307 (0 : UInt8)).length := by
  have hparse := @parse_gzipFrame fixedZlib 1 _ _ length_runMember_le gzipDecompress_runMember {}
  -- the modern parse is `Ok`, so the legacy one is not looked at
  have hanswer : wireAnswer fixedZlib none (frameBytes false 1 true runMember)
      = .frame ⟨1, true, List.replicate 4194307 0⟩ (frameBytes false 1 true runMember).length
          (some false) := by
    unfold wireAnswer
    simp only [answerOf_ok hparse]
    rfl
  refine ⟨FixedZlib.expandsAtMost, ?_, ?_⟩
  · exact packetsOf_frame FixedZlib.acceptsOnlyGzip hanswer _ (readsOf_byteReads _)
  · rw [List.length_replicate]
    decide

end Bancho.Reader
