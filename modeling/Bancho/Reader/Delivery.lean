/-
  Bancho.Reader.Delivery
  ──────────────────────
  End-to-end delivery: packets serialized under one header format, put on the
  wire one after another and read in any pieces by a fresh session, arrive in
  order, and no sooner and no later than their last byte.

  The wire is a chain of frames for the framer of the reader
  (`chain_of_serialized`): the first one is read while the format is still to be
  detected, the others in the format it locked.  What a cut of the wire is drained
  into (`drain_serialized_cut`) is then what it delivers.

  Main result: `delivery`.
-/
import Bancho.Reader.Segmentation
import Mathlib.Data.List.Forall2

namespace Bancho.Reader

open BanchoPacket Session Framing

/-- A packet as it is handed to `serialize_packet`. -/
structure Outgoing where
  id : UInt16
  content : List UInt8
  compress : Bool
  deriving Repr, DecidableEq

/-- The packet as it is handed to `Event::Packet`, under the header format `l`. -/
def Outgoing.received (l : Bool) (m : Outgoing) : Packet := ⟨m.id, m.compress || l, m.content⟩

/-- `b` is the serialized packet `m` under the header format `l`. -/
def Serialized (z : Zlib) (l : Bool) (m : Outgoing) (b : List UInt8) : Prop :=
  m.content.length < 2 ^ 32 ∧ serializePacket z m.id m.content m.compress l = some b

/-! ## §1. The wire is a chain of frames. -/

/-- A serialized packet is one frame, in its own format and while the format is
being detected. -/
theorem parse_serialized {z : Zlib} (hz : z.InflateInvertsDeflate) (hg : z.AcceptsOnlyGzip)
    {l : Bool} {m : Outgoing} {b : List UInt8} (h : Serialized z l m b) {mode : Option Bool}
    (hmode : mode = none ∨ mode = some l) :
    (wireFramer z).parse mode b = .frame (m.received l) b.length (some l) := by
  have hparse := parse_serialize hz h.1 h.2 [] {}
  rw [List.append_nil] at hparse
  show wireAnswer z mode b = _
  unfold wireAnswer
  rcases hmode with rfl | rfl
  · cases l with
    | false =>
        simp only [answerOf_ok hparse]
        rfl
    | true =>
        -- read as a modern frame, the bytes are refused or not enough
        have hlegacy : (tryParsePacket z b {} true).status = .ok := by rw [hparse]
        have hmodern : (tryParsePacket z b {} false).status ≠ .ok := by
          intro hok
          exact modernOk_legacyNotOk hg hok (Or.inl (List.prefix_refl b)) {} hlegacy
        simp only [answerOf_ok hparse]
        exact detect_frame_right (answerOf_ne_frame hmodern)
  · exact answerOf_ok hparse

/-- Serialized packets, one after another, are a chain that locks the format. -/
theorem chain_of_serialized {z : Zlib} (hz : z.InflateInvertsDeflate) (hg : z.AcceptsOnlyGzip)
    {l : Bool} {msgs : List Outgoing} {wire : List (List UInt8)}
    (h : List.Forall₂ (Serialized z l) msgs wire) :
    ∀ mode, mode = none ∨ mode = some l →
      (wireFramer z).Chain mode (wire.zip (msgs.map (Outgoing.received l)))
        (if msgs = [] then mode else some l) := by
  induction h with
  | nil =>
      intro mode _
      exact Framer.Chain.nil mode
  | @cons m b msgs wire hb _ ih =>
      intro mode hmode
      -- whatever the mode was, the first frame leaves it locked for the others
      have hframe := parse_serialized hz hg hb hmode
      have hrest := ih (some l) (Or.inr rfl)
      rw [if_neg (List.cons_ne_nil m msgs)]
      refine Framer.Chain.cons hframe ?_
      split at hrest
      next => exact hrest
      next => exact hrest

/-- The chain of a wire: its frames are the serialized packets, and they carry the
packets as they are received. -/
structure WireChain (z : Zlib) (l : Bool) (msgs : List Outgoing) (wire : List (List UInt8))
    (bs : List (List UInt8 × Packet)) : Prop where
  chain : (wireFramer z).Chain none bs (if msgs = [] then none else some l)
  frames : bs.map Prod.fst = wire
  packets : bs.map Prod.snd = msgs.map (Outgoing.received l)

section WireChain

variable {z : Zlib} {l : Bool} {msgs : List Outgoing} {wire : List (List UInt8)}
  {bs : List (List UInt8 × Packet)}

theorem exists_wireChain (hz : z.InflateInvertsDeflate) (hg : z.AcceptsOnlyGzip)
    (h : List.Forall₂ (Serialized z l) msgs wire) : ∃ bs, WireChain z l msgs wire bs := by
  have hlen : wire.length = (msgs.map (Outgoing.received l)).length := by
    rw [List.length_map, h.length_eq]
  exact ⟨_, chain_of_serialized hz hg h none (Or.inl rfl),
    List.map_fst_zip (Nat.le_of_eq hlen), List.map_snd_zip (Nat.le_of_eq hlen.symm)⟩

theorem WireChain.symbols (h : WireChain z l msgs wire bs) :
    Framer.symbols bs = wire.flatten := by
  unfold Framer.symbols
  rw [h.frames]

theorem WireChain.symbols_take (h : WireChain z l msgs wire bs) (k : Nat) :
    Framer.symbols (bs.take k) = (wire.take k).flatten := by
  unfold Framer.symbols
  rw [List.map_take, h.frames]

theorem WireChain.length (h : WireChain z l msgs wire bs) : bs.length = msgs.length := by
  have hlen := congrArg List.length h.packets
  rwa [List.length_map, List.length_map] at hlen

end WireChain

/-! ## §2. What is drained from a wire. -/

section Drain

variable {z : Zlib} {l : Bool} {msgs : List Outgoing} {wire : List (List UInt8)}

/-- **A wire that is complete** is drained into all of its packets, and nothing is
left over. -/
theorem drain_serialized (hz : z.InflateInvertsDeflate) (hg : z.AcceptsOnlyGzip)
    (hwire : List.Forall₂ (Serialized z l) msgs wire) :
    (wireFramer z).drain none wire.flatten
      = ⟨msgs.map (Outgoing.received l), if msgs = [] then none else some l, [], false⟩ := by
  obtain ⟨bs, hbs⟩ := exists_wireChain hz hg hwire
  have hstable := wireFramer_stable hg
  have hend := Framer.drain_chain hstable hbs.chain []
  rw [List.append_nil, hbs.symbols, Framer.drain_more (hstable.nil _), hbs.packets] at hend
  rw [hend]
  simp only [List.append_nil]

/-- **Any cut of a wire** is drained into the packets whose frames are complete in
it, and the reader waits. -/
theorem drain_serialized_cut (hz : z.InflateInvertsDeflate) (hg : z.AcceptsOnlyGzip)
    (hwire : List.Forall₂ (Serialized z l) msgs wire) {u : List UInt8} (hu : u <+: wire.flatten) :
    ∃ k, k ≤ msgs.length
      ∧ ((wireFramer z).drain none u).frames = (msgs.take k).map (Outgoing.received l)
      ∧ ((wireFramer z).drain none u).bad = false
      ∧ ((wire.take k).flatten).length ≤ u.length
      ∧ (k < msgs.length → u.length < ((wire.take (k + 1)).flatten).length) := by
  obtain ⟨bs, hbs⟩ := exists_wireChain hz hg hwire
  rw [← hbs.symbols] at hu
  obtain ⟨k, hk, hframes, hbad, hlow, hhigh⟩ :=
    Framer.drain_cut (wireFramer_stable hg) (wireFramer_prompt hg) hbs.chain u hu
  rw [hbs.length] at hk hhigh
  rw [hbs.symbols_take] at hlow hhigh
  refine ⟨k, hk, ?_, hbad, hlow, hhigh⟩
  rw [hframes, List.map_take, hbs.packets, List.map_take]

end Drain

/-! ## §3. Delivery. -/

/-- The bytes of some of the reads are a prefix of the bytes of all. -/
theorem readsOf_initial {pre reads : List ReadBytes} (h : pre <+: reads) :
    readsOf pre <+: readsOf reads := by
  obtain ⟨post, rfl⟩ := h
  refine ⟨readsOf post, ?_⟩
  unfold readsOf
  rw [List.map_append, List.flatten_append]

/-- **End-to-end delivery.**  A non-empty list of packets, serialized under the
header format `l` and read in any pieces, is delivered in order; the session
locks `l`, never disconnects and is left with nothing; and at every cut it has
delivered exactly the packets whose frames are complete. -/
theorem delivery (z : Zlib) (hz : z.InflateInvertsDeflate) (hg : z.AcceptsOnlyGzip) (l : Bool)
    (msgs : List Outgoing) (wire : List (List UInt8)) (hne : msgs ≠ [])
    (hwire : List.Forall₂ (Serialized z l) msgs wire) (reads : List ReadBytes)
    (hreads : readsOf reads = wire.flatten) :
    packetsOf (run z reads).events = msgs.map (Outgoing.received l)
      ∧ (run z reads).state.legacyHeader = some l
      ∧ .disconnect ∉ (run z reads).events
      ∧ (run z reads).state.packetStream = []
      ∧ ∀ pre, pre <+: reads → .disconnect ∉ (run z pre).events
          ∧ ∃ k, k ≤ msgs.length
              ∧ packetsOf (run z pre).events = (msgs.take k).map (Outgoing.received l)
              ∧ ((wire.take k).flatten).length ≤ (readsOf pre).length
              ∧ (k < msgs.length → (readsOf pre).length < ((wire.take (k + 1)).flatten).length) := by
  -- once everything has arrived, the whole wire is drained and nothing is left
  have hdrain := drain_serialized hz hg hwire
  rw [if_neg hne, ← hreads] at hdrain
  have hagree := progressOf_agrees hg reads
  rw [hdrain] at hagree
  refine ⟨?_, ?_, ?_, ?_, ?_⟩
  · rw [packetsOf_run]
    exact hagree.frames
  · rw [legacyHeader_run]
    exact hagree.mode
  · rw [disconnect_run_iff, hagree.bad]
    exact Bool.false_ne_true
  · rw [packetStream_run]
    exact hagree.rest hagree.bad
  · -- what has arrived by a cut is a prefix of the wire
    intro pre hpre
    have hcut := readsOf_initial hpre
    rw [hreads] at hcut
    obtain ⟨k, hk, hframes, hbad, hlow, hhigh⟩ := drain_serialized_cut hz hg hwire hcut
    have hagree' := progressOf_agrees hg pre
    refine ⟨?_, k, hk, ?_, hlow, hhigh⟩
    · rw [disconnect_run_iff, hagree'.bad, hbad]
      exact Bool.false_ne_true
    · rw [packetsOf_run, hagree'.frames, hframes]

/-- Two legacy packets, byte by byte. -/
theorem delivery_twoLegacy :
    packetsOf (run fixedZlib (byteReads (frameBytes true 5 true emptyMember
      ++ frameBytes true 6 false (Gzip.encodeMember [7])))).events
      = [⟨5, true, []⟩, ⟨6, true, [7]⟩] := by
  have hfirst : Serialized fixedZlib true ⟨5, [], true⟩ (frameBytes true 5 true emptyMember) :=
    ⟨by decide, serializePacket_fixed encodeMember_nil (by decide)⟩
  have hsecond : Serialized fixedZlib true ⟨6, [7], false⟩
      (frameBytes true 6 false (Gzip.encodeMember [7])) :=
    ⟨by decide, serializePacket_fixed rfl (by decide +kernel)⟩
  refine (delivery fixedZlib FixedZlib.inflateInvertsDeflate FixedZlib.acceptsOnlyGzip true
    [⟨5, [], true⟩, ⟨6, [7], false⟩] _ (by decide)
    (.cons hfirst (.cons hsecond .nil)) _ ?_).1
  rw [readsOf_byteReads]
  simp only [List.flatten_cons, List.flatten_nil, List.append_nil]

end Bancho.Reader
