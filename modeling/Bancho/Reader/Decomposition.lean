/-
  Bancho.Reader.Decomposition
  ───────────────────────────
  What a byte stream is to a session.  There is one way to take it apart into
  frames and a rest that is no frame (`Decomposes`), and a session goes through
  exactly these frames, at whatever points the stream is cut into reads:

      received  =  frame₁ frame₂ … frameₖ  rest       rest: wait, or Invalid

  Whenever a read is armed every frame is delivered, so no complete packet is
  ever left in `packet_stream`.

  Main results:
    * `session_decomposes` — every reachable session, against the one
      decomposition of what it has received;
    * `wire_initial_iff`   — serialized streams are prefixes of each other exactly
      when their lists of packets are.
-/
import Bancho.Reader.Delivery
import Bancho.Reader.Invariants

namespace Bancho.Reader

open BanchoPacket Session Framing Transition

/-! ## §1. The one decomposition. -/

/-- **A frame does not depend on what follows it**, not even while the format is
being detected. -/
theorem wireFramer_local (z : Zlib) : (wireFramer z).Local := by
  intro m s p n m' h
  show wireAnswer z m (s.take n) = .frame p n m'
  have halone : ∀ {l : Bool}, tryParsePacket z s {} l = ⟨.ok, p, n⟩ →
      tryParsePacket z (s.take n) {} l = ⟨.ok, p, n⟩ := by
    intro l hok
    have hlen : (s.take n).length = n := List.length_take_of_le (consumedBytes_bounds hok).2
    exact ok_restrict hok (List.take_prefix n s) (Nat.le_of_eq hlen.symm) {}
  unfold wireAnswer
  cases m with
  | some l =>
      obtain ⟨hok, rfl⟩ := answerOf_frame_iff.mp h
      exact answerOf_ok (halone hok)
  | none =>
      rcases detect_frame h with hmodern | ⟨hlegacy, hnot⟩
      · obtain ⟨hok, rfl⟩ := answerOf_frame_iff.mp hmodern
        simp only [answerOf_ok (halone hok)]
        rfl
      · obtain ⟨hok, rfl⟩ := answerOf_frame_iff.mp hlegacy
        simp only [answerOf_ok (halone hok)]
        apply detect_frame_right
        intro q k m'' hframe
        -- a modern frame at the front would still be one on the whole stream
        obtain ⟨hmodern, -⟩ := answerOf_frame_iff.mp hframe
        exact hnot q k (some false) (answerOf_ok (ok_extend hmodern (List.take_prefix n s) {}))

/-- `s` is the frames `bs`, each beside its packet, and a rest on which a session
stops in the mode that the frames lead to: `bad` says whether it is `Invalid`. -/
structure Decomposes (z : Zlib) (s : List UInt8) (bs : List (List UInt8 × Packet))
    (mode : Option Bool) (rest : List UInt8) (bad : Bool) : Prop where
  chain : (wireFramer z).Chain none bs mode
  bytes : s = Framer.symbols bs ++ rest
  stop : wireAnswer z mode rest = if bad then .bad else .more

section Decomposition

variable {z : Zlib} {s : List UInt8} {bs : List (List UInt8 × Packet)} {mode : Option Bool}
  {rest : List UInt8} {bad : Bool}

/-- A stream can be taken apart. -/
theorem exists_decomposition (z : Zlib) (s : List UInt8) :
    ∃ bs, Decomposes z s bs ((wireFramer z).drain none s).mode
      ((wireFramer z).drain none s).rest ((wireFramer z).drain none s).bad := by
  obtain ⟨bs, hchain, -, hbytes, hstop⟩ := Framer.exists_chain (wireFramer_local z) none s
  exact ⟨bs, hchain, hbytes, hstop⟩

/-- However it is taken apart, the drain of the stream shows it. -/
theorem Decomposes.drain_eq (hz : z.AcceptsOnlyGzip) (h : Decomposes z s bs mode rest bad) :
    (wireFramer z).drain none s = ⟨bs.map Prod.snd, mode, rest, bad⟩ := by
  rw [h.bytes]
  exact Framer.drain_of_chain (wireFramer_stable hz) h.chain h.stop

/-- **Two decompositions of a stream are the same.** -/
theorem Decomposes.unique (hz : z.AcceptsOnlyGzip) (h : Decomposes z s bs mode rest bad)
    {bs' : List (List UInt8 × Packet)} {mode' : Option Bool} {rest' : List UInt8} {bad' : Bool}
    (h' : Decomposes z s bs' mode' rest' bad') :
    bs' = bs ∧ mode' = mode ∧ rest' = rest ∧ bad' = bad := by
  have hsame := (h'.drain_eq hz).symm.trans (h.drain_eq hz)
  obtain ⟨hframes, hmode, hrest, hbad⟩ := Outcome.mk.inj hsame
  -- the frames have the same packets; being read off the same bytes they are equal
  have hsymbols : Framer.symbols bs' = Framer.symbols bs := by
    have hbytes := h'.bytes.symm.trans h.bytes
    rw [hrest] at hbytes
    exact List.append_cancel_right hbytes
  have hinit := (Framer.Chain.initial_iff (wireFramer_stable hz) h'.chain h.chain).mp
    (hsymbols ▸ List.prefix_refl _)
  have hlen : bs'.length = bs.length := by
    have hcount := congrArg List.length hframes
    rwa [List.length_map, List.length_map] at hcount
  exact ⟨hinit.eq_of_length hlen, hmode, hrest, hbad⟩

end Decomposition

/-! ## §2. What a session has made of the bytes so far. -/

/-- The packets delivered are those of the first frames received, and what is
left to find in `packet_stream` is what is left to find in the bytes received;
an armed read waits for more, and a closed session found an `Invalid` or had a
read error. -/
structure Parsed (z : Zlib) (as : List Action) (c : Config) : Prop where
  drained : (wireFramer z).drain none c.received
    = { c.outcome z with frames := packetsOf c.events ++ (c.outcome z).frames }
  armed : c.phase = .reading → wireAnswer z c.state.legacyHeader c.state.packetStream = .more
  closed : c.phase = .closed →
    wireAnswer z c.state.legacyHeader c.state.packetStream = .bad
      ∨ (wireAnswer z c.state.legacyHeader c.state.packetStream = .more ∧ .readError ∈ as)

theorem outcome_more {z : Zlib} {c : Config}
    (h : wireAnswer z c.state.legacyHeader c.state.packetStream = .more) :
    c.outcome z = ⟨[], c.state.legacyHeader, c.state.packetStream, false⟩ :=
  Framer.drain_more h

theorem outcome_bad {z : Zlib} {c : Config}
    (h : wireAnswer z c.state.legacyHeader c.state.packetStream = .bad) :
    c.outcome z = ⟨[], c.state.legacyHeader, c.state.packetStream, true⟩ :=
  Framer.drain_bad h

theorem outcome_frame {z : Zlib} {c : Config} {p : Packet} {n : Nat} {m : Option Bool}
    (h : wireAnswer z c.state.legacyHeader c.state.packetStream = .frame p n m) :
    c.outcome z = { (c.taken p n m).outcome z with
      frames := p :: ((c.taken p n m).outcome z).frames } :=
  Framer.drain_frame h

/-- **Each step keeps to the decomposition.** -/
theorem parsed_took {z : Zlib} (hz : z.AcceptsOnlyGzip) {as : List Action} {c c' : Config}
    {a : Action} (h : Took z c a c') (hi : Parsed z as c) : Parsed z (as ++ [a]) c' := by
  have hdrained := hi.drained
  cases h with
  | read r hphase =>
      refine ⟨?_, fun hreading => (nomatch hreading), fun hclosed => (nomatch hclosed)⟩
      -- the session was waiting, so draining goes on with the stream and the read
      rw [outcome_more (hi.armed hphase)] at hdrained
      show (wireFramer z).drain none (c.received ++ r.bytes) = _
      rw [Framer.drain_append (wireFramer_stable hz), hdrained]
      unfold Framer.extend
      simp only [Bool.false_eq_true, if_false, List.append_nil]
      rfl
  | readError hphase =>
      refine ⟨?_, fun hreading => (nomatch hreading), ?_⟩
      · rw [packetsOf_disconnected]
        exact hdrained
      · intro _
        exact Or.inr ⟨hi.armed hphase, List.mem_append_right as List.mem_cons_self⟩
  | more hphase hanswer =>
      exact ⟨hdrained, fun _ => hanswer, fun hclosed => (nomatch hclosed)⟩
  | bad hphase hanswer =>
      refine ⟨?_, fun hreading => (nomatch hreading), fun _ => Or.inl hanswer⟩
      rw [packetsOf_disconnected]
      exact hdrained
  | frame p n l hphase hanswer _ _ =>
      refine ⟨?_, fun hreading => (nomatch hphase.symm.trans hreading),
        fun hclosed => (nomatch hphase.symm.trans hclosed)⟩
      show (wireFramer z).drain none c.received = _
      rw [hdrained, outcome_frame hanswer, packetsOf_taken, List.append_assoc]
      rfl

theorem reachable_parsed {z : Zlib} (hz : z.AcceptsOnlyGzip) {as : List Action} {c : Config}
    (h : (system z).run as = some c) : Parsed z as c := by
  refine System.runFrom_induction (P := Parsed z) ?_ ?_ h
  · exact ⟨rfl, fun _ => (wireFramer_stable hz).nil none, fun hclosed => (nomatch hclosed)⟩
  · intro as c a c' hi hstep
    exact parsed_took hz (step_took hstep) hi

/-- **A session takes its stream apart.**  In every reachable state there is one
way to take the bytes received apart into frames and a rest without a frame at
its front.  What was delivered are the packets of the first of these frames; when
the loop is not running, of all of them, and `packet_stream` is the rest.  A
session whose read is armed waits for more of it, and one that closed without a
read error has found it `Invalid`. -/
theorem session_decomposes (z : Zlib) (hz : z.AcceptsOnlyGzip) (as : List Action) (c : Config)
    (h : (system z).run as = some c) :
    ∃ bs mode rest bad, Decomposes z (bytesRead as) bs mode rest bad
      ∧ (∀ bs' mode' rest' bad', Decomposes z (bytesRead as) bs' mode' rest' bad' →
          bs' = bs ∧ mode' = mode ∧ rest' = rest ∧ bad' = bad)
      ∧ packetsOf c.events <+: bs.map Prod.snd
      ∧ (c.phase ≠ .draining → packetsOf c.events = bs.map Prod.snd
          ∧ c.state.legacyHeader = mode ∧ c.state.packetStream = rest)
      ∧ (c.phase = .reading → bad = false)
      ∧ (c.phase = .closed → .readError ∉ as → bad = true) := by
  have hparsed := reachable_parsed hz h
  have hdrained := hparsed.drained
  rw [received_run h] at hdrained
  obtain ⟨bs, hdec⟩ := exists_decomposition z (bytesRead as)
  have hframes : ((wireFramer z).drain none (bytesRead as)).frames = bs.map Prod.snd :=
    congrArg Outcome.frames (hdec.drain_eq hz)
  refine ⟨bs, _, _, _, hdec, fun _ _ _ _ h' => hdec.unique hz h', ?_, ?_, ?_, ?_⟩
  · rw [← hframes, hdrained]
    exact List.prefix_append _ _
  · intro hphase
    -- the session is stopped: there is nothing more in the stream
    have hstopped : (c.outcome z).frames = [] ∧ (c.outcome z).mode = c.state.legacyHeader
        ∧ (c.outcome z).rest = c.state.packetStream := by
      cases hp : c.phase with
      | reading =>
          rw [outcome_more (hparsed.armed hp)]
          exact ⟨rfl, rfl, rfl⟩
      | draining => exact absurd hp hphase
      | closed =>
          rcases hparsed.closed hp with hbad | ⟨hmore, -⟩
          · rw [outcome_bad hbad]
            exact ⟨rfl, rfl, rfl⟩
          · rw [outcome_more hmore]
            exact ⟨rfl, rfl, rfl⟩
    obtain ⟨hnone, hmode, hrest⟩ := hstopped
    have hall : packetsOf c.events = bs.map Prod.snd := by
      rw [← hframes, hdrained]
      show _ = packetsOf c.events ++ (c.outcome z).frames
      rw [hnone, List.append_nil]
    refine ⟨hall, ?_, ?_⟩
    · rw [hdrained, ← hmode]
    · rw [hdrained, ← hrest]
  · intro hp
    rw [hdrained, outcome_more (hparsed.armed hp)]
  · intro hp hread
    rcases hparsed.closed hp with hbad | ⟨-, herror⟩
    · rw [hdrained, outcome_bad hbad]
    · exact absurd herror hread

/-- One frame, and nothing after it. -/
theorem session_decomposes_twoBytes :
    ∃ bs mode rest bad, Decomposes fixedZlib [1, 0, 0, 2, 0, 0, 0, 8, 9] bs mode rest bad
      ∧ bs.map Prod.snd = [⟨1, false, [8, 9]⟩] ∧ rest = [] ∧ bad = false := by
  obtain ⟨bs, mode, rest, bad, hdec, -, -, hall, harmed, -⟩ :=
    session_decomposes fixedZlib FixedZlib.acceptsOnlyGzip twoBytes afterTwoBytes run_twoBytes
  obtain ⟨hpackets, -, hrest⟩ := hall (by decide)
  exact ⟨bs, mode, rest, bad, hdec, hpackets.symm, hrest.symm, harmed rfl⟩

/-! ## §3. Serialized streams. -/

/-- The bytes of a packet depend on what will be received, and on no more: under
a legacy header the flag `compress` makes no difference. -/
theorem serialized_unique {z : Zlib} {l : Bool} {m m' : Outgoing} {b b' : List UInt8}
    (h : Serialized z l m b) (h' : Serialized z l m' b') (hsame : m.received l = m'.received l) :
    b = b' := by
  obtain ⟨id, content, compress⟩ := m
  obtain ⟨id', content', compress'⟩ := m'
  obtain ⟨hid, hflag, hcontent⟩ := Packet.mk.inj hsame
  subst hid hcontent
  have hbytes : serializePacket z id content compress l
      = serializePacket z id content compress' l := by
    cases l with
    | false =>
        rw [Bool.or_false, Bool.or_false] at hflag
        obtain rfl : compress = compress' := hflag
        rfl
    | true => cases compress <;> cases compress' <;> rfl
  exact Option.some.inj (h.2.symm.trans (hbytes.trans h'.2))

theorem wires_initial {z : Zlib} {l : Bool} {msgs msgs' : List Outgoing}
    {wire wire' : List (List UInt8)} (h : List.Forall₂ (Serialized z l) msgs wire)
    (h' : List.Forall₂ (Serialized z l) msgs' wire')
    (hinit : msgs.map (Outgoing.received l) <+: msgs'.map (Outgoing.received l)) :
    wire <+: wire' := by
  induction h generalizing msgs' wire' with
  | nil => exact List.nil_prefix
  | @cons m b msgs wire hb _ ih =>
      cases h' with
      | nil => exact absurd hinit.length_le (Nat.not_succ_le_zero _)
      | @cons m' b' msgs' wire' hb' hrest =>
          rw [List.map_cons, List.map_cons, List.cons_prefix_cons] at hinit
          rw [serialized_unique hb hb' hinit.1, List.cons_prefix_cons]
          exact ⟨rfl, ih hrest hinit.2⟩

/-- **Serializing lists of packets is an order embedding**: one stream is an
initial part of another exactly when the packets of the one are the first packets
of the other.  So a stream determines its packets, no stream is that of two
lists, and no cut of a stream between two packets is the stream of others. -/
theorem wire_initial_iff (z : Zlib) (hz : z.InflateInvertsDeflate) (hg : z.AcceptsOnlyGzip)
    (l : Bool) (msgs msgs' : List Outgoing) (wire wire' : List (List UInt8))
    (h : List.Forall₂ (Serialized z l) msgs wire)
    (h' : List.Forall₂ (Serialized z l) msgs' wire') :
    wire.flatten <+: wire'.flatten
      ↔ msgs.map (Outgoing.received l) <+: msgs'.map (Outgoing.received l) := by
  constructor
  · intro hflat
    obtain ⟨bs, hbs⟩ := exists_wireChain hz hg h
    obtain ⟨bs', hbs'⟩ := exists_wireChain hz hg h'
    have hsymbols := Framer.Chain.initial_iff (wireFramer_stable hg) hbs.chain hbs'.chain
    rw [hbs.symbols, hbs'.symbols] at hsymbols
    have hpackets := (hsymbols.mp hflat).map Prod.snd
    rwa [hbs.packets, hbs'.packets] at hpackets
  · intro hinit
    obtain ⟨tail, rfl⟩ := wires_initial h h' hinit
    rw [List.flatten_append]
    exact List.prefix_append _ _

/-- A packet of one byte, and it again with another one behind it. -/
theorem wire_initial_iff_oneByte :
    frameBytes false 1 false [7] ++ []
        <+: frameBytes false 1 false [7] ++ (frameBytes false 2 false [] ++ [])
      ↔ [(⟨1, false, [7]⟩ : Packet)] <+: [⟨1, false, [7]⟩, ⟨2, false, []⟩] := by
  have hfirst : Serialized fixedZlib false ⟨1, [7], false⟩ (frameBytes false 1 false [7]) :=
    ⟨by decide, serializePacket_fixed rfl (by decide)⟩
  have hsecond : Serialized fixedZlib false ⟨2, [], false⟩ (frameBytes false 2 false []) :=
    ⟨by decide, serializePacket_fixed rfl (by decide)⟩
  exact wire_initial_iff fixedZlib FixedZlib.inflateInvertsDeflate FixedZlib.acceptsOnlyGzip false
    [⟨1, [7], false⟩] [⟨1, [7], false⟩, ⟨2, [], false⟩] _ _
    (.cons hfirst .nil) (.cons hfirst (.cons hsecond .nil))

end Bancho.Reader
