/-
  Bancho.Reader.Simulation
  ────────────────────────
  The reader refines the framer of `Bancho.Reader.Answer`: the `while (true)`
  loop is its drain, the completion handler is one step of reading, and a
  session after a sequence of reads is what `feedAll` says (`run_eq`).

      consumeLoop  ~  drain        onRead  ~  extend        run  ~  feedAll

  Nothing is assumed of zlib here.
-/
import Bancho.Reader.Answer

namespace Bancho.Reader

open BanchoPacket Session Framing

/-! ## §1. The loop is the drain. -/

/-- What the framer has done, in the words of the framer. -/
abbrev Progress : Type := Outcome (Option Bool) UInt8 Packet

/-- The session with the mode and the rest of an outcome. -/
def settle (state : State) (o : Progress) : State :=
  { state with packetStream := o.rest, legacyHeader := o.mode }

/-- The status on which the loop stops. -/
def stopStatus (o : Progress) : ParseStatus := if o.bad then .invalid else .needMoreData

theorem consumeLoop_ok {z : Zlib} {state state' : State} {evs : List Event}
    (h : consumePacketStream z state = (.ok, state', evs)) (events : List Event) :
    consumeLoop z state events = consumeLoop z state' (events ++ evs) := by
  conv => lhs; rw [consumeLoop]
  split
  next h' =>
    obtain ⟨-, rfl, rfl⟩ := (h.symm.trans h')
    rfl
  next hne h' =>
    obtain ⟨rfl, -⟩ := (h.symm.trans h')
    exact absurd rfl hne

theorem consumeLoop_stop {z : Zlib} {state state' : State} {status : ParseStatus}
    {evs : List Event} (h : consumePacketStream z state = (status, state', evs))
    (hs : status ≠ .ok) (events : List Event) :
    consumeLoop z state events = (status, state', events ++ evs) := by
  rw [consumeLoop]
  split
  next h' => exact absurd (congrArg Prod.fst (h.symm.trans h')) hs
  next h' =>
    obtain ⟨rfl, rfl, rfl⟩ := (h.symm.trans h')
    rfl

/-- **The `while (true)` loop is the drain** of the stream in the session's mode. -/
theorem consumeLoop_eq (z : Zlib) (m : Option Bool) (s : List UInt8) :
    ∀ (state : State) (events : List Event), state.legacyHeader = m → state.packetStream = s →
      consumeLoop z state events
        = (stopStatus ((wireFramer z).drain m s), settle state ((wireFramer z).drain m s),
            events ++ ((wireFramer z).drain m s).frames.map .packet) := by
  induction m, s using Framer.drain.induct (wireFramer z) with
  | case1 m s h =>
      intro state events hm hs
      subst hm hs
      have hc := consumePacketStream_more h
      rw [consumeLoop_stop hc (by decide), Framer.drain_more h]
      rfl
  | case2 m s h =>
      intro state events hm hs
      subst hm hs
      have hc := consumePacketStream_bad h
      rw [consumeLoop_stop hc (by decide), Framer.drain_bad h]
      rfl
  | case3 m s p n m' h ih =>
      intro state events hm hs
      subst hm hs
      -- the loop continues on the session the call left, and so does the drain
      have hc := consumePacketStream_frame h
      rw [consumeLoop_ok hc, ih _ _ rfl rfl, Framer.drain_frame h, List.append_assoc]
      rfl

/-! ## §2. The handler. -/

/-- The events of a drain: its packets, and `Disconnect` if it gave up. -/
def drainEvents (o : Progress) : List Event :=
  o.frames.map .packet ++ if o.bad then [.disconnect] else []

/-- **The completion handler** drains what was left with what was read, and arms
the next read unless it gave up. -/
theorem onRead_eq (z : Zlib) (state : State) (read : List UInt8) :
    onRead z state false read
      = let o := (wireFramer z).drain state.legacyHeader (state.packetStream ++ read)
        ⟨settle state o, drainEvents o, !o.bad⟩ := by
  have hloop := consumeLoop_eq z state.legacyHeader (state.packetStream ++ read)
    { state with packetStream := state.packetStream ++ read } [] rfl rfl
  unfold onRead
  simp only [Bool.false_eq_true, if_false, hloop, List.nil_append, drainEvents, stopStatus]
  cases ((wireFramer z).drain state.legacyHeader (state.packetStream ++ read)).bad
  · simp only [Bool.false_eq_true, if_false, List.append_nil, Bool.not_false]
    rfl
  · simp only [if_true, Bool.not_true]
    rfl

/-! ## §3. A session reading. -/

/-- The outcome of a fresh session's reads, by the framer. -/
def progressOf (z : Zlib) (reads : List ReadBytes) : Progress :=
  (wireFramer z).feedAll none (reads.map ReadBytes.bytes)

theorem progressOf_concat (z : Zlib) (reads : List ReadBytes) (read : ReadBytes) :
    progressOf z (reads ++ [read]) = (wireFramer z).feed (progressOf z reads) read.bytes := by
  unfold progressOf Framer.feedAll
  rw [List.map_append, List.map_singleton, List.foldl_concat]

/-- The session of an outcome. -/
def sessionOf (o : Progress) (received : List UInt8) : Config where
  state := settle {} o
  phase := if o.bad then .closed else .reading
  events := .connect :: drainEvents o
  received := received

/-- One read on a session of an outcome. -/
theorem deliver_sessionOf (z : Zlib) (o : Progress) (received : List UInt8) (read : ReadBytes) :
    ∃ received', deliver z (sessionOf o received) read
      = sessionOf ((wireFramer z).feed o read.bytes) received' := by
  unfold deliver Framer.feed Framer.extend
  cases hbad : o.bad with
  | true =>
      -- the session is closed: nothing more is read
      refine ⟨received, ?_⟩
      simp only [sessionOf, hbad, if_true]
  | false =>
      refine ⟨received ++ read.bytes, ?_⟩
      have hphase : (sessionOf o received).phase = .reading := by
        simp only [sessionOf, hbad, Bool.false_eq_true, if_false]
      have hevents : (sessionOf o received).events = .connect :: o.frames.map .packet := by
        simp only [sessionOf, drainEvents, hbad, Bool.false_eq_true, if_false, List.append_nil]
      have hmode : (sessionOf o received).state.legacyHeader = o.mode := rfl
      have hrest : (sessionOf o received).state.packetStream = o.rest := rfl
      simp only [hphase, hevents, hmode, hrest, onRead_eq, Bool.false_eq_true, if_false]
      show Config.mk _ _ _ _ = Config.mk _ _ _ _
      congr 1
      · cases ((wireFramer z).drain o.mode (o.rest ++ read.bytes)).bad <;> rfl
      · simp only [drainEvents, List.map_append, List.append_assoc, List.cons_append]

theorem run_concat (z : Zlib) (reads : List ReadBytes) (read : ReadBytes) :
    run z (reads ++ [read]) = deliver z (run z reads) read := by
  unfold run
  rw [List.foldl_concat]

/-- **A session after a sequence of reads** is the framer fed with them. -/
theorem run_eq (z : Zlib) (reads : List ReadBytes) :
    ∃ received, run z reads = sessionOf (progressOf z reads) received := by
  induction reads using List.reverseRecOn with
  | nil => exact ⟨[], rfl⟩
  | append_singleton reads read ih =>
      obtain ⟨received, hrun⟩ := ih
      rw [run_concat, hrun, progressOf_concat]
      exact deliver_sessionOf z _ received read

/-! ## §4. What a session shows of its outcome. -/

theorem packetsOf_map_packet (ps : List Packet) : packetsOf (ps.map .packet) = ps := by
  induction ps with
  | nil => rfl
  | cons p ps ih => exact congrArg (p :: ·) ih

theorem packetsOf_run (z : Zlib) (reads : List ReadBytes) :
    packetsOf (run z reads).events = (progressOf z reads).frames := by
  obtain ⟨received, hrun⟩ := run_eq z reads
  rw [hrun]
  show packetsOf (drainEvents (progressOf z reads)) = _
  unfold drainEvents
  rw [packetsOf_append, packetsOf_map_packet]
  cases (progressOf z reads).bad
  · exact List.append_nil _
  · exact List.append_nil _

theorem disconnect_run_iff (z : Zlib) (reads : List ReadBytes) :
    .disconnect ∈ (run z reads).events ↔ (progressOf z reads).bad = true := by
  obtain ⟨received, hrun⟩ := run_eq z reads
  rw [hrun]
  show .disconnect ∈ Event.connect :: drainEvents (progressOf z reads) ↔ _
  unfold drainEvents
  cases (progressOf z reads).bad <;> simp

theorem legacyHeader_run (z : Zlib) (reads : List ReadBytes) :
    (run z reads).state.legacyHeader = (progressOf z reads).mode := by
  obtain ⟨received, hrun⟩ := run_eq z reads
  rw [hrun]
  rfl

theorem packetStream_run (z : Zlib) (reads : List ReadBytes) :
    (run z reads).state.packetStream = (progressOf z reads).rest := by
  obtain ⟨received, hrun⟩ := run_eq z reads
  rw [hrun]
  rfl

end Bancho.Reader
