/-
  Bancho.Reader.Invariants
  ────────────────────────
  What holds of a session in every state it can reach, inside the handler too.

      received  =  frames  ++  packet_stream          (`Framed`)
      packet_stream.size()  ≤  limit of the mode       (`Buffered`)

  Main results:
    * `conservation`    — no byte is lost, duplicated or reordered, the header
      format is locked by the first packet for good, each delivered packet is its
      frame parsed alone, and `Disconnect` is the last event;
    * `buffer_bounded`  — `packet_stream` stays within a frame of the largest
      size, but for the read that is being drained.
-/
import Bancho.Reader.Steps
import Bancho.Server.FixedZlib
import Mathlib.Data.List.Forall2

namespace Bancho.Reader

open BanchoPacket Session Framing Transition

/-! ## §1. Frames. -/

/-- `b` is the frame of the packet `p`: alone, it parses to `p` as a whole. -/
def FrameOf (z : Zlib) (l : Bool) (b : List UInt8) (p : Packet) : Prop :=
  tryParsePacket z b {} l = ⟨.ok, p, b.length⟩

/-- The bytes received are the frames of the packets delivered, in the locked
format, followed by `packet_stream`. -/
def Framed (z : Zlib) (c : Config) (frames : List (List UInt8)) : Prop :=
  c.received = frames.flatten ++ c.state.packetStream
    ∧ List.Forall₂ (fun b p => ∃ l, c.state.legacyHeader = some l ∧ FrameOf z l b p)
        frames (packetsOf c.events)

/-- The first bytes of a stream that parses are the frame of its packet. -/
theorem frameOf_take {z : Zlib} {l : Bool} {s : List UInt8} {p : Packet} {n : Nat}
    (h : tryParsePacket z s {} l = ⟨.ok, p, n⟩) : FrameOf z l (s.take n) p := by
  have hn := (consumedBytes_bounds h).2
  have hlen : (s.take n).length = n := List.length_take_of_le hn
  unfold FrameOf
  rw [hlen]
  exact ok_restrict h (List.take_prefix n s) (Nat.le_of_eq hlen.symm) {}

theorem packetsOf_disconnected (c : Config) :
    packetsOf c.disconnected.events = packetsOf c.events := by
  show packetsOf (c.events ++ [.disconnect]) = _
  rw [packetsOf_append, packetsOf_disconnect, List.append_nil]

theorem packetsOf_taken (c : Config) (p : Packet) (n : Nat) (m : Option Bool) :
    packetsOf (c.taken p n m).events = packetsOf c.events ++ [p] := by
  show packetsOf (c.events ++ [.packet p]) = _
  rw [packetsOf_append, packetsOf_packet]

/-! ## §2. The lock. -/

/-- `legacy_header` is unset exactly while no packet has been delivered. -/
def Locked (c : Config) : Prop := c.state.legacyHeader = none ↔ packetsOf c.events = []

theorem locked_took {z : Zlib} {c c' : Config} {a : Action} (h : Took z c a c')
    (hi : Locked c) : Locked c' := by
  unfold Locked at hi ⊢
  cases h with
  | read r _ => exact hi
  | readError _ =>
      rw [packetsOf_disconnected]
      exact hi
  | more _ _ => exact hi
  | bad _ _ =>
      rw [packetsOf_disconnected]
      exact hi
  | frame p n l _ _ _ _ =>
      rw [packetsOf_taken]
      show some l = none ↔ _
      simp

/-- **The lock holds**: once set, `legacy_header` never changes. -/
theorem legacyHeader_stays {z : Zlib} {c c' : Config} {as : List Action} {l : Bool}
    (h : (system z).runFrom c as = some c') (hl : c.state.legacyHeader = some l) :
    c'.state.legacyHeader = some l := by
  refine System.runFrom_invariant (P := fun c => c.state.legacyHeader = some l) ?_ hl h
  intro c a c' hc hstep
  cases step_took hstep with
  | read r _ | readError _ | more _ _ | bad _ _ => exact hc
  | frame p n l' _ _ hmode _ =>
      -- a set mode is the format of every later parse, and is written back as it was
      show some l' = some l
      rcases hmode with hmode | hmode
      · exact nomatch hmode.symm.trans hc
      · exact hmode.symm.trans hc

/-! ## §3. Conservation. -/

/-- **Each step conserves the bytes**: a call that delivers turns the front of the
stream into one more frame. -/
theorem framed_took {z : Zlib} {c c' : Config} {a : Action} (h : Took z c a c')
    (hlock : Locked c) (hi : ∃ frames, Framed z c frames) : ∃ frames, Framed z c' frames := by
  obtain ⟨frames, hbytes, hframes⟩ := hi
  cases h with
  | read r _ =>
      refine ⟨frames, ?_, hframes⟩
      show c.received ++ r.bytes = frames.flatten ++ (c.state.packetStream ++ r.bytes)
      rw [hbytes, List.append_assoc]
  | readError _ =>
      refine ⟨frames, hbytes, ?_⟩
      rw [packetsOf_disconnected]
      exact hframes
  | more _ _ => exact ⟨frames, hbytes, hframes⟩
  | bad _ _ =>
      refine ⟨frames, hbytes, ?_⟩
      rw [packetsOf_disconnected]
      exact hframes
  | frame p n l _ _ hmode hparse =>
      refine ⟨frames ++ [c.state.packetStream.take n], ?_, ?_⟩
      · show c.received = (frames ++ [c.state.packetStream.take n]).flatten
          ++ c.state.packetStream.drop n
        rw [hbytes, List.flatten_concat, List.append_assoc, List.take_append_drop]
      · rw [packetsOf_taken]
        refine List.rel_append ?_ (.cons ⟨l, rfl, frameOf_take hparse⟩ .nil)
        rcases hmode with hmode | hmode
        · -- the first packet: there is no earlier frame
          rw [hlock.mp hmode] at hframes ⊢
          cases hframes
          exact .nil
        · -- a later packet is parsed under the format that is locked already
          apply hframes.imp
          intro b p hb
          obtain ⟨l', hl', hframe⟩ := hb
          obtain rfl : l = l' := Option.some.inj (hmode.symm.trans hl')
          exact ⟨l, rfl, hframe⟩

/-- Nothing comes after `Disconnect`, which only a closed session has seen. -/
def Ended (c : Config) : Prop :=
  (c.phase ≠ .closed → .disconnect ∉ c.events)
    ∧ ∀ pre post, c.events = pre ++ .disconnect :: post → post = []

/-- The first `Disconnect` of a session is its last event. -/
theorem ended_disconnected {c : Config} (h : .disconnect ∉ c.events) : Ended c.disconnected := by
  refine ⟨fun hopen => absurd rfl hopen, ?_⟩
  intro pre post heq
  have heq : c.events ++ [.disconnect] = pre ++ .disconnect :: post := heq
  induction post using List.reverseRecOn with
  | nil => rfl
  | append_singleton post e _ =>
      -- the last event is `e`, so a `Disconnect` before it was there before
      rw [← List.cons_append, ← List.append_assoc] at heq
      have hinit := (List.append_inj' heq rfl).1
      rw [hinit] at h
      exact absurd (List.mem_append_right pre List.mem_cons_self) h

/-- A session whose events hold no `Disconnect` has not ended. -/
theorem ended_open {c : Config} (h : .disconnect ∉ c.events) : Ended c := by
  refine ⟨fun _ => h, ?_⟩
  intro pre post heq
  rw [heq] at h
  exact absurd (List.mem_append_right pre List.mem_cons_self) h

theorem ended_took {z : Zlib} {c c' : Config} {a : Action} (h : Took z c a c')
    (hi : Ended c) : Ended c' := by
  have hopen := hi.1 h.not_closed
  cases h with
  | read r _ => exact ended_open hopen
  | readError _ => exact ended_disconnected hopen
  | more _ _ => exact ended_open hopen
  | bad _ _ => exact ended_disconnected hopen
  | frame p n l _ _ _ _ =>
      refine ended_open ?_
      show .disconnect ∉ c.events ++ [.packet p]
      simpa using hopen

/-- What every reachable state keeps. -/
theorem reachable_framed {z : Zlib} {as : List Action} {c : Config}
    (h : (system z).run as = some c) :
    Locked c ∧ Ended c ∧ ∃ frames, Framed z c frames := by
  refine System.invariant (P := fun c => Locked c ∧ Ended c ∧ ∃ frames, Framed z c frames)
    ?_ ?_ h
  · have hfresh : .disconnect ∉ start.events := by decide
    exact ⟨⟨fun _ => rfl, fun _ => rfl⟩, ended_open hfresh, [], rfl, .nil⟩
  · intro c a c' hi hstep
    obtain ⟨hlock, hended, hframed⟩ := hi
    have htook := step_took hstep
    exact ⟨locked_took htook hlock, ended_took htook hended, framed_took htook hlock hframed⟩

/-- **Conservation.**  In every reachable state the bytes read so far are the
frames of the packets delivered so far, followed by `packet_stream`; the header
format is unset exactly while there is no packet, and never changes once set;
each frame, parsed alone under that format, is its packet as a whole; and after
`Disconnect` there is no event. -/
theorem conservation (z : Zlib) (as : List Action) (c : Config)
    (h : (system z).run as = some c) :
    (∃ frames, bytesRead as = frames.flatten ++ c.state.packetStream
        ∧ List.Forall₂ (fun b p => ∃ l, c.state.legacyHeader = some l
            ∧ tryParsePacket z b {} l = ⟨.ok, p, b.length⟩) frames (packetsOf c.events))
      ∧ (c.state.legacyHeader = none ↔ packetsOf c.events = [])
      ∧ (∀ l bs c', c.state.legacyHeader = some l → (system z).runFrom c bs = some c' →
          c'.state.legacyHeader = some l)
      ∧ ∀ pre post, c.events = pre ++ .disconnect :: post → post = [] := by
  obtain ⟨hlock, hended, frames, hbytes, hframes⟩ := reachable_framed h
  rw [received_run h] at hbytes
  refine ⟨⟨frames, hbytes, hframes⟩, hlock, ?_, hended.2⟩
  intro l bs c' hl hrun
  exact legacyHeader_stays hrun hl

/-- A modern frame of two bytes, as one read: it is taken, then the loop stops. -/
def twoBytes : List Action :=
  [.read ⟨[1, 0, 0, 2, 0, 0, 0, 8, 9], by decide, by decide⟩, .consume, .consume]

def afterTwoBytes : Config where
  state := { legacyHeader := some false }
  phase := .reading
  events := [.connect, .packet ⟨1, false, [8, 9]⟩]
  received := [1, 0, 0, 2, 0, 0, 0, 8, 9]

theorem run_twoBytes : (system fixedZlib).run twoBytes = some afterTwoBytes := by
  decide +kernel

theorem conservation_twoBytes :
    ∃ frames, [1, 0, 0, 2, 0, 0, 0, 8, 9] = frames.flatten ++ ([] : List UInt8)
      ∧ List.Forall₂ (fun b p => ∃ l, afterTwoBytes.state.legacyHeader = some l
          ∧ tryParsePacket fixedZlib b {} l = ⟨.ok, p, b.length⟩) frames [⟨1, false, [8, 9]⟩] :=
  (conservation fixedZlib twoBytes afterTwoBytes run_twoBytes).1

/-! ## §4. The reassembly buffer. -/

/-- The most `packet_stream` holds while a read is outstanding: one byte less
than the largest frame of the format; the larger one while it is detected. -/
def bufferLimit (mode : Option Bool) : Nat :=
  if mode = some true then maxContentSize.toNat + 5 else maxContentSize.toNat + 6

/-- A stream that a parse waits on is short of a frame within the limit. -/
theorem waiting_length {l : Bool} {s : List UInt8} (h : Waiting l s) :
    s.length + 1 ≤ maxContentSize.toNat + headerSize l := by
  rcases h with hshort | ⟨hsize, hframe⟩
  · omega
  · rw [frameSize] at hframe
    omega

/-- What the reader waits on is within the limit of its mode: one of the formats
in question waits. -/
theorem more_length {z : Zlib} {mode : Option Bool} {s : List UInt8}
    (h : wireAnswer z mode s = .more) : s.length ≤ bufferLimit mode := by
  have hwaits : ∀ l, answerOf l (tryParsePacket z s {} l) = .more →
      s.length + 1 ≤ maxContentSize.toNat + headerSize l := fun l hl =>
    waiting_length ((status_needMoreData_iff z s {} l).mp (answerOf_more_iff.mp hl))
  have hlegacy : headerSize true = 6 := rfl
  have hmodern : headerSize false = 7 := rfl
  unfold wireAnswer at h
  unfold bufferLimit
  cases mode with
  | some l =>
      have hlen := hwaits l h
      cases l with
      | false =>
          rw [if_neg (by decide)]
          omega
      | true =>
          rw [if_pos rfl]
          omega
  | none =>
      -- one format may be refused already; the one that waits gives the bound
      rw [if_neg (by decide)]
      rcases detect_more h with hmore | hmore
      · have hlen := hwaits false hmore
        omega
      · have hlen := hwaits true hmore
        omega

/-- While a read is outstanding `packet_stream` is within the limit of the mode;
while it is drained there is at most that read on top. -/
def Buffered (c : Config) : Prop :=
  (c.phase = .reading → c.state.packetStream.length ≤ bufferLimit c.state.legacyHeader)
    ∧ c.state.packetStream.length ≤ maxContentSize.toNat + 6 + maxLength

theorem bufferLimit_le (mode : Option Bool) : bufferLimit mode ≤ maxContentSize.toNat + 6 := by
  unfold bufferLimit
  split <;> omega

theorem buffered_took {z : Zlib} {c c' : Config} {a : Action} (h : Took z c a c')
    (hi : Buffered c) : Buffered c' := by
  unfold Buffered at hi ⊢
  cases h with
  | read r hphase =>
      -- the read was armed, so the stream was within the limit of the mode
      refine ⟨fun hreading => (nomatch hreading), ?_⟩
      have hlen := hi.1 hphase
      have hlimit := bufferLimit_le c.state.legacyHeader
      have hread := r.le
      show (c.state.packetStream ++ r.bytes).length ≤ _
      rw [List.length_append]
      omega
  | readError _ => exact ⟨fun hreading => (nomatch hreading), hi.2⟩
  | more _ hanswer => exact ⟨fun _ => more_length hanswer, hi.2⟩
  | bad _ _ => exact ⟨fun hreading => (nomatch hreading), hi.2⟩
  | frame p n l hphase _ _ _ =>
      have hlen := hi.2
      refine ⟨fun hreading => (nomatch hphase.symm.trans hreading), ?_⟩
      show (c.state.packetStream.drop n).length ≤ _
      rw [List.length_drop]
      omega

theorem reachable_buffered {z : Zlib} {as : List Action} {c : Config}
    (h : (system z).run as = some c) : Buffered c := by
  refine System.invariant (P := Buffered) ?_ ?_ h
  · exact ⟨fun _ => Nat.zero_le _, Nat.zero_le _⟩
  · intro c a c' hi hstep
    exact buffered_took (step_took hstep) hi

/-- **Bounded reassembly buffer.**  Whenever the read is armed, `packet_stream`
holds at most `max_content_size + 6` bytes, one less in the legacy format; and in
every reachable state, inside the handler and after `Disconnect` too, at most
the bytes of one read more. -/
theorem buffer_bounded (z : Zlib) (as : List Action) (c : Config)
    (h : (system z).run as = some c) :
    (c.phase = .reading → c.state.packetStream.length
        ≤ if c.state.legacyHeader = some true then maxContentSize.toNat + 5
          else maxContentSize.toNat + 6)
      ∧ c.state.packetStream.length ≤ maxContentSize.toNat + 6 + maxLength :=
  reachable_buffered h

/-- The frame of two bytes, and the first two bytes of another. -/
def nextBegun : List Action :=
  [.read ⟨[1, 0, 0, 2, 0, 0, 0, 8, 9, 3, 0], Nat.succ_pos _, Nat.le_of_ble_eq_true rfl⟩,
    .consume, .consume]

/-- With these two in the buffer the read is armed again. -/
theorem buffer_bounded_nextBegun :
    ∃ c, (system fixedZlib).run nextBegun = some c ∧ c.phase = .reading
      ∧ c.state.packetStream = [3, 0]
      ∧ c.state.packetStream.length ≤ maxContentSize.toNat + 6 := by
  have hrun : (system fixedZlib).run nextBegun = some
      { state := { legacyHeader := some false, packetStream := [3, 0] }
        phase := .reading
        events := [.connect, .packet ⟨1, false, [8, 9]⟩]
        received := [1, 0, 0, 2, 0, 0, 0, 8, 9, 3, 0] } := by
    decide +kernel
  exact ⟨_, hrun, rfl, rfl, (buffer_bounded fixedZlib nextBegun _ hrun).1 rfl⟩

end Bancho.Reader
