/-
  Bancho.Session.Sides
  ────────────────────
  The two sides of a session share its state and do not meet in it: the reader
  leaves `write_queue` and `writing` as they are, the writer `packet_stream` and
  `legacy_header`, and neither looks at the other's.  Where they do meet is the
  socket, which the reader closes with `Event::Disconnect`:

      session  =  join  ( reader  ─ close ─▸  writer )

  So a session does what a reader and a writer on states of their own would do, if
  the writer is told when the socket closes (`run_eq`), and what holds of every
  reader and of every writer holds of every session (`session_invariant`).
-/
import Bancho.Reader.Invariants
import Bancho.Server.Connection
import Bancho.Server.FixedZlib
import Bancho.Writer.Completion

/-! ## §1. The reader and the queue. -/

namespace Bancho.Reader

/-- The same session with another queue. -/
def Config.withQueue (c : Config) (queue : List (List UInt8)) (writing : Bool) : Config :=
  { c with state := { c.state with writeQueue := queue, writing := writing } }

/-- **The reader does not look at the queue**, and leaves it as it is. -/
theorem step_withQueue (z : Zlib) (c : Config) (queue : List (List UInt8)) (writing : Bool)
    (a : Action) :
    (system z).step (c.withQueue queue writing) a
      = ((system z).step c a).map fun c' => c'.withQueue queue writing := by
  cases a with
  | read r =>
      rw [step_read, step_read]
      show (if c.phase = .reading then _ else _) = _
      by_cases hphase : c.phase = .reading
      · simp only [hphase, if_true, Option.map_some]
        rfl
      · simp only [hphase, if_false, Option.map_none]
  | readError =>
      rw [step_readError, step_readError]
      show (if c.phase = .reading then _ else _) = _
      by_cases hphase : c.phase = .reading
      · simp only [hphase, if_true, Option.map_some]
        rfl
      · simp only [hphase, if_false, Option.map_none]
  | consume =>
      rw [step_consume, step_consume]
      have hanswer : wireAnswer z (c.withQueue queue writing).state.legacyHeader
          (c.withQueue queue writing).state.packetStream
            = wireAnswer z c.state.legacyHeader c.state.packetStream := rfl
      have hsame : (c.withQueue queue writing).phase = c.phase := rfl
      rw [hanswer, hsame]
      by_cases hphase : c.phase = .draining
      · -- each answer is acted on alike, whatever the queue is
        simp only [hphase, if_true]
        cases wireAnswer z c.state.legacyHeader c.state.packetStream with
        | more => rfl
        | bad => rfl
        | frame p n m => rfl
      · simp only [hphase, if_false, Option.map_none]

end Bancho.Reader

/-! ## §2. The writer and the stream. -/

namespace Bancho.AsyncWrite

open Session

/-- The same session with another stream and header format. -/
def Config.withStream (c : Config) (stream : List UInt8) (mode : Option Bool) : Config :=
  { c with state := { c.state with packetStream := stream, legacyHeader := mode } }

section Stream

variable (c : Config) (stream : List UInt8) (mode : Option Bool)

theorem corresponds_stream :
    Writer.Corresponds fun c c' : Config => c' = c.withStream stream mode where
  queue := by
    rintro c - rfl
    rfl
  writing := by
    rintro c - rfl
    rfl
  withQueue := by
    rintro c - rfl queue
    rfl
  withWriting := by
    rintro c - rfl writing
    rfl
  asyncWrite := by
    rintro c - rfl buffer
    rfl

/-- **The writer does not look at the stream**, and leaves it as it is. -/
theorem step_withStream (a : Action) :
    step (c.withStream stream mode) a = (step c a).map fun c' => c'.withStream stream mode := by
  show (if enabled c a then act (c.withStream stream mode) a else none)
    = (if enabled c a then act c a else none).map _
  by_cases henabled : enabled c a = true
  · rw [if_pos henabled, if_pos henabled]
    cases a with
    | enqueue data => exact (corresponds_stream stream mode).enqueue_map c data
    | send op n | abort op =>
        show Option.map _ c.ops[op]? = Option.map _ (Option.map _ c.ops[op]?)
        cases c.ops[op]? with
        | none => rfl
        | some o => rfl
    | resume op =>
        show Option.bind c.ops[op]? _ = Option.map _ (Option.bind c.ops[op]? _)
        cases c.ops[op]? with
        | none => rfl
        | some o =>
            show Option.bind o.result _ = Option.map _ (Option.bind o.result _)
            cases o.result with
            | none => rfl
            | some r =>
                obtain ⟨ec, n⟩ := r
                simp only [Option.bind_some]
                cases writeOp o.buffers ec n false with
                | mk buffers continuation =>
                    cases continuation with
                    | writeSome chunk => rfl
                    | handler ec bytesTransferred =>
                        -- what is recorded of the write is the writer's own
                        exact (corresponds_stream stream mode).onWrite_map
                          { c with
                            ops := c.ops.eraseIdx op
                            ended := c.ended ++ [⟨o.buffers.buffer, ec, bytesTransferred⟩] } ec
  · rw [if_neg henabled, if_neg henabled]
    rfl

end Stream

/-- Whether the writes are in order depends on the queue and the flag alone. -/
theorem Sound.withState {c : Config} (h : Sound c) {s : State}
    (hqueue : s.writeQueue = c.state.writeQueue) (hwriting : s.writing = c.state.writing) :
    Sound { c with state := s } := by
  obtain ⟨d, hrep, hready⟩ := h
  refine ⟨{ d with state := s }, hrep.withState rfl, ?_⟩
  have hsame := hrep.state
  cases hready with
  | idle hidle hops =>
      rw [hsame] at hidle
      exact Writer.Ready.idle (hwriting.trans hidle) hops
  | busy front queue hbusy hops hfront =>
      rw [hsame] at hbusy hfront
      exact Writer.Ready.busy front queue (hwriting.trans hbusy) hops (hqueue.trans hfront)

end Bancho.AsyncWrite

/-! ## §3. The session is the two sides, joined. -/

namespace Bancho.Connection

open Session Transition

/-- The session of a reader and a writer: the stream and the header format of the
one, the queue and the flag of the other. -/
def join (r : Reader.Config) (w : AsyncWrite.Config) : Config where
  state :=
    { packetStream := r.state.packetStream, legacyHeader := r.state.legacyHeader
      writeQueue := w.state.writeQueue, writing := w.state.writing }
  phase := r.phase
  events := r.events
  received := r.received
  ops := w.ops
  ended := w.ended
  socketBytes := w.socketBytes
  isOpen := w.isOpen

/-- What the reader does to the writer. -/
def signals (r : Reader.Config) : List AsyncWrite.Label :=
  if r.events.contains .disconnect then [.close] else []

/-- A reader and a writer, each on a state of its own, and the socket they share. -/
def sides (z : Zlib) : System (Reader.Config × AsyncWrite.Config) Action :=
  System.coupled (Reader.system z) AsyncWrite.system signals .action

/-- All that happens to the writing side, in order: its own actions, and the closing
of the socket where the reader comes to `Disconnect`. -/
def writing (z : Zlib) (as : List Action) : List AsyncWrite.Label :=
  System.heard (Reader.system z) signals .action start.reader as

/-- **A step of the session** is a step of one of its sides. -/
theorem step_join (z : Zlib) (s : Reader.Config × AsyncWrite.Config) (a : Action) :
    (system z).step (join s.1 s.2) a = ((sides z).step s a).map fun s' => join s'.1 s'.2 := by
  obtain ⟨r, w⟩ := s
  cases a with
  | inl a =>
      show ((Reader.system z).step (r.withQueue w.state.writeQueue w.state.writing) a).map
          (join r w).readerDone
        = (((Reader.system z).step r a).bind fun r' =>
            (AsyncWrite.system.runFrom w (signals r')).map fun w' => (r', w')).map _
      rw [Reader.step_withQueue, Option.map_map]
      cases (Reader.system z).step r a with
      | none => rfl
      | some r' =>
          show some ((join r w).readerDone (r'.withQueue w.state.writeQueue w.state.writing))
            = ((AsyncWrite.system.runFrom w (signals r')).map fun w' => (r', w')).map _
          unfold signals Config.readerDone
          show some (Config.mk _ _ _ _ _ _ _ (w.isOpen && !r'.events.contains .disconnect)) = _
          cases r'.events.contains .disconnect with
          | true =>
              rw [Bool.not_true, Bool.and_false]
              rfl
          | false =>
              rw [Bool.not_false, Bool.and_true]
              rfl
  | inr a =>
      show (AsyncWrite.step (w.withStream r.state.packetStream r.state.legacyHeader) a).map
          (join r w).writerDone
        = ((AsyncWrite.step w a).map fun w' => (r, w')).map _
      rw [AsyncWrite.step_withStream, Option.map_map, Option.map_map]
      rfl

/-- **A session is a reader and a writer side by side**: whatever the order of
their actions, each does what it would do alone, the writer on a socket that
closes when the reader says so, and the session is the two joined. -/
theorem run_eq (z : Zlib) (as : List Action) :
    (system z).run as
      = ((Reader.system z).run (System.lefts as)).bind fun r =>
          (AsyncWrite.system.run (writing z as)).map fun w => join r w := by
  have hmap := System.runFrom_map (step_join z) (start.reader, start.writer) as
  have hsides : (sides z).runFrom (start.reader, start.writer) as
      = ((Reader.system z).runFrom start.reader (System.lefts as)).bind fun r =>
          (AsyncWrite.system.runFrom start.writer (writing z as)).map fun w => (r, w) :=
    System.coupled_runFrom start.reader start.writer as
  show (system z).runFrom (join start.reader start.writer) as = _
  rw [hmap]
  show ((sides z).runFrom _ as).map _ = _
  rw [hsides, Option.map_bind]
  show ((Reader.system z).run (System.lefts as)).bind _ = _
  congr 1
  funext r
  show ((AsyncWrite.system.run (writing z as)).map _).map _ = _
  rw [Option.map_map]
  rfl

/-- The two sides of a reachable session. -/
theorem run_sides {z : Zlib} {as : List Action} {c : Config} (h : (system z).run as = some c) :
    ∃ r w, (Reader.system z).run (System.lefts as) = some r
      ∧ AsyncWrite.system.run (writing z as) = some w ∧ c = join r w := by
  rw [run_eq, Option.bind_eq_some_iff] at h
  obtain ⟨r, hr, h⟩ := h
  obtain ⟨w, hw, hjoin⟩ := Option.map_eq_some_iff.mp h
  exact ⟨r, w, hr, hw, hjoin.symm⟩

/-- **The order across the sides does not matter**: sessions with the same actions
of the reader, and with the same happening on the writing side, `Disconnect`
included, are both possible or not, and end alike. -/
theorem run_order (z : Zlib) {as bs : List Action} (hl : System.lefts as = System.lefts bs)
    (hw : writing z as = writing z bs) : (system z).run as = (system z).run bs := by
  rw [run_eq, run_eq, hl, hw]

/-- A vector is enqueued and sent, then a packet read; the client goes away before
the handler of the write has run. -/
def sentThenRead : List Action :=
  .inr (.enqueue [5]) :: .inr (.send 0 1)
    :: (Reader.twoBytes.map Sum.inl).append [.inl .readError, .inr (.resume 0)]

/-- The packet is read first. -/
def readThenSent : List Action :=
  (Reader.twoBytes.map Sum.inl).append
    [.inr (.enqueue [5]), .inr (.send 0 1), .inl .readError, .inr (.resume 0)]

theorem run_order_twoBytes :
    ∃ c, (system fixedZlib).run sentThenRead = some c
      ∧ (system fixedZlib).run readThenSent = some c := by
  obtain ⟨c, hc⟩ : ∃ c, (system fixedZlib).run sentThenRead = some c :=
    Option.isSome_iff_exists.mp (by decide +kernel)
  have hlefts : System.lefts readThenSent = System.lefts sentThenRead := rfl
  have hwriting : writing fixedZlib readThenSent = writing fixedZlib sentThenRead := by
    decide +kernel
  exact ⟨c, hc, (run_order fixedZlib hlefts hwriting).trans hc⟩

/-- A vector enqueued before the client goes away is not one enqueued after it. -/
example : writing fixedZlib [.inr (.enqueue [5]), .inl .readError]
    ≠ writing fixedZlib [.inl .readError, .inr (.enqueue [5])] := by decide

/-! ## §4. What holds of every session. -/

/-- What is enqueued is enqueued on the writing side. -/
theorem enqueuedOf_heard {z : Zlib} {as : List Action} :
    ∀ {r r' : Reader.Config}, (Reader.system z).runFrom r (System.lefts as) = some r' →
      AsyncWrite.enqueuedOf (System.heard (Reader.system z) signals .action r as)
        = enqueuedOf as := by
  induction as with
  | nil =>
      intro r r' _
      rfl
  | cons a as ih =>
      intro r r' h
      cases a with
      | inl a =>
          have h : ((Reader.system z).step r a).bind _ = some r' := h
          obtain ⟨r₁, hstep, hrest⟩ := Option.bind_eq_some_iff.mp h
          have hheard : System.heard (Reader.system z) signals .action r (.inl a :: as)
              = signals r₁ ++ System.heard (Reader.system z) signals .action r₁ as := by
            show Option.elim ((Reader.system z).step r a) [] _ = _
            rw [hstep]
            rfl
          have hnone : AsyncWrite.enqueuedOf (signals r₁) = [] := by
            unfold signals
            split <;> rfl
          have happend : AsyncWrite.enqueuedOf
              (signals r₁ ++ System.heard (Reader.system z) signals .action r₁ as)
              = AsyncWrite.enqueuedOf (signals r₁) ++ AsyncWrite.enqueuedOf _ :=
            List.filterMap_append
          rw [hheard, happend, hnone, List.nil_append, ih hrest]
          rfl
      | inr b =>
          have h : (Reader.system z).runFrom r (System.lefts as) = some r' := h
          have hrest := ih h
          cases b with
          | enqueue data => exact congrArg (data :: ·) hrest
          | send op n | abort op | resume op => exact hrest

/-- **What every reachable session keeps**, whatever the order of its reads,
writes and calls of `enqueue`: the bytes its reads brought are the frames of the
packets delivered and then `packet_stream`, which is bounded; the format is
locked by the first packet; nothing follows `Disconnect`; and the session is idle
or writing the front of its queue. -/
theorem session_invariant {z : Zlib} {as : List Action} {c : Config}
    (h : (system z).run as = some c) :
    (∃ frames, Reader.Framed z c.reader frames)
      ∧ c.received = Reader.bytesRead (System.lefts as)
      ∧ Reader.Buffered c.reader
      ∧ Reader.Locked c.reader
      ∧ Reader.Ended c.reader
      ∧ AsyncWrite.Sound c.writer := by
  obtain ⟨r, w, hr, hw, rfl⟩ := run_sides h
  obtain ⟨hlock, hended, hframed⟩ := Reader.reachable_framed hr
  have hreceived : r.received = _ := Reader.received_run hr
  have hbuffered : Reader.Buffered r := Reader.reachable_buffered hr
  -- none of the reader's properties speaks of the queue, nor the writer's of the stream
  exact ⟨hframed, hreceived, hbuffered, hlock, hended, (AsyncWrite.sound_run hw).withState rfl rfl⟩

/-- What a session holds of its stream. -/
theorem packetStream_le {z : Zlib} {as : List Action} {c : Config}
    (h : (system z).run as = some c) :
    c.state.packetStream.length
      ≤ BanchoPacket.maxContentSize.toNat + 6 + Session.maxLength := by
  obtain ⟨-, -, hbuffered, -⟩ := session_invariant h
  exact hbuffered.2

end Bancho.Connection
