/-
  Bancho.Session.Connection
  ─────────────────────────
  A session beside what it is meant to be: a reader, and a queue whose writes are
  one step each.  The session carries out both (`connection_refines`).

  What the socket adds is the end.  `Disconnect` is the one event that closes it;
  after it nothing is read, nothing is delivered and no byte is sent, whatever is
  enqueued and whatever completes, and every write that is started then fails
  (`connection_closed`).
-/
import Bancho.Session.Sides

/-! ## §1. A writer whose socket is closed. -/

namespace Bancho.AsyncWrite

open Session Transition

section Closed

variable {t t' : Config} {a : Action}

/-- No action of the writer closes the socket, and none touches the stream. -/
theorem frame_took (h : Took t (.action a) t') :
    t'.isOpen = t.isOpen ∧ t'.state.packetStream = t.state.packetStream := by
  cases h with
  | enqueue data t' hact => exact ⟨(enqueue_frame hact).isOpen, (enqueue_frame hact).packetStream⟩
  | send _ _ _ _ _ _ _ | abort _ _ _ | more _ _ _ _ _ => exact ⟨rfl, rfl⟩
  | done o n t' _ _ _ hon | failed o n t' _ _ hon =>
      exact ⟨(onWrite_frame hon).isOpen, (onWrite_frame hon).packetStream⟩

/-- The chunk was refused. -/
def Op.Refused (o : Op) : Prop := o.result = some (true, 0)

/-- Of the writes in flight, those that were not there in `t` are refused. -/
def NewRefused (t t' : Config) : Prop :=
  t'.isOpen = false ∧ ∀ o ∈ t'.ops, o ∈ t.ops ∨ o.Refused

/-- What the header starts on a closed socket is refused. -/
theorem keeps_newRefused (t : Config) : Writer.Keeps (NewRefused t) where
  withQueue h _ := h
  withWriting h _ := h
  asyncWrite := by
    rintro t' ⟨hshut, hops⟩ buffer
    refine ⟨hshut, fun o ho => ?_⟩
    have ho : o ∈ t'.ops ++ [Op.start t'.isOpen { buffer := buffer }] := ho
    rcases List.mem_append.mp ho with hold | hnew
    · exact hops o hold
    · obtain rfl := List.mem_singleton.mp hnew
      rw [hshut]
      exact Or.inr rfl

/-- `t'` is the writer `t`, whose socket is closed, some actions later.  Of the
handlers that have run since, only that of a write in flight in `t` was told of no
error; and once it has run, or if there was none, all that is in flight is
refused. -/
structure Shut (t t' : Config) : Prop where
  isOpen : t'.isOpen = false
  socketBytes : t'.socketBytes = t.socketBytes
  packetStream : t'.state.packetStream = t.state.packetStream
  later : ∃ later, t'.ended = t.ended ++ later ∧ ∀ w ∈ later.drop t.ops.length, w.ec = true
  flight : (t'.ended = t.ended ∧ t.ops ≠ []) ∨ ∀ o ∈ t'.ops, o.Refused

theorem shut_refl (h : t.isOpen = false) : Shut t t := by
  refine ⟨h, rfl, rfl, ⟨[], (List.append_nil _).symm, ?_⟩, ?_⟩
  · rw [List.drop_nil]
    exact fun w hw => (nomatch hw)
  · by_cases hnone : t.ops = []
    · rw [hnone]
      exact Or.inr fun o ho => (nomatch ho)
    · exact Or.inl ⟨rfl, hnone⟩

/-- A chunk that waits, or was accepted, is of the write that was in flight in `t`. -/
theorem Shut.first (hi : Shut t t') {o : Op} (hops : t'.ops = [o]) (hnot : ¬ o.Refused) :
    t'.ended = t.ended ∧ t.ops ≠ [] := by
  rcases hi.flight with hfirst | hrefused
  · exact hfirst
  · exact absurd (hrefused o (hops ▸ List.mem_cons_self)) hnot

/-- A handler runs, told of an error if it is not that of the write in flight in
`t`. -/
theorem Shut.handled {t'' : Config} (hi : Shut t t') {o : Op} {ec : Bool} {n : Nat}
    (hops : t'.ops = [o]) (hon : Writer.onWrite (t'.finished o ec n) ec = some t'')
    (htold : ec = true ∨ (t'.ended = t.ended ∧ t.ops ≠ [])) : Shut t t'' := by
  have hframe := onWrite_frame hon
  have hself : NewRefused (t'.finished o ec n) (t'.finished o ec n) :=
    ⟨hi.isOpen, fun _ ho => Or.inl ho⟩
  obtain ⟨-, hnew⟩ := (keeps_newRefused (t'.finished o ec n)).onWrite hself hon
  have hnone : (t'.finished o ec n).ops = [] := by
    show t'.ops.eraseIdx 0 = []
    rw [hops]
    rfl
  refine ⟨hframe.isOpen.trans hi.isOpen, hframe.socketBytes.trans hi.socketBytes,
    hframe.packetStream.trans hi.packetStream, ?_, Or.inr fun o' ho' => ?_⟩
  · rcases htold with rfl | ⟨hsame, hflight⟩
    · obtain ⟨later, hended, hfailed⟩ := hi.later
      refine ⟨later ++ [⟨o.buffers.buffer, true, n⟩], ?_, fun w hw => ?_⟩
      · rw [hframe.ended]
        show t'.ended ++ [_] = _
        rw [hended, List.append_assoc]
      · rw [List.drop_append] at hw
        rcases List.mem_append.mp hw with hold | hlast
        · exact hfailed w hold
        · rw [List.mem_singleton.mp (List.mem_of_mem_drop hlast)]
    · refine ⟨[⟨o.buffers.buffer, ec, n⟩], ?_, fun w hw => ?_⟩
      · rw [hframe.ended]
        show t'.ended ++ [_] = _
        rw [hsame]
      · -- it is the handler of the write in flight in `t`
        have hpos : 0 < t.ops.length := List.length_pos_iff.mpr hflight
        rw [List.drop_eq_nil_of_le hpos] at hw
        exact nomatch hw
  · rcases hnew o' ho' with hold | hrefused
    · rw [hnone] at hold
      exact nomatch hold
    · exact hrefused

/-- **A closed socket takes nothing**, and what is started on it fails. -/
theorem shut_took {t'' : Config} (hi : Shut t t') (h : Took t' (.action a) t'') :
    Shut t t'' := by
  obtain ⟨hopen', hstream'⟩ := frame_took h
  have hshut := hopen'.trans hi.isOpen
  have hstream := hstream'.trans hi.packetStream
  cases h with
  | enqueue data t'' hact =>
      have hframe := enqueue_frame hact
      obtain ⟨later, hended, hfailed⟩ := hi.later
      refine ⟨hshut, hframe.socketBytes.trans hi.socketBytes, hstream,
        ⟨later, hframe.ended.trans hended, hfailed⟩, ?_⟩
      rcases hi.flight with ⟨hsame, hflight⟩ | hrefused
      · exact Or.inl ⟨hframe.ended.trans hsame, hflight⟩
      · have hself : NewRefused t' t' := ⟨hi.isOpen, fun _ ho => Or.inl ho⟩
        obtain ⟨-, hnew⟩ := (keeps_newRefused t').enqueue hself hact
        exact Or.inr fun o ho => (hnew o ho).elim (hrefused o) id
  | send o n hops hwait hopen hpos hle => exact nomatch hi.isOpen.symm.trans hopen
  | abort o hops hwait =>
      have hfirst := hi.first hops fun hr => nomatch hwait.symm.trans hr
      refine ⟨hshut, ?_, hstream, hi.later, Or.inl hfirst⟩
      show t'.socketBytes ++ o.chunk.take 0 = _
      rw [List.take_zero, List.append_nil, hi.socketBytes]
  | more o n hops hr hmore =>
      have hfirst := hi.first hops fun hr' => nomatch hr.symm.trans hr'
      exact ⟨hshut, hi.socketBytes, hstream, hi.later, Or.inl hfirst⟩
  | done o n t'' hops hr hall hon =>
      exact hi.handled hops hon (Or.inr (hi.first hops fun hr' => nomatch hr.symm.trans hr'))
  | failed o n t'' hops hr hon => exact hi.handled hops hon (Or.inl rfl)

end Closed

end Bancho.AsyncWrite

namespace Bancho.Connection

open Session Transition

/-! ## §2. What the session carries out. -/

/-- The reader leaves the queue as it is. -/
theorem queue_took {z : Zlib} {r r' : Reader.Config} {a : Reader.Action}
    (h : Reader.Took z r a r') :
    r'.state.writeQueue = r.state.writeQueue ∧ r'.state.writing = r.state.writing := by
  cases h <;> exact ⟨rfl, rfl⟩

/-- The writer of the session is idle, or writes the front of its queue. -/
def Sound (c : Config) : Prop := AsyncWrite.Sound c.writer

theorem sound_run {z : Zlib} {as : List Action} {c : Config} (h : (system z).run as = some c) :
    Sound c := (session_invariant h).2.2.2.2.2

theorem sound_step {z : Zlib} {c c' : Config} {a : Action} (h : Sound c)
    (hstep : (system z).step c a = some c') : Sound c' := by
  cases a with
  | inl a =>
      obtain ⟨r, hr, rfl⟩ := Option.map_eq_some_iff.mp hstep
      obtain ⟨hqueue, hwriting⟩ := queue_took (Reader.step_took hr)
      have hsound : AsyncWrite.Sound { c.writer with state := r.state } :=
        h.withState hqueue hwriting
      show AsyncWrite.Sound ⟨r.state, c.ops, c.ended, c.socketBytes,
        c.isOpen && !r.events.contains .disconnect⟩
      cases r.events.contains .disconnect with
      | true =>
          rw [Bool.not_true, Bool.and_false]
          exact AsyncWrite.sound_step (l := .close) hsound rfl
      | false =>
          rw [Bool.not_false, Bool.and_true]
          exact hsound
  | inr a =>
      obtain ⟨w, hw, rfl⟩ := Option.map_eq_some_iff.mp hstep
      exact AsyncWrite.sound_step (l := .action a) h hw

/-- **A session carries out a reader beside a queue whose writes are one step
each**: each run has a run of the reader with the same actions, and one of the
queue with the same vectors enqueued.  Its stream and its events are the reader's.
Its queue, its flag and its writes in flight are the queue's, and so is its socket,
but for the part already sent of the buffer in flight; and a handler was told of an
error exactly if a write of the queue failed. -/
theorem connection_refines (z : Zlib) (as : List Action) (c : Config)
    (h : (system z).run as = some c) :
    ∃ r bs q, (Reader.system z).run (System.lefts as) = some r
      ∧ Writer.system.run bs = some q
      ∧ Writer.enqueuedOf bs = enqueuedOf as
      ∧ c.reader = { r with state := c.state }
      ∧ c.state = { r.state with writeQueue := q.state.writeQueue, writing := q.state.writing }
      ∧ q.outstanding = c.ops.map (fun o => o.buffers.buffer)
      ∧ c.socketBytes
          = q.socketBytes ++ (c.ops.map fun o => o.buffers.buffer.take o.sent).flatten
      ∧ ((∀ w ∈ c.ended, w.ec = false) ↔ Writer.NoErrors bs) := by
  obtain ⟨r, w, hr, hw, rfl⟩ := run_sides h
  obtain ⟨bs, q, hq, hsim, -⟩ := AsyncWrite.exists_writer hw
  have hrep := hsim.represents
  refine ⟨r, bs, q, hr, hq, hsim.enqueued.trans (enqueuedOf_heard hr), rfl, ?_, hrep.ops,
    hrep.socket, hsim.errors⟩
  rw [hrep.state]
  rfl

/-! ## §3. After `Disconnect`. -/

/-- The events of a session only grow. -/
theorem events_took {z : Zlib} {r r' : Reader.Config} {a : Reader.Action}
    (h : Reader.Took z r a r') : r.events <+: r'.events := by
  cases h with
  | read _ _ | more _ _ => exact List.prefix_refl _
  | readError _ | bad _ _ | frame _ _ _ _ _ _ _ => exact List.prefix_append _ _

/-- **The socket is open until `Disconnect`.** -/
theorem isOpen_run {z : Zlib} {as : List Action} {c : Config} (h : (system z).run as = some c) :
    c.isOpen = !c.events.contains .disconnect := by
  refine (System.invariant
    (P := fun c : Config => Sound c ∧ c.isOpen = !c.events.contains .disconnect)
    ⟨sound_run (z := z) (show (system z).run [] = some start from rfl), rfl⟩ ?_ h).2
  rintro c a c' ⟨hsound, hi⟩ hstep
  refine ⟨sound_step hsound hstep, ?_⟩
  cases a with
  | inl a =>
      obtain ⟨r, hr, rfl⟩ := Option.map_eq_some_iff.mp hstep
      have hgrow := events_took (Reader.step_took hr)
      show (c.isOpen && !r.events.contains .disconnect) = !r.events.contains .disconnect
      rw [hi]
      -- a `Disconnect` that was there is still there
      cases hbefore : c.events.contains .disconnect with
      | false => rfl
      | true =>
          have hmem : .disconnect ∈ r.events := hgrow.subset (List.contains_iff_mem.mp hbefore)
          rw [List.contains_iff_mem.mpr hmem]
          rfl
  | inr a =>
      obtain ⟨w, hw, rfl⟩ := Option.map_eq_some_iff.mp hstep
      obtain ⟨d, hrep, hready⟩ := hsound
      have htook := AsyncWrite.step_took (l := .action a) hrep hready hw
      exact (AsyncWrite.frame_took htook).1.trans hi

/-- A session closes with a `Disconnect`. -/
theorem disconnect_of_closed {z : Zlib} {as : List Reader.Action} {r : Reader.Config}
    (h : (Reader.system z).run as = some r) : r.phase = .closed → .disconnect ∈ r.events := by
  refine System.invariant (P := fun r : Reader.Config => r.phase = .closed → .disconnect ∈ r.events)
    (fun hclosed : Reader.Phase.reading = .closed => (nomatch hclosed)) ?_ h
  intro r a r' hi hstep hclosed
  cases Reader.step_took hstep with
  | read _ _ | more _ _ => exact nomatch hclosed
  | readError _ | bad _ _ => exact List.mem_append_right _ List.mem_cons_self
  | frame _ _ _ hphase _ _ _ => exact nomatch hphase.symm.trans hclosed

/-- **The socket is open as long as a read is armed or its handler runs.** -/
theorem isOpen_iff {z : Zlib} {as : List Action} {c : Config} (h : (system z).run as = some c) :
    c.isOpen = true ↔ c.phase ≠ .closed := by
  have hopen := isOpen_run h
  have hended := (session_invariant h).2.2.2.2.1
  obtain ⟨r, w, hr, -, rfl⟩ := run_sides h
  rw [hopen, Bool.not_eq_true', ← Bool.not_eq_true, List.contains_iff_mem]
  exact ⟨fun hnone hphase => hnone (disconnect_of_closed hr hphase), hended.1⟩

/-- What stays as it is once the session `c` has closed its socket. -/
structure Closed (c c' : Config) : Prop where
  sound : Sound c'
  phase : c'.phase = .closed
  events : c'.events = c.events
  received : c'.received = c.received
  shut : AsyncWrite.Shut c.writer c'.writer

/-- **Nothing reopens it.** -/
theorem closed_step {z : Zlib} {c c' c'' : Config} {a : Action} (hc : Closed c c')
    (hstep : (system z).step c' a = some c'') : Closed c c'' := by
  have hsound := sound_step hc.sound hstep
  cases a with
  | inl a =>
      -- no read is outstanding and the loop is not running
      obtain ⟨r, hr, -⟩ := Option.map_eq_some_iff.mp hstep
      exact absurd hc.phase (Reader.step_took hr).not_closed
  | inr a =>
      obtain ⟨w, hw, rfl⟩ := Option.map_eq_some_iff.mp hstep
      obtain ⟨d, hrep, hready⟩ := hc.sound
      have htook := AsyncWrite.step_took (l := .action a) hrep hready hw
      exact ⟨hsound, hc.phase, hc.events, hc.received, AsyncWrite.shut_took hc.shut htook⟩

/-- The account of the socket. -/
theorem Sound.socketBytes {c : Config} (h : Sound c) :
    c.socketBytes = (c.ended.map AsyncWrite.Ended.sent).flatten
      ++ (c.ops.map fun o => o.buffers.buffer.take o.sent).flatten := by
  obtain ⟨d, hrep, -⟩ := h
  have hsocket := hrep.socket
  rw [hrep.sent] at hsocket
  exact hsocket

/-- **The end of a session.**  The socket is open until the one `Disconnect`.  From
then on no action of the reader is possible, and whatever is enqueued and whatever
completes: no event follows, no byte is received or sent, and `packet_stream`
stays.  What handlers are still told was sent had been sent before, by the write
then in flight, and all but the handler of that write are told of an error. -/
theorem connection_closed (z : Zlib) (as : List Action) (c : Config)
    (h : (system z).run as = some c) :
    (c.isOpen = true ↔ .disconnect ∉ c.events)
      ∧ (c.isOpen = false → ∀ a, (system z).step c (.inl a) = none)
      ∧ (c.isOpen = false → ∀ bs c', (system z).runFrom c bs = some c' →
          c'.events = c.events ∧ c'.received = c.received ∧ c'.socketBytes = c.socketBytes
            ∧ c'.state.packetStream = c.state.packetStream
            ∧ ∃ later, c'.ended = c.ended ++ later
                ∧ (later.map AsyncWrite.Ended.sent).flatten
                    <+: (c.ops.map fun o => o.buffers.buffer.take o.sent).flatten
                ∧ ∀ w ∈ later.drop c.ops.length, w.ec = true) := by
  have hsound := sound_run h
  have hclosed : c.isOpen = false → c.phase = .closed := by
    intro hshut
    by_contra hphase
    exact nomatch hshut.symm.trans ((isOpen_iff h).mpr hphase)
  refine ⟨?_, ?_, ?_⟩
  · rw [isOpen_run h, Bool.not_eq_true', ← Bool.not_eq_true, List.contains_iff_mem]
  · intro hshut a
    cases hstep : (system z).step c (.inl a) with
    | none => rfl
    | some c' =>
        obtain ⟨r, hr, -⟩ := Option.map_eq_some_iff.mp hstep
        exact absurd (hclosed hshut) (Reader.step_took hr).not_closed
  · intro hshut bs c' hlater
    have hkept : Closed c c' := System.runFrom_invariant (P := Closed c)
      (fun _ _ _ hc hs => closed_step hc hs)
      ⟨hsound, hclosed hshut, rfl, rfl, AsyncWrite.shut_refl hshut⟩ hlater
    obtain ⟨-, hsocket, hstream, ⟨later, hended, hfailed⟩, -⟩ := hkept.shut
    have hsocket : c'.socketBytes = c.socketBytes := hsocket
    have hended : c'.ended = c.ended ++ later := hended
    refine ⟨hkept.events, hkept.received, hsocket, hstream, later, hended, ?_, hfailed⟩
    -- the same bytes, accounted for before and after
    have hafter := hkept.sound.socketBytes
    rw [hsocket, hsound.socketBytes, hended, List.map_append, List.flatten_append,
      List.append_assoc] at hafter
    have hsame := List.append_cancel_left hafter
    exact ⟨_, hsame.symm⟩

/-- A packet is half sent when the client goes away: its write ends in an error, and
one enqueued later is not sent. -/
def goneClient : List Action :=
  [.inr (.enqueue [1, 0, 0, 0, 0, 0, 0]), .inr (.send 0 3), .inl .readError]

def afterGone : Config where
  state := { writeQueue := [[1, 0, 0, 0, 0, 0, 0]], writing := true }
  phase := .closed
  events := [.connect, .disconnect]
  received := []
  ops := [⟨⟨[1, 0, 0, 0, 0, 0, 0], 0⟩, [1, 0, 0, 0, 0, 0, 0], some (false, 3)⟩]
  ended := []
  socketBytes := [1, 0, 0]
  isOpen := false

theorem run_goneClient : (system fixedZlib).run goneClient = some afterGone := by
  decide +kernel

theorem connection_refines_goneClient :
    ∃ bs q, Writer.system.run bs = some q
      ∧ q.outstanding = [[1, 0, 0, 0, 0, 0, 0]] ∧ [1, 0, 0] = q.socketBytes ++ [1, 0, 0] := by
  obtain ⟨-, bs, q, -, hrun, -, -, -, hops, hsocket, -⟩ :=
    connection_refines fixedZlib goneClient afterGone run_goneClient
  exact ⟨bs, q, hrun, hops, hsocket⟩

/-- The rest of the packet fails, and so does an empty vector after it. -/
theorem connection_closed_goneClient :
    ∃ c' later, (system fixedZlib).runFrom afterGone [.inr (.resume 0), .inr (.resume 0),
        .inr (.enqueue []), .inr (.resume 0)] = some c'
      ∧ c'.socketBytes = [1, 0, 0] ∧ c'.ended = [] ++ later
      ∧ ∀ w ∈ later.drop 1, w.ec = true := by
  have hend := (connection_closed fixedZlib goneClient afterGone run_goneClient).2.2 rfl
  obtain ⟨c', hrun⟩ : ∃ c', (system fixedZlib).runFrom afterGone [.inr (.resume 0),
      .inr (.resume 0), .inr (.enqueue []), .inr (.resume 0)] = some c' :=
    Option.isSome_iff_exists.mp (by decide +kernel)
  obtain ⟨-, -, hsocket, -, later, hended, -, hfailed⟩ := hend _ c' hrun
  exact ⟨c', later, hrun, hsocket, hended, hfailed⟩

end Bancho.Connection
