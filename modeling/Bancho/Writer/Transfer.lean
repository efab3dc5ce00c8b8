/-
  Bancho.Writer.Transfer
  ──────────────────────
  The write queue over `async_write` as asio carries it out, in chunks of which
  the socket may take a part.  Chunk by chunk or not, the session is the same:

      enqueue     send    resume    send     resume           by chunks
         │                                      │
      enqueue                              complete 0         by buffers

  Each run by chunks is matched by a run by buffers, in which a write in flight
  has sent nothing yet where by chunks it has sent the first bytes of its buffer.

  Main results:
    * `transfer_refines`  — the matching run;
    * `transfer_contract` — one chunk at a time, of the vector at the front of the
      queue, and a handler that is told the truth, also of a closed socket.
-/
import Bancho.Writer.Chunks

namespace Bancho.AsyncWrite

open Session Transition

/-! ## §1. The simulation. -/

/-- No write has ended in an error. -/
def NoErrors (t : Config) : Prop := ∀ w ∈ t.ended, w.ec = false

/-- If `enqueue` is called, no write has ended in an error. -/
def EnqueuesWhole (t : Config) (l : Label) : Prop :=
  ∀ data, l = .action (.enqueue data) → NoErrors t

/-- The actions `ds` of the session by buffers match the step from `t` to `t'`. -/
structure Matches (t : Config) (c : Writer.Config) (l : Label) (t' : Config)
    (ds : List Writer.Action) (c' : Writer.Config) : Prop where
  run : Writer.system.runFrom c ds = some c'
  represents : Represents t' c'
  enqueued : Writer.enqueuedOf ds = enqueuedOf [l]
  errors : NoErrors t' ↔ NoErrors t ∧ Writer.NoErrors ds
  whole : EnqueuesWhole t l → Writer.system.Along Writer.EnqueuesWhole c ds

section Simulation

variable {t t' : Config} {c : Writer.Config} {l : Label}

theorem noErrors_finished {o : Op} {ec : Bool} {n : Nat} {ds : List Writer.Action}
    (hended : t'.ended = (t.finished o ec n).ended) (hds : Writer.NoErrors ds ↔ ec = false) :
    NoErrors t' ↔ NoErrors t ∧ Writer.NoErrors ds := by
  unfold NoErrors
  rw [hended, hds]
  show (∀ w ∈ t.ended ++ [_], _) ↔ _
  rw [List.forall_mem_append, List.forall_mem_singleton]

/-- Without an error nothing is left unsent. -/
theorem Represents.unsent_nil (h : Represents t c) (hgood : NoErrors t) : c.unsent = [] := by
  rw [h.unsent, List.flatten_eq_nil_iff]
  intro rest hrest
  obtain ⟨w, hw, rfl⟩ := List.mem_map.mp hrest
  unfold Ended.unsent
  rw [(h.accurate w hw).good (hgood w hw), List.drop_length]

theorem noErrors_singleton {d : Writer.Action} :
    Writer.NoErrors [d] ↔ ∀ op sent, d ≠ .fail op sent := by
  unfold Writer.NoErrors
  constructor
  · intro h op sent hd
    exact h op sent (hd ▸ List.mem_cons_self)
  · intro h op sent hmem
    exact h op sent (List.mem_singleton.mp hmem).symm

theorem noErrors_append {ds es : List Writer.Action} :
    Writer.NoErrors (ds ++ es) ↔ Writer.NoErrors ds ∧ Writer.NoErrors es := by
  unfold Writer.NoErrors
  constructor
  · intro hall
    exact ⟨fun op sent hmem => hall op sent (List.mem_append_left es hmem),
      fun op sent hmem => hall op sent (List.mem_append_right ds hmem)⟩
  · rintro ⟨hds, hes⟩ op sent hmem
    rcases List.mem_append.mp hmem with hold | hnew
    · exact hds op sent hold
    · exact hes op sent hnew

/-- A step that only the chunks see. -/
theorem Matches.silent (hrep : Represents t' c) (hl : enqueuedOf [l] = [])
    (hended : t'.ended = t.ended) : Matches t c l t' [] c := by
  refine ⟨rfl, hrep, hl.symm, ?_, fun _ => trivial⟩
  unfold NoErrors
  rw [hended]
  exact ⟨fun hgood => ⟨hgood, fun op sent hmem => (nomatch hmem)⟩, fun hgood => hgood.1⟩

/-- One step of the session by buffers. -/
theorem Matches.single {d : Writer.Action} {c' : Writer.Config} (henabled : Writer.Enabled c d)
    (hact : Writer.act c d = some c') (hrep : Represents t' c')
    (henq : Writer.enqueuedOf [d] = enqueuedOf [l])
    (herrors : NoErrors t' ↔ NoErrors t ∧ Writer.NoErrors [d])
    (hwhole : EnqueuesWhole t l → Writer.EnqueuesWhole c d) : Matches t c l t' [d] c' := by
  refine ⟨?_, hrep, henq, herrors, fun h => ⟨hwhole h, fun _ _ => trivial⟩⟩
  rw [System.runFrom_cons]
  show ((if Writer.Enabled c d then Writer.act c d else none).bind _) = _
  rw [if_pos henabled, hact]
  rfl

/-- The chunk in flight was answered, or is the next one. -/
theorem Represents.withOp (h : Represents t c) {o : Op} (hops : t.ops = [o]) (o' : Op)
    (hbuffer : o'.buffers.buffer = o.buffers.buffer) (hfits : Fits t.isOpen o') {socket : List UInt8}
    (hsocket : socket = c.socketBytes ++ o.buffers.buffer.take o'.sent) :
    Represents { t with ops := [o'], socketBytes := socket } c := by
  refine ⟨h.state, ?_, ?_, h.sent, h.unsent, ?_, h.accurate⟩
  · rw [h.ops, hops]
    show [o.buffers.buffer] = [o'.buffers.buffer]
    rw [hbuffer]
  · show socket = c.socketBytes ++ (o'.buffers.buffer.take o'.sent ++ [])
    rw [hsocket, hbuffer, List.append_nil]
  · intro u hu
    obtain rfl := List.mem_singleton.mp hu
    exact hfits

/-- What is on the socket while `o` is in flight. -/
theorem Represents.socket_single (h : Represents t c) {o : Op} (hops : t.ops = [o]) :
    t.socketBytes = c.socketBytes ++ o.buffers.buffer.take o.sent := by
  have hsocket := h.socket
  rw [hops] at hsocket
  rw [hsocket]
  show _ ++ (_ ++ []) = _
  rw [List.append_nil]

/-- The part of the chunk that was accepted is the next part of the buffer. -/
theorem Fits.take_sent {isOpen : Bool} {o : Op} (h : Fits isOpen o) (hwait : o.result = none) {n : Nat}
    (hle : n ≤ o.chunk.length) (ec : Bool) :
    o.buffers.buffer.take o.sent ++ o.chunk.take n
      = o.buffers.buffer.take ({ o with result := some (ec, n) } : Op).sent := by
  have hbefore : o.sent = o.buffers.totalConsumed := by
    unfold Op.sent
    rw [hwait]
    rfl
  have hafter : ({ o with result := some (ec, n) } : Op).sent = o.buffers.totalConsumed + n := rfl
  rw [h.length_chunk] at hle
  rw [hbefore, hafter, h.chunk, List.take_add]
  unfold ConsumingBuffer.prepare
  rw [List.take_take, Nat.min_eq_left (Nat.le_trans hle (Nat.min_le_left _ _))]

/-- **Each step by chunks is matched by a step by buffers**, or by none. -/
theorem took_matches (h : Represents t c) (htook : Took t l t') :
    ∃ ds c', Matches t c l t' ds c' := by
  have hone : ∀ {o : Op}, t.ops = [o] → c.outstanding = [o.buffers.buffer] := by
    intro o hops
    rw [h.ops, hops]
    rfl
  have hfits : ∀ {o : Op}, t.ops = [o] → Fits t.isOpen o :=
    fun hops => h.fits _ (hops ▸ List.mem_cons_self)
  cases htook with
  | enqueue data t' hact =>
      obtain ⟨c', hact', hrep⟩ := enqueue_represents h hact
      refine ⟨_, c', Matches.single (d := .enqueue data) trivial hact' hrep rfl ?_ ?_⟩
      · unfold NoErrors
        rw [(enqueue_frame hact).ended, noErrors_singleton]
        exact ⟨fun hgood => ⟨hgood, fun op sent hd => (nomatch hd)⟩, fun hgood => hgood.1⟩
      · intro hwhole data' _
        exact h.unsent_nil (hwhole data rfl)
  | send o n hops hwait hopen hpos hle =>
      have hf := hfits hops
      refine ⟨[], c, Matches.silent
        (h.withOp hops { o with result := some (false, n) } rfl ?_ ?_) rfl rfl⟩
      · refine ⟨hf.chunk, hf.inside, fun hn => (nomatch hn), fun m hm => ?_,
          fun m hm => (nomatch hm)⟩
        obtain rfl : n = m := (Prod.mk.inj (Option.some.inj hm)).2
        exact ⟨hle, fun hzero => absurd hzero (Nat.ne_of_gt hpos)⟩
      · rw [h.socket_single hops, List.append_assoc, hf.take_sent hwait hle]
  | abort o hops hwait =>
      have hf := hfits hops
      refine ⟨[], c, Matches.silent
        (h.withOp hops { o with result := some (true, 0) } rfl ?_ ?_) rfl rfl⟩
      · refine ⟨hf.chunk, hf.inside, fun hn => (nomatch hn), fun m hm => (nomatch hm),
          fun m hm => ?_⟩
        obtain rfl : 0 = m := (Prod.mk.inj (Option.some.inj hm)).2
        exact ⟨rfl, fun hnil => absurd hnil (hf.waiting hwait)⟩
      · rw [h.socket_single hops, List.append_assoc, hf.take_sent hwait (Nat.zero_le _)]
  | more o n hops hr hmore =>
      have hnext : Fits t.isOpen (Op.start t.isOpen (o.buffers.consume n)) :=
        fits_start t.isOpen (Or.inl hmore)
      refine ⟨[], c, Matches.silent
        (h.withOp hops (Op.start t.isOpen (o.buffers.consume n)) rfl hnext ?_) rfl rfl⟩
      rw [h.socket_single hops, sent_start]
      unfold Op.sent
      rw [hr]
      rfl
  | done o n t' hops hr hall hon =>
      obtain ⟨-, hsent⟩ := resume_done hr hall
      have haccurate : Accurate t.isOpen ⟨o.buffers.buffer, false, o.buffers.buffer.length⟩ :=
        ⟨Nat.le_refl _, fun _ => rfl, fun hec => (nomatch hec)⟩
      have hrep := h.finished hops hsent haccurate (c.completed ++ [o.buffers.buffer])
      rw [List.take_length, List.drop_length, List.append_nil] at hrep
      obtain ⟨c', hon', hrep'⟩ := onWrite_represents hrep hon
      refine ⟨[.complete 0], c', Matches.single ?_ ?_ hrep' rfl ?_ fun _ data hd => (nomatch hd)⟩
      · show 0 < c.outstanding.length
        rw [hone hops]
        exact Nat.one_pos
      · unfold Writer.act
        rw [← hon', hone hops]
        rfl
      · refine noErrors_finished (onWrite_frame hon).ended ?_
        rw [noErrors_singleton]
        exact ⟨fun _ => rfl, fun _ op sent hd => (nomatch hd)⟩
  | failed o n t' hops hr hon =>
      obtain ⟨-, haccurate, hsent⟩ := resume_failed (hfits hops) hr
      obtain ⟨c', hon', hrep'⟩ := onWrite_represents
        (h.finished hops hsent haccurate c.completed) hon
      refine ⟨[.fail 0 o.buffers.totalConsumed], c',
        Matches.single ?_ ?_ hrep' rfl ?_ fun _ data hd => (nomatch hd)⟩
      · show 0 < c.outstanding.length ∧ _ ≤ (c.outstanding.getD 0 []).length
        rw [hone hops]
        exact ⟨Nat.one_pos, (hfits hops).consumed_le⟩
      · unfold Writer.act
        rw [← hon', hone hops]
        rfl
      · refine noErrors_finished (onWrite_frame hon).ended ?_
        rw [noErrors_singleton]
        exact ⟨fun hgood => absurd rfl (hgood 0 o.buffers.totalConsumed), fun hec => (nomatch hec)⟩
  | close => exact ⟨[], c, Matches.silent h.closed rfl rfl⟩

end Simulation

/-- The run `bs` by buffers, to `c`, matches the run `ls` by chunks, to `t`. -/
structure Simulated (ls : List Label) (t : Config) (bs : List Writer.Action)
    (c : Writer.Config) : Prop where
  represents : Represents t c
  enqueued : Writer.enqueuedOf bs = enqueuedOf ls
  errors : NoErrors t ↔ Writer.NoErrors bs

theorem noErrors_init : NoErrors system.init := by
  intro w hw
  exact nomatch (show w ∈ ([] : List Ended) from hw)

theorem represents_init : Represents system.init Writer.system.init := by
  refine ⟨rfl, rfl, rfl, rfl, rfl, ?_, ?_⟩
  · intro o ho
    exact nomatch (show o ∈ ([] : List Op) from ho)
  · intro w hw
    exact nomatch (show w ∈ ([] : List Ended) from hw)

theorem exists_writer {ls : List Label} {t : Config} (h : system.run ls = some t) :
    ∃ bs c, Writer.system.run bs = some c ∧ Simulated ls t bs c
      ∧ (system.Along EnqueuesWhole system.init ls →
          Writer.system.Along Writer.EnqueuesWhole Writer.system.init bs) := by
  refine System.run_simulates (R := Simulated) (P := EnqueuesWhole) (Q := Writer.EnqueuesWhole)
    ⟨represents_init, rfl, fun _ op sent hmem => (nomatch hmem), fun _ => noErrors_init⟩ ?_ h
  intro ls t bs c l t' hi hrun hstep
  have htook := step_took hi.represents (Writer.ready_run hrun) hstep
  obtain ⟨ds, c', hmatch⟩ := took_matches hi.represents htook
  refine ⟨ds, c', hmatch.run, ⟨hmatch.represents, ?_, ?_⟩, hmatch.whole⟩
  · have henq : Writer.enqueuedOf (bs ++ ds) = Writer.enqueuedOf bs ++ Writer.enqueuedOf ds :=
      List.filterMap_append
    have henq' : enqueuedOf (ls ++ [l]) = enqueuedOf ls ++ enqueuedOf [l] := List.filterMap_append
    rw [henq, henq', hi.enqueued, hmatch.enqueued]
  · rw [hmatch.errors, hi.errors, noErrors_append]

/-! ## §2. What holds chunk by chunk. -/

/-- **By chunks the queue is what it is by buffers.**  Each run by chunks has a run
by buffers that enqueues the same vectors and leaves the same session, with the
same writes in flight; its socket carries what the writes that have ended sent,
and the socket by chunks also the first bytes of the buffer in flight.  Where
nothing is enqueued after an error here, nothing is there. -/
theorem transfer_refines (ls : List Label) (t : Config) (h : system.run ls = some t) :
    ∃ bs c, Writer.system.run bs = some c
      ∧ Writer.enqueuedOf bs = enqueuedOf ls
      ∧ c.state = t.state
      ∧ c.outstanding = t.ops.map (fun o => o.buffers.buffer)
      ∧ t.socketBytes = c.socketBytes ++ (t.ops.map fun o => o.buffers.buffer.take o.sent).flatten
      ∧ (NoErrors t ↔ Writer.NoErrors bs)
      ∧ (system.Along EnqueuesWhole system.init ls →
          Writer.system.Along Writer.EnqueuesWhole Writer.system.init bs) := by
  obtain ⟨bs, c, hrun, hsim, hwhole⟩ := exists_writer h
  have hrep := hsim.represents
  exact ⟨bs, c, hrun, hsim.enqueued, hrep.state, hrep.ops, hrep.socket, hsim.errors, hwhole⟩

/-- A packet that the socket takes in two parts, of which the first has been sent. -/
def twoParts : List Label :=
  [.action (.enqueue [1, 0, 0, 0, 0, 0, 0]), .action (.send 0 3), .action (.resume 0)]

def afterTwoParts : Config where
  state := { writeQueue := [[1, 0, 0, 0, 0, 0, 0]], writing := true }
  ops := [⟨⟨[1, 0, 0, 0, 0, 0, 0], 3⟩, [0, 0, 0, 0], none⟩]
  socketBytes := [1, 0, 0]

theorem run_twoParts : system.run twoParts = some afterTwoParts := by decide

theorem transfer_refines_twoParts :
    ∃ bs c, Writer.system.run bs = some c
      ∧ Writer.enqueuedOf bs = [[1, 0, 0, 0, 0, 0, 0]] ∧ [1, 0, 0] = c.socketBytes ++ [1, 0, 0] := by
  obtain ⟨bs, c, hrun, henq, -, -, hsocket, -⟩ :=
    transfer_refines twoParts afterTwoParts run_twoParts
  exact ⟨bs, c, hrun, henq, hsocket⟩

/-- **The contract of a write.**  In every reachable state one write is in flight at
most, exactly when `writing` is set; its buffer is still the front of the queue,
and its chunk, of 64 KiB at most, is what follows the part already sent.  A
handler that was told of no error has all of its buffer sent; one that was has
bytes missing, unless its buffer was empty and the socket is closed.  The socket
carries what the ended writes sent, in order, and then that part.  No step is
undefined. -/
theorem transfer_contract (ls : List Label) (t : Config) (h : system.run ls = some t) :
    t.ops.length ≤ 1
      ∧ (t.state.writing = true ↔ t.ops.length = 1)
      ∧ (∀ o ∈ t.ops, t.state.writeQueue.head? = some o.buffers.buffer
          ∧ o.chunk = (o.buffers.buffer.drop o.buffers.totalConsumed).take 65536
          ∧ (o.chunk = [] ↔ o.buffers.buffer = []) ∧ o.sent ≤ o.buffers.buffer.length)
      ∧ (∀ w ∈ t.ended, w.bytesTransferred ≤ w.buffer.length
          ∧ (w.ec = false → w.bytesTransferred = w.buffer.length)
          ∧ (w.ec = true → w.bytesTransferred = w.buffer.length →
              w.buffer = [] ∧ t.isOpen = false))
      ∧ t.socketBytes = (t.ended.map fun w => w.buffer.take w.bytesTransferred).flatten
          ++ (t.ops.map fun o => o.buffers.buffer.take o.sent).flatten
      ∧ ∀ a, enabled t a = true → ∃ t', step t a = some t' := by
  obtain ⟨bs, c, hrun, hsim, -⟩ := exists_writer h
  have hrep := hsim.represents
  have hready := Writer.ready_run hrun
  have hsocket := hrep.socket
  rw [hrep.sent] at hsocket
  have hdefined : ∀ a, enabled t a = true → ∃ t', step t a = some t' :=
    fun _ henabled => step_defined hrep hready henabled
  have haccurate : ∀ w ∈ t.ended, w.bytesTransferred ≤ w.buffer.length
      ∧ (w.ec = false → w.bytesTransferred = w.buffer.length)
      ∧ (w.ec = true → w.bytesTransferred = w.buffer.length →
          w.buffer = [] ∧ t.isOpen = false) :=
    fun w hw => ⟨(hrep.accurate w hw).le, (hrep.accurate w hw).good, (hrep.accurate w hw).bad⟩
  rcases hrep.ops_cases hready with ⟨hnone, hwriting⟩ | ⟨o, queue, hops, hwriting, hqueue⟩
  · refine ⟨?_, ?_, ?_, haccurate, hsocket, hdefined⟩
    · rw [hnone]
      exact Nat.zero_le 1
    · rw [hnone, hwriting]
      exact ⟨fun h => (nomatch h), fun h => (nomatch h)⟩
    · rw [hnone]
      exact fun o ho => (nomatch ho)
  · refine ⟨?_, ?_, ?_, haccurate, hsocket, hdefined⟩
    · rw [hops]
      exact Nat.le_refl 1
    · rw [hops, hwriting]
      exact ⟨fun _ => rfl, fun _ => rfl⟩
    · rw [hops]
      intro u hu
      obtain rfl := List.mem_singleton.mp hu
      have hfits := hrep.fits u (hops ▸ List.mem_cons_self)
      refine ⟨?_, hfits.chunk, hfits.chunk_nil_iff, hfits.sent_le⟩
      rw [hqueue]
      rfl

theorem transfer_contract_twoParts :
    afterTwoParts.state.writeQueue.head? = some [1, 0, 0, 0, 0, 0, 0]
      ∧ afterTwoParts.socketBytes = [] ++ [1, 0, 0] := by
  obtain ⟨-, -, hops, -, hsocket, -⟩ := transfer_contract twoParts afterTwoParts run_twoParts
  exact ⟨(hops _ List.mem_cons_self).1, hsocket⟩

/-- An empty vector on a closed socket: an error, with nothing missing. -/
example : system.run [.close, .action (.enqueue []), .action (.resume 0)]
    = some { ended := [⟨[], true, 0⟩], isOpen := false } := by decide

/-- **On the socket is a prefix of what was enqueued**, also in the middle of a
write, as long as nothing is enqueued after an error. -/
theorem socketBytes_initial {ls : List Label} {t : Config} (h : system.run ls = some t)
    (hwhole : system.Along EnqueuesWhole system.init ls) :
    t.socketBytes <+: (enqueuedOf ls).flatten := by
  obtain ⟨bs, c, hrun, hsim, hmeets⟩ := exists_writer h
  have hrep := hsim.represents
  obtain ⟨left, hflushed⟩ := Writer.flushed_run hrun (hmeets hwhole)
  rw [← hsim.enqueued, hflushed.order, hrep.state, hrep.socket, List.flatten_append]
  rcases hrep.ops_cases (Writer.ready_run hrun) with ⟨hnone, -⟩ | ⟨o, queue, hops, -, hqueue⟩
  · rw [hnone]
    show c.socketBytes ++ [] <+: _
    rw [List.append_nil]
    exact hflushed.initial.trans (List.prefix_append _ _)
  · -- what left the queue is sent whole, and then a part of the front
    have hone : c.outstanding = [o.buffers.buffer] := by
      rw [hrep.ops, hops]
      rfl
    rw [(hflushed.inFlight hone).2, hops, hqueue]
    show left.flatten ++ (o.buffers.buffer.take o.sent ++ []) <+: _
    rw [List.append_nil, List.flatten_cons]
    refine (List.prefix_append_right_inj _).mpr ?_
    exact (List.take_prefix _ _).trans (List.prefix_append _ _)

end Bancho.AsyncWrite
