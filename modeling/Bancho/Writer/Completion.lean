/-
  Bancho.Writer.Completion
  ────────────────────────
  Writes come to an end, however little of a chunk the socket takes at a time, and
  also when it is closed.  Each completion uses up a part of the `credit` of the
  writes, two for each byte still to send, so a session that enqueues nothing more
  is soon idle; and unless a write failed it has then sent everything
  (`transfer_terminates`).
-/
import Bancho.Writer.Transfer

namespace Bancho.AsyncWrite

open Session Transition

/-! ## §1. What a write still takes. -/

/-- The action is what comes of a write, and not a call of `enqueue`. -/
def Action.completes : Action → Bool
  | .enqueue _ => false
  | _ => true

def Label.completes : Label → Bool
  | .action a => a.completes
  | .close => false

/-- The most steps that a write of `buffer` takes: each byte is sent and handed on,
and an empty buffer still makes one chunk, which is known at once. -/
def weight (buffer : List UInt8) : Nat := max (2 * buffer.length) 1

/-- The most steps that a write in flight still takes. -/
def Op.credit (o : Op) : Nat :=
  match o.result with
  | none => 2 * (o.buffers.buffer.length - o.sent)
  | some (true, _) => 1
  | some (false, _) => 2 * (o.buffers.buffer.length - o.sent) + 1

/-- The most steps until no write is in flight, if nothing is enqueued. -/
def Config.credit (t : Config) : Nat :=
  if t.ops = [] then 0
  else (t.ops.map Op.credit).sum + ((t.state.writeQueue.drop 1).map weight).sum

section Credit

variable {t t' : Config} {a : Action}

theorem credit_single {o : Op} {front : List UInt8} {queue : List (List UInt8)}
    (hops : t.ops = [o]) (hqueue : t.state.writeQueue = front :: queue) :
    t.credit = o.credit + (queue.map weight).sum := by
  unfold Config.credit
  rw [hops, hqueue, if_neg (List.cons_ne_nil o [])]
  show o.credit + 0 + _ = _
  rw [Nat.add_zero]
  rfl

/-- A chunk that is started takes two steps for each byte left, unless it is known
at once. -/
theorem credit_start_le (isOpen : Bool) (buffers : ConsumingBuffer) :
    (Op.start isOpen buffers).credit
      ≤ max (2 * (buffers.buffer.length - buffers.totalConsumed)) 1 := by
  have hresult : (Op.start isOpen buffers).result
      = asyncWriteSome isOpen (Op.start isOpen buffers).chunk := rfl
  have hsent := sent_start isOpen buffers
  have hbuffer : (Op.start isOpen buffers).buffers = buffers := rfl
  unfold Op.credit
  rcases asyncWriteSome_cases isOpen (Op.start isOpen buffers).chunk with
    ⟨-, hr⟩ | ⟨hnil, hr⟩ | ⟨-, hr⟩
  · rw [hresult, hr]
    exact Nat.le_max_right _ _
  · -- nothing is left of the buffer
    have hlen : (buffers.prepare defaultMaxTransferSize).length = 0 :=
      List.length_eq_zero_iff.mpr hnil
    unfold ConsumingBuffer.prepare at hlen
    rw [List.length_take, List.length_drop] at hlen
    have hpos : 0 < defaultMaxTransferSize := by decide
    rw [hresult, hr, hsent, hbuffer]
    show 2 * (buffers.buffer.length - buffers.totalConsumed) + 1 ≤ _
    omega
  · rw [hresult, hr, hsent, hbuffer]
    exact Nat.le_max_left _ _

/-- After the handler there is at most the rest of the queue to send. -/
theorem credit_onWrite {front : List UInt8} {queue : List (List UInt8)} (hops : t.ops = [])
    (hqueue : t.state.writeQueue = front :: queue) {ec : Bool}
    (hon : Writer.onWrite t ec = some t') : t'.credit ≤ (queue.map weight).sum := by
  have hstop : (ec = true ∨ queue = []) → t'.credit ≤ (queue.map weight).sum := by
    intro hstop
    obtain rfl := Option.some.inj ((Writer.onWrite_stop (c := t) hqueue hstop).symm.trans hon)
    have hidle : ∀ s : State, ({ t with state := s } : Config).credit = 0 := by
      intro s
      unfold Config.credit
      exact if_pos hops
    exact Nat.le_trans (Nat.le_of_eq (hidle _)) (Nat.zero_le _)
  cases ec with
  | true => exact hstop (Or.inl rfl)
  | false =>
      cases queue with
      | nil => exact hstop (Or.inr rfl)
      | cons front' queue =>
          -- the next vector is started, and weighs at most what it did in the queue
          obtain rfl := Option.some.inj ((Writer.onWrite_next (c := t) hqueue).symm.trans hon)
          let t' : Config := asyncWrite { t with
            state := { t.state with writeQueue := front' :: queue } } front'
          have hstarted : t'.ops = [Op.start t.isOpen { buffer := front' }] := by
            show t.ops ++ [_] = _
            rw [hops]
            rfl
          show t'.credit ≤ _
          rw [credit_single hstarted rfl, List.map_cons, List.sum_cons]
          exact Nat.add_le_add_right (credit_start_le t.isOpen { buffer := front' }) _

/-- **Each completion uses up a part of it**, whatever the socket takes. -/
theorem credit_took {c : Writer.Config} (h : Represents t c) (hready : Writer.Ready c)
    (ha : a.completes = true) (htook : Took t (.action a) t') : t'.credit < t.credit := by
  cases htook with
  | enqueue data t' hact => exact nomatch ha
  | send o n hops hwait hopen hpos hle =>
      obtain ⟨queue, hq⟩ := h.front hready hops
      have hf := h.fits o (hops ▸ List.mem_cons_self)
      have hlen := hf.length_chunk
      rw [credit_single hops hq,
        credit_single (t := t.answered o false n) (o := { o with result := some (false, n) }) rfl hq]
      have hbefore : o.credit = 2 * (o.buffers.buffer.length - o.buffers.totalConsumed) := by
        unfold Op.credit Op.sent
        rw [hwait]
        rfl
      have hafter : ({ o with result := some (false, n) } : Op).credit
          = 2 * (o.buffers.buffer.length - (o.buffers.totalConsumed + n)) + 1 := rfl
      rw [hbefore, hafter]
      omega
  | abort o hops hwait =>
      obtain ⟨queue, hq⟩ := h.front hready hops
      have hf := h.fits o (hops ▸ List.mem_cons_self)
      have hlen := hf.length_chunk
      have hne : 0 < o.chunk.length := List.length_pos_iff.mpr (hf.waiting hwait)
      rw [credit_single hops hq,
        credit_single (t := t.answered o true 0) (o := { o with result := some (true, 0) }) rfl hq]
      have hbefore : o.credit = 2 * (o.buffers.buffer.length - o.buffers.totalConsumed) := by
        unfold Op.credit Op.sent
        rw [hwait]
        rfl
      have hafter : ({ o with result := some (true, 0) } : Op).credit = 1 := rfl
      rw [hbefore, hafter]
      omega
  | more o n hops hr hmore =>
      obtain ⟨queue, hq⟩ := h.front hready hops
      rw [credit_single hops hq, credit_single (t := t.resumed o n)
        (o := Op.start t.isOpen (o.buffers.consume n)) rfl hq]
      have hbefore : o.credit
          = 2 * (o.buffers.buffer.length - (o.buffers.totalConsumed + n)) + 1 := by
        unfold Op.credit Op.sent
        rw [hr]
        rfl
      have hafter : (Op.start t.isOpen (o.buffers.consume n)).credit
          ≤ max (2 * (o.buffers.buffer.length - (o.buffers.totalConsumed + n))) 1 :=
        credit_start_le t.isOpen (o.buffers.consume n)
      rw [hbefore]
      omega
  | done o n t' hops hr hall hon =>
      obtain ⟨queue, hq⟩ := h.front hready hops
      have hrest := credit_onWrite (t := t.finished o false o.buffers.buffer.length)
        (by show t.ops.eraseIdx 0 = []; rw [hops]; rfl) hq hon
      have hbefore : o.credit = 1 := by
        unfold Op.credit Op.sent
        rw [hr]
        show 2 * (_ - (o.buffers.totalConsumed + n)) + 1 = 1
        rw [hall, Nat.sub_self]
      rw [credit_single hops hq, hbefore]
      omega
  | failed o n t' hops hr hon =>
      obtain ⟨queue, hq⟩ := h.front hready hops
      have hrest := credit_onWrite (t := t.finished o true o.buffers.totalConsumed)
        (by show t.ops.eraseIdx 0 = []; rw [hops]; rfl) hq hon
      have hbefore : o.credit = 1 := by
        unfold Op.credit
        rw [hr]
      rw [credit_single hops hq, hbefore]
      omega

theorem sum_weight_le (queue : List (List UInt8)) :
    (queue.map weight).sum ≤ 2 * queue.flatten.length + queue.length := by
  induction queue with
  | nil => exact Nat.zero_le _
  | cons v queue ih =>
      rw [List.map_cons, List.sum_cons, List.flatten_cons, List.length_append, List.length_cons]
      unfold weight at ih ⊢
      omega

theorem credit_le {c : Writer.Config} (h : Represents t c) (hready : Writer.Ready c) :
    t.credit ≤ 2 * t.state.writeQueue.flatten.length + t.state.writeQueue.length := by
  rcases h.ops_cases hready with ⟨hnone, -⟩ | ⟨o, queue, hops, -, hqueue⟩
  · unfold Config.credit
    rw [if_pos hnone]
    exact Nat.zero_le _
  · have hle : o.credit ≤ weight o.buffers.buffer := by
      have hf := h.fits o (hops ▸ List.mem_cons_self)
      unfold Op.credit weight
      cases hr : o.result with
      | none =>
          show 2 * (_ - _) ≤ max (2 * _) 1
          omega
      | some r =>
          obtain ⟨ec, n⟩ := r
          cases ec with
          | true => exact Nat.le_max_right _ _
          | false =>
              -- something was accepted, unless the buffer is empty
              have hsome : n = 0 → o.buffers.buffer.length = 0 := by
                intro hzero
                rw [hf.chunk_nil_iff.mp ((hf.success n hr).2 hzero)]
                rfl
              have hsent : o.sent = o.buffers.totalConsumed + n := by
                unfold Op.sent
                rw [hr]
                rfl
              show 2 * (_ - o.sent) + 1 ≤ max (2 * _) 1
              rw [hsent]
              omega
    have hrest := sum_weight_le (o.buffers.buffer :: queue)
    rw [credit_single hops hqueue, hqueue]
    refine Nat.le_trans ?_ hrest
    rw [List.map_cons, List.sum_cons]
    omega

end Credit

/-! ## §2. Completion. -/

/-- While a write is in flight something can happen to it, also if the socket takes
no bytes or is closed. -/
theorem exists_completion {t : Config} {c : Writer.Config} (h : Represents t c)
    (hready : Writer.Ready c) (hops : t.ops ≠ []) :
    ∃ a t', a.completes = true ∧ (∀ op n, a ≠ .send op n) ∧ step t a = some t' := by
  rcases h.ops_cases hready with ⟨hnone, -⟩ | ⟨o, queue, hone, -, -⟩
  · exact absurd hnone hops
  · have hat : t.ops[0]? = some o := by
      rw [hone]
      rfl
    cases hr : o.result with
    | none =>
        obtain ⟨t', ht⟩ := step_defined (a := .abort 0) h hready (by
          unfold enabled
          simp only [hat, Option.any_some, hr]
          rfl)
        exact ⟨.abort 0, t', rfl, fun op n ha => (nomatch ha), ht⟩
    | some r =>
        obtain ⟨t', ht⟩ := step_defined (a := .resume 0) h hready (by
          unfold enabled
          simp only [hat, Option.any_some, hr]
          rfl)
        exact ⟨.resume 0, t', rfl, fun op n ha => (nomatch ha), ht⟩

/-- Without a write in flight, and without an error, everything has been sent. -/
theorem Represents.flushed {t : Config} {c : Writer.Config} (h : Represents t c)
    {bs : List Writer.Action} (hfifo : Writer.Fifo bs c) (hready : Writer.Ready c)
    (hops : t.ops = []) :
    t.state.writeQueue = [] ∧ t.socketBytes = (Writer.enqueuedOf bs).flatten := by
  have hidle : c.state.writing = false := by
    rw [h.state]
    rcases h.ops_cases hready with ⟨-, hwriting⟩ | ⟨o, queue, hone, -, -⟩
    · exact hwriting
    · exact nomatch hops.symm.trans hone
  have hempty := hfifo.idle hidle
  have horder := hfifo.order
  rw [hempty, List.append_nil] at horder
  refine ⟨h.state ▸ hempty, ?_⟩
  rw [h.socket, hops, hfifo.sent, horder]
  exact List.append_nil _

theorem flushed_idle {ls : List Label} {t : Config} (h : system.run ls = some t)
    (hops : t.ops = []) (hgood : NoErrors t) :
    t.state.writeQueue = [] ∧ t.socketBytes = (enqueuedOf ls).flatten := by
  obtain ⟨bs, c, hrun, hsim, -⟩ := exists_writer h
  rw [← hsim.enqueued]
  exact hsim.represents.flushed (Writer.fifo_run hrun (hsim.errors.mp hgood))
    (Writer.ready_run hrun) hops

/-- A session that stands for a ready one. -/
def Sound (t : Config) : Prop := ∃ c, Represents t c ∧ Writer.Ready c

theorem sound_step {t t' : Config} {l : Label} (h : Sound t) (hstep : system.step t l = some t') :
    Sound t' := by
  obtain ⟨c, hrep, hready⟩ := h
  obtain ⟨ds, c', hmatch⟩ := took_matches hrep (step_took hrep hready hstep)
  exact ⟨c', hmatch.represents, System.runFrom_invariant (P := Writer.Ready)
    (fun _ _ _ hr hs => Writer.ready_took (Writer.step_took hr hs)) hready hmatch.run⟩

theorem sound_run {ls : List Label} {t : Config} (h : system.run ls = some t) : Sound t :=
  System.invariant (P := Sound) ⟨_, represents_init, Writer.Ready.idle rfl rfl⟩
    (fun _ _ _ hsound hstep => sound_step hsound hstep) h

/-- Unless it is an `enqueue`, what happens adds nothing to the credit, and a
completion uses up some. -/
theorem credit_step (t : Config) (l : Label) (t' : Config) (h : Sound t)
    (hl : ∀ data, l ≠ .action (.enqueue data)) (hstep : system.step t l = some t') :
    Sound t' ∧ t'.credit + (if l.completes = true then 1 else 0) ≤ t.credit := by
  refine ⟨sound_step h hstep, ?_⟩
  obtain ⟨c, hrep, hready⟩ := h
  cases l with
  | action a =>
      have ha : a.completes = true := by
        cases a with
        | enqueue data => exact absurd rfl (hl data)
        | send op n | abort op | resume op => rfl
      have hlt := credit_took hrep hready ha (step_took hrep hready hstep)
      have hcompletes : (Label.action a).completes = true := ha
      rw [if_pos hcompletes]
      exact hlt
  | close =>
      -- closing the socket changes none of the writes
      obtain rfl : close t = t' := Option.some.inj hstep
      exact Nat.le_refl _

/-- **Writes terminate.**  From every reachable state: a run that enqueues nothing
completes at most two steps for each byte queued and one for each vector, also if
the socket is closed meanwhile; it can go on as long as a write is in flight, for
which the socket need not take a byte; and when none is and none has failed, the
queue is empty and the socket carries everything that was enqueued. -/
theorem transfer_terminates (ls : List Label) (t : Config) (h : system.run ls = some t) :
    (∀ ms t', enqueuedOf ms = [] → system.runFrom t ms = some t' →
        ms.countP Label.completes
          ≤ 2 * t.state.writeQueue.flatten.length + t.state.writeQueue.length)
      ∧ (t.ops ≠ [] →
          ∃ a t', a.completes = true ∧ (∀ op n, a ≠ .send op n) ∧ step t a = some t')
      ∧ (t.ops = [] → NoErrors t →
          t.state.writeQueue = [] ∧ t.socketBytes = (enqueuedOf ls).flatten) := by
  obtain ⟨c, hrep, hready⟩ := sound_run h
  refine ⟨?_, exists_completion hrep hready, flushed_idle h⟩
  intro ms t' hms hrest
  have hnone : ∀ l ∈ ms, ∀ data, l ≠ .action (.enqueue data) := by
    rintro l hl data rfl
    have hmem : data ∈ enqueuedOf ms := List.mem_filterMap.mpr ⟨_, hl, rfl⟩
    rw [hms] at hmem
    exact nomatch hmem
  obtain ⟨-, hused⟩ := System.runFrom_countP credit_step ⟨c, hrep, hready⟩ hnone hrest
  have hle := credit_le hrep hready
  omega

/-- Four bytes of the packet are left when the socket is closed. -/
theorem transfer_terminates_twoParts :
    [Label.close, .action (.abort 0), .action (.resume 0)].countP Label.completes
      ≤ 2 * 7 + 1 :=
  (transfer_terminates twoParts afterTwoParts run_twoParts).1
    [.close, .action (.abort 0), .action (.resume 0)]
    { ended := [⟨[1, 0, 0, 0, 0, 0, 0], true, 3⟩], socketBytes := [1, 0, 0], isOpen := false }
    rfl (by decide)

end Bancho.AsyncWrite
