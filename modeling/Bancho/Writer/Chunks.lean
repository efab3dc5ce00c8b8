/-
  Bancho.Writer.Chunks
  ────────────────────
  A session writing by chunks, seen by buffers: what is known of a write in flight
  (`Fits`), which session by buffers a session by chunks stands for
  (`Represents`), and what can happen to one that stands for a ready session, one
  case each (`Took`), none of it undefined (`act_took`).
-/
import Bancho.Server.AsyncWrite
import Bancho.Writer.Protocol

namespace Bancho.AsyncWrite

open Session Transition

/-! ## §1. A write in flight. -/

/-- How many bytes of its buffer are on the socket. -/
def Op.sent (o : Op) : Nat := o.buffers.totalConsumed + o.result.elim 0 Prod.snd

/-- The chunk is the next one of the buffer, which is not used up.  If it waits, or
is accepted in part, there is something in it; refused without anything in it was
only a chunk for a closed socket. -/
structure Fits (isOpen : Bool) (o : Op) : Prop where
  chunk : o.chunk = o.buffers.prepare defaultMaxTransferSize
  inside : o.buffers.totalConsumed < o.buffers.buffer.length ∨ o.buffers = ⟨[], 0⟩
  waiting : o.result = none → o.chunk ≠ []
  success : ∀ n, o.result = some (false, n) → n ≤ o.chunk.length ∧ (n = 0 → o.chunk = [])
  failure : ∀ n, o.result = some (true, n) → n = 0 ∧ (o.chunk = [] → isOpen = false)

/-- A write when the next chunk of `buffers` is started. -/
def Op.start (isOpen : Bool) (buffers : ConsumingBuffer) : Op :=
  let chunk := buffers.prepare defaultMaxTransferSize
  ⟨buffers, chunk, asyncWriteSome isOpen chunk⟩

/-- What is known of a chunk when it is started. -/
theorem asyncWriteSome_cases (isOpen : Bool) (chunk : List UInt8) :
    (isOpen = false ∧ asyncWriteSome isOpen chunk = some (true, 0))
      ∨ (chunk = [] ∧ asyncWriteSome isOpen chunk = some (false, 0))
      ∨ (chunk ≠ [] ∧ asyncWriteSome isOpen chunk = none) := by
  cases isOpen with
  | false => exact Or.inl ⟨rfl, rfl⟩
  | true =>
      cases chunk with
      | nil => exact Or.inr (Or.inl ⟨rfl, rfl⟩)
      | cons b bs => exact Or.inr (Or.inr ⟨List.cons_ne_nil b bs, rfl⟩)

theorem fits_start (isOpen : Bool) {buffers : ConsumingBuffer}
    (hinside : buffers.totalConsumed < buffers.buffer.length ∨ buffers = ⟨[], 0⟩) :
    Fits isOpen (Op.start isOpen buffers) := by
  have hresult : (Op.start isOpen buffers).result
      = asyncWriteSome isOpen (Op.start isOpen buffers).chunk := rfl
  rcases asyncWriteSome_cases isOpen (Op.start isOpen buffers).chunk with
    ⟨hclosed, hr⟩ | ⟨hnil, hr⟩ | ⟨hne, hr⟩
  · refine ⟨rfl, hinside, fun hn => ?_, fun n hn => ?_, fun n hn => ?_⟩
    · exact nomatch hn.symm.trans (hresult.trans hr)
    · exact nomatch hn.symm.trans (hresult.trans hr)
    · obtain ⟨-, rfl⟩ := Prod.mk.inj (Option.some.inj (hn.symm.trans (hresult.trans hr)))
      exact ⟨rfl, fun _ => hclosed⟩
  · refine ⟨rfl, hinside, fun hn => ?_, fun n hn => ?_, fun n hn => ?_⟩
    · exact nomatch hn.symm.trans (hresult.trans hr)
    · obtain ⟨-, rfl⟩ := Prod.mk.inj (Option.some.inj (hn.symm.trans (hresult.trans hr)))
      exact ⟨Nat.zero_le _, fun _ => hnil⟩
    · exact nomatch hn.symm.trans (hresult.trans hr)
  · refine ⟨rfl, hinside, fun _ => hne, fun n hn => ?_, fun n hn => ?_⟩
    · exact nomatch hn.symm.trans (hresult.trans hr)
    · exact nomatch hn.symm.trans (hresult.trans hr)

/-- A chunk that is started has sent nothing yet. -/
theorem sent_start (isOpen : Bool) (buffers : ConsumingBuffer) :
    (Op.start isOpen buffers).sent = buffers.totalConsumed := by
  unfold Op.sent
  show buffers.totalConsumed + (asyncWriteSome isOpen _).elim 0 Prod.snd = _
  rcases asyncWriteSome_cases isOpen (Op.start isOpen buffers).chunk with
    ⟨-, hr⟩ | ⟨-, hr⟩ | ⟨-, hr⟩
  all_goals
    have hr : asyncWriteSome isOpen (buffers.prepare defaultMaxTransferSize) = _ := hr
    rw [hr]
    rfl

/-- What the handler of a write was told: no error, and then all of its buffer is
sent; or an error, and then bytes are missing, unless the buffer was empty and the
socket closed. -/
structure Accurate (isOpen : Bool) (w : Ended) : Prop where
  le : w.bytesTransferred ≤ w.buffer.length
  good : w.ec = false → w.bytesTransferred = w.buffer.length
  bad : w.ec = true → w.bytesTransferred = w.buffer.length → w.buffer = [] ∧ isOpen = false

section Fits

variable {isOpen : Bool} {o : Op} {n : Nat}

/-- Closing the socket takes nothing back. -/
theorem Fits.closed (h : Fits isOpen o) : Fits false o :=
  ⟨h.chunk, h.inside, h.waiting, h.success, fun n hn => ⟨(h.failure n hn).1, fun _ => rfl⟩⟩

theorem Accurate.closed {w : Ended} (h : Accurate isOpen w) : Accurate false w :=
  ⟨h.le, h.good, fun hec hall => ⟨(h.bad hec hall).1, rfl⟩⟩

theorem Fits.length_chunk (h : Fits isOpen o) :
    o.chunk.length
      = min defaultMaxTransferSize (o.buffers.buffer.length - o.buffers.totalConsumed) := by
  rw [h.chunk]
  unfold ConsumingBuffer.prepare
  rw [List.length_take, List.length_drop]

/-- Only an empty buffer has an empty chunk. -/
theorem Fits.chunk_nil_iff (h : Fits isOpen o) : o.chunk = [] ↔ o.buffers.buffer = [] := by
  have hlen := h.length_chunk
  rw [← List.length_eq_zero_iff, ← List.length_eq_zero_iff, hlen]
  have hpos : 0 < defaultMaxTransferSize := by decide
  rcases h.inside with hlt | hempty
  · omega
  · rw [hempty]
    simp

theorem Fits.consumed_le (h : Fits isOpen o) :
    o.buffers.totalConsumed ≤ o.buffers.buffer.length := by
  rcases h.inside with hlt | hempty
  · exact Nat.le_of_lt hlt
  · rw [hempty]
    exact Nat.le_refl _

/-- What was accepted is inside the buffer. -/
theorem Fits.sent_le (h : Fits isOpen o) : o.sent ≤ o.buffers.buffer.length := by
  have hin := h.consumed_le
  unfold Op.sent
  cases hr : o.result with
  | none => exact hin
  | some r =>
      obtain ⟨ec, n⟩ := r
      show o.buffers.totalConsumed + n ≤ _
      cases ec with
      | true =>
          obtain ⟨rfl, -⟩ := h.failure n hr
          exact hin
      | false =>
          have hle := (h.success n hr).1
          rw [h.length_chunk] at hle
          omega

/-- **A refused chunk ends the write**, with an error that is accurate. -/
theorem resume_failed (h : Fits isOpen o) (hr : o.result = some (true, n)) :
    writeOp o.buffers true n false
        = (o.buffers, .handler true o.buffers.totalConsumed)
      ∧ Accurate isOpen ⟨o.buffers.buffer, true, o.buffers.totalConsumed⟩
      ∧ o.sent = o.buffers.totalConsumed := by
  obtain ⟨rfl, hclosed⟩ := h.failure n hr
  refine ⟨?_, ⟨h.consumed_le, fun hec => (nomatch hec), fun _ hall => ?_⟩, ?_⟩
  · -- whether the buffer is used up or not, `write_op` does not go on
    unfold writeOp
    simp only [Bool.false_eq_true, if_false, Bool.not_true, Bool.false_and, Bool.false_or]
    split <;> rfl
  · have hall : o.buffers.totalConsumed = o.buffers.buffer.length := hall
    have hnil : o.buffers.buffer = [] := by
      rcases h.inside with hlt | hempty
      · exact absurd hall (Nat.ne_of_lt hlt)
      · rw [hempty]
    exact ⟨hnil, hclosed (h.chunk_nil_iff.mpr hnil)⟩
  · unfold Op.sent
    rw [hr]
    rfl

/-- **The last chunk ends the write**, with all of its buffer sent. -/
theorem resume_done (hr : o.result = some (false, n))
    (hall : o.buffers.totalConsumed + n = o.buffers.buffer.length) :
    writeOp o.buffers false n false
        = (o.buffers.consume n, .handler false o.buffers.buffer.length)
      ∧ o.sent = o.buffers.buffer.length := by
  have hempty : (o.buffers.consume n).empty = true := by
    show decide (o.buffers.totalConsumed + n ≥ o.buffers.buffer.length) = true
    exact decide_eq_true (Nat.le_of_eq hall.symm)
  constructor
  · unfold writeOp
    simp only [Bool.false_eq_true, if_false, hempty, Bool.or_true, if_true]
    rw [← hall]
    rfl
  · unfold Op.sent
    rw [hr]
    exact hall

/-- **Any other chunk is followed by the next one.** -/
theorem resume_more (h : Fits isOpen o) (hr : o.result = some (false, n))
    (hmore : o.buffers.totalConsumed + n < o.buffers.buffer.length) :
    writeOp o.buffers false n false
        = (o.buffers.consume n,
            .writeSome ((o.buffers.consume n).prepare defaultMaxTransferSize))
      ∧ 0 < n := by
  have hpos : 0 < n := by
    rcases Nat.eq_zero_or_pos n with rfl | hpos
    · -- a chunk of which nothing was sent is empty, and then so is the buffer
      have hnil := h.chunk_nil_iff.mp ((h.success 0 hr).2 rfl)
      rw [hnil] at hmore
      exact absurd hmore (Nat.not_lt_zero _)
    · exact hpos
  have hempty : (o.buffers.consume n).empty = false := by
    show decide (o.buffers.totalConsumed + n ≥ o.buffers.buffer.length) = false
    exact decide_eq_false (Nat.not_le_of_lt hmore)
  have hzero : (n == 0) = false := beq_eq_false_iff_ne.mpr (Nat.ne_of_gt hpos)
  refine ⟨?_, hpos⟩
  unfold writeOp
  simp only [Bool.false_eq_true, if_false, hempty, hzero, Bool.and_false, Bool.or_self]
  rfl

end Fits

/-! ## §2. The session by buffers. -/

/-- What a write that has ended put on the socket. -/
def Ended.sent (w : Ended) : List UInt8 := w.buffer.take w.bytesTransferred

/-- What it did not. -/
def Ended.unsent (w : Ended) : List UInt8 := w.buffer.drop w.bytesTransferred

/-- `c` is the session `t` by buffers: a write in flight has sent nothing in `c`,
and a part of its buffer in `t`. -/
structure Represents (t : Config) (c : Writer.Config) : Prop where
  state : c.state = t.state
  ops : c.outstanding = t.ops.map fun o => o.buffers.buffer
  socket : t.socketBytes
    = c.socketBytes ++ (t.ops.map fun o => o.buffers.buffer.take o.sent).flatten
  sent : c.socketBytes = (t.ended.map Ended.sent).flatten
  unsent : c.unsent = (t.ended.map Ended.unsent).flatten
  fits : ∀ o ∈ t.ops, Fits t.isOpen o
  accurate : ∀ w ∈ t.ended, Accurate t.isOpen w

section Represents

variable {t t' : Config} {c : Writer.Config}

theorem Represents.withState (h : Represents t c) {s s' : State} (hs : s' = s) :
    Represents { t with state := s } { c with state := s' } :=
  ⟨hs, h.ops, h.socket, h.sent, h.unsent, h.fits, h.accurate⟩

/-- The same session when its socket is closed. -/
theorem Represents.closed (h : Represents t c) : Represents (close t) c :=
  ⟨h.state, h.ops, h.socket, h.sent, h.unsent, fun o ho => (h.fits o ho).closed,
    fun w hw => (h.accurate w hw).closed⟩

/-- One more write. -/
theorem Represents.started (h : Represents t c) (buffer : List UInt8) :
    Represents (asyncWrite t buffer) { c with outstanding := c.outstanding ++ [buffer] } := by
  have hstart : (asyncWrite t buffer).ops
      = t.ops ++ [Op.start t.isOpen { buffer := buffer }] := rfl
  refine ⟨h.state, ?_, ?_, h.sent, h.unsent, ?_, h.accurate⟩
  · rw [hstart, List.map_append, ← h.ops]
    rfl
  · -- it has sent nothing yet
    rw [hstart, List.map_append, List.flatten_append, ← List.append_assoc, ← h.socket]
    show t.socketBytes = t.socketBytes ++ (buffer.take (Op.start _ _).sent ++ [])
    rw [sent_start]
    exact (List.append_nil _).symm
  · rw [hstart]
    intro o ho
    rcases List.mem_append.mp ho with hold | hnew
    · exact h.fits o hold
    · obtain rfl := List.mem_singleton.mp hnew
      refine fits_start t.isOpen ?_
      cases buffer with
      | nil => exact Or.inr rfl
      | cons b bs => exact Or.inl (Nat.succ_pos _)

/-- The functions of the header do the same by chunks and by buffers. -/
theorem corresponds : Writer.Corresponds Represents where
  queue h := congrArg State.writeQueue h.state
  writing h := congrArg State.writing h.state
  withQueue h queue :=
    h.withState (congrArg (fun s : State => { s with writeQueue := queue }) h.state)
  withWriting h writing :=
    h.withState (congrArg (fun s : State => { s with writing := writing }) h.state)
  asyncWrite h buffer := h.started buffer

theorem onWrite_represents (h : Represents t c) {ec : Bool} (hon : Writer.onWrite t ec = some t') :
    ∃ c', Writer.onWrite c ec = some c' ∧ Represents t' c' :=
  Writer.rel_exists_right (corresponds.onWrite h ec) hon

theorem enqueue_represents (h : Represents t c) {data : List UInt8}
    (henq : Writer.enqueue t data = some t') :
    ∃ c', Writer.enqueue c data = some c' ∧ Represents t' c' :=
  Writer.rel_exists_right (corresponds.enqueue h data) henq

/-- A write ends, with the first `n` bytes of its buffer sent. -/
theorem Represents.finished (h : Represents t c) {o : Op} (hops : t.ops = [o]) {ec : Bool} {n : Nat}
    (hsent : o.sent = n) (haccurate : Accurate t.isOpen ⟨o.buffers.buffer, ec, n⟩)
    (completed : List (List UInt8)) :
    Represents
      { t with ops := t.ops.eraseIdx 0, ended := t.ended ++ [⟨o.buffers.buffer, ec, n⟩] }
      { c with
        outstanding := c.outstanding.eraseIdx 0
        socketBytes := c.socketBytes ++ o.buffers.buffer.take n
        unsent := c.unsent ++ o.buffers.buffer.drop n, completed := completed } := by
  refine ⟨h.state, ?_, ?_, ?_, ?_, ?_, ?_⟩
  · show c.outstanding.eraseIdx 0 = (t.ops.eraseIdx 0).map _
    rw [h.ops, hops]
    rfl
  · show t.socketBytes = _ ++ ((t.ops.eraseIdx 0).map _).flatten
    rw [h.socket, hops, ← hsent]
    simp
  · show c.socketBytes ++ _ = ((t.ended ++ [_]).map Ended.sent).flatten
    rw [h.sent, List.map_append, List.flatten_append]
    simp [Ended.sent]
  · show c.unsent ++ _ = ((t.ended ++ [_]).map Ended.unsent).flatten
    rw [h.unsent, List.map_append, List.flatten_append]
    simp [Ended.unsent]
  · show ∀ o' ∈ t.ops.eraseIdx 0, Fits t.isOpen o'
    rw [hops]
    exact fun o' ho => (nomatch ho)
  · show ∀ w ∈ t.ended ++ [_], Accurate t.isOpen w
    intro w hw
    rcases List.mem_append.mp hw with hold | hnew
    · exact h.accurate w hold
    · obtain rfl := List.mem_singleton.mp hnew
      exact haccurate

end Represents

/-! ## §3. What the functions of the header leave alone. -/

/-- The functions change the queue, the flag and the writes in flight, and nothing
else. -/
structure Frame (t t' : Config) : Prop where
  ended : t'.ended = t.ended
  socketBytes : t'.socketBytes = t.socketBytes
  isOpen : t'.isOpen = t.isOpen
  packetStream : t'.state.packetStream = t.state.packetStream
  legacyHeader : t'.state.legacyHeader = t.state.legacyHeader

theorem keeps_frame (t : Config) : Writer.Keeps (Frame t) where
  withQueue h _ := ⟨h.ended, h.socketBytes, h.isOpen, h.packetStream, h.legacyHeader⟩
  withWriting h _ := ⟨h.ended, h.socketBytes, h.isOpen, h.packetStream, h.legacyHeader⟩
  asyncWrite h _ := ⟨h.ended, h.socketBytes, h.isOpen, h.packetStream, h.legacyHeader⟩

section Frame

variable {t t' : Config}

theorem onWrite_frame {ec : Bool} (hon : Writer.onWrite t ec = some t') : Frame t t' :=
  (keeps_frame t).onWrite ⟨rfl, rfl, rfl, rfl, rfl⟩ hon

theorem enqueue_frame {data : List UInt8} (henq : Writer.enqueue t data = some t') : Frame t t' :=
  (keeps_frame t).enqueue ⟨rfl, rfl, rfl, rfl, rfl⟩ henq

end Frame

/-! ## §4. Steps. -/

/-- What came of the chunk of the one write in flight. -/
def Config.answered (t : Config) (o : Op) (ec : Bool) (n : Nat) : Config :=
  { t with
    ops := [{ o with result := some (ec, n) }], socketBytes := t.socketBytes ++ o.chunk.take n }

/-- The one write in flight goes on with the chunk after the `n` bytes sent. -/
def Config.resumed (t : Config) (o : Op) (n : Nat) : Config :=
  { t with ops := [Op.start t.isOpen (o.buffers.consume n)] }

/-- The one write in flight has ended. -/
def Config.finished (t : Config) (o : Op) (ec : Bool) (n : Nat) : Config :=
  { t with ops := t.ops.eraseIdx 0, ended := t.ended ++ [⟨o.buffers.buffer, ec, n⟩] }

/-- `Took t l t'`: `l` took the session from `t` to `t'`. -/
inductive Took (t : Config) : Label → Config → Prop
  | enqueue (data : List UInt8) (t' : Config) (hact : Writer.enqueue t data = some t') :
      Took t (.action (.enqueue data)) t'
  /-- The socket takes a part of the chunk. -/
  | send (o : Op) (n : Nat) (hops : t.ops = [o]) (hwait : o.result = none)
      (hopen : t.isOpen = true) (hpos : 0 < n) (hle : n ≤ o.chunk.length) :
      Took t (.action (.send 0 n)) (t.answered o false n)
  /-- It takes none. -/
  | abort (o : Op) (hops : t.ops = [o]) (hwait : o.result = none) :
      Took t (.action (.abort 0)) (t.answered o true 0)
  /-- There is more of the buffer to send. -/
  | more (o : Op) (n : Nat) (hops : t.ops = [o]) (hr : o.result = some (false, n))
      (hmore : o.buffers.totalConsumed + n < o.buffers.buffer.length) :
      Took t (.action (.resume 0)) (t.resumed o n)
  /-- All of it is sent. -/
  | done (o : Op) (n : Nat) (t' : Config) (hops : t.ops = [o]) (hr : o.result = some (false, n))
      (hall : o.buffers.totalConsumed + n = o.buffers.buffer.length)
      (hon : Writer.onWrite (t.finished o false o.buffers.buffer.length) false = some t') :
      Took t (.action (.resume 0)) t'
  /-- The chunk was refused. -/
  | failed (o : Op) (n : Nat) (t' : Config) (hops : t.ops = [o]) (hr : o.result = some (true, n))
      (hon : Writer.onWrite (t.finished o true o.buffers.totalConsumed) true = some t') :
      Took t (.action (.resume 0)) t'
  | close : Took t .close (AsyncWrite.close t)

section Steps

variable {t t' : Config} {c : Writer.Config} {a : Action}

/-- There is one write in flight at most, as there is by buffers. -/
theorem Represents.ops_cases (h : Represents t c) (hready : Writer.Ready c) :
    (t.ops = [] ∧ t.state.writing = false)
      ∨ ∃ o queue, t.ops = [o] ∧ t.state.writing = true
          ∧ t.state.writeQueue = o.buffers.buffer :: queue := by
  have hops := h.ops
  have hstate := h.state
  cases hready with
  | idle hwriting hidle =>
      rw [hidle] at hops
      rw [hstate] at hwriting
      exact Or.inl ⟨List.map_eq_nil_iff.mp hops.symm, hwriting⟩
  | busy front queue hwriting hbusy hqueue =>
      rw [hbusy] at hops
      rw [hstate] at hwriting hqueue
      obtain ⟨o, hone, hbuffer⟩ := List.map_eq_singleton_iff.mp hops.symm
      exact Or.inr ⟨o, queue, hone, hwriting, by rw [hbuffer]; exact hqueue⟩

/-- The write in flight is of the front of the queue. -/
theorem Represents.front (h : Represents t c) (hready : Writer.Ready c) {o : Op}
    (hops : t.ops = [o]) : ∃ queue, t.state.writeQueue = o.buffers.buffer :: queue := by
  rcases h.ops_cases hready with ⟨hnone, -⟩ | ⟨o', queue, hops', -, hqueue⟩
  · exact nomatch hnone.symm.trans hops
  · obtain rfl : o' = o := List.head_eq_of_cons_eq (hops'.symm.trans hops)
    exact ⟨queue, hqueue⟩

/-- An action on a write is on the one there is. -/
theorem Represents.exists_op (h : Represents t c) (hready : Writer.Ready c) {op : Nat}
    {p : Op → Bool} (hp : t.ops[op]?.any p = true) :
    op = 0 ∧ ∃ o, t.ops = [o] ∧ p o = true ∧ Fits t.isOpen o := by
  rcases h.ops_cases hready with ⟨hnone, -⟩ | ⟨o, queue, hops, -, -⟩
  · rw [hnone] at hp
    exact nomatch hp
  · rw [hops, List.getElem?_singleton] at hp
    split at hp
    next hzero =>
      exact ⟨hzero, o, hops, hp, h.fits o (hops ▸ List.mem_cons_self)⟩
    next => exact nomatch hp

/-- **What an action can do is one of the six**, and it is defined. -/
theorem act_took (h : Represents t c) (hready : Writer.Ready c) (henabled : enabled t a = true) :
    ∃ t', act t a = some t' ∧ Took t (.action a) t' := by
  cases a with
  | enqueue data =>
      obtain ⟨t', hact⟩ := Writer.enqueue_defined t data
      exact ⟨t', hact, Took.enqueue data t' hact⟩
  | send op n =>
      obtain ⟨hopen, hop⟩ := Bool.and_eq_true_iff.mp henabled
      obtain ⟨rfl, o, hops, hp, -⟩ := h.exists_op hready hop
      simp only [Bool.and_eq_true, beq_iff_eq, decide_eq_true_eq] at hp
      obtain ⟨⟨hwait, hpos⟩, hle⟩ := hp
      refine ⟨_, ?_, Took.send o n hops hwait hopen hpos hle⟩
      unfold act
      rw [hops]
      rfl
  | abort op =>
      obtain ⟨rfl, o, hops, hp, -⟩ := h.exists_op hready henabled
      refine ⟨_, ?_, Took.abort o hops (beq_iff_eq.mp hp)⟩
      unfold act
      rw [hops]
      show some _ = some (t.answered o true 0)
      unfold Config.answered
      rw [List.take_zero, List.append_nil]
      rfl
  | resume op =>
      obtain ⟨rfl, o, hops, hp, hfits⟩ := h.exists_op hready henabled
      obtain ⟨queue, hfront⟩ := h.front hready hops
      have hat : t.ops[0]? = some o := by
        rw [hops]
        rfl
      cases hr : o.result with
      | none =>
          rw [hr] at hp
          exact nomatch hp
      | some r =>
          obtain ⟨ec, n⟩ := r
          cases ec with
          | true =>
              obtain ⟨hcall, -, -⟩ := resume_failed hfits hr
              obtain ⟨t', hon⟩ := Writer.onWrite_defined
                (c := t.finished o true o.buffers.totalConsumed) hfront true
              refine ⟨t', ?_, Took.failed o n t' hops hr hon⟩
              unfold act
              simp only [hat, hr, Option.bind_some, hcall]
              exact hon
          | false =>
              have hle : o.sent ≤ o.buffers.buffer.length := hfits.sent_le
              have hsent : o.sent = o.buffers.totalConsumed + n := by
                unfold Op.sent
                rw [hr]
                rfl
              rcases Nat.eq_or_lt_of_le (hsent ▸ hle) with hall | hmore
              · obtain ⟨hcall, -⟩ := resume_done hr hall
                obtain ⟨t', hon⟩ := Writer.onWrite_defined
                  (c := t.finished o false o.buffers.buffer.length) hfront false
                refine ⟨t', ?_, Took.done o n t' hops hr hall hon⟩
                unfold act
                simp only [hat, hr, Option.bind_some, hcall]
                exact hon
              · obtain ⟨hcall, -⟩ := resume_more hfits hr hmore
                refine ⟨_, ?_, Took.more o n hops hr hmore⟩
                unfold act
                simp only [hat, hr, Option.bind_some, hcall]
                rw [hops]
                rfl

theorem step_defined (h : Represents t c) (hready : Writer.Ready c) (henabled : enabled t a = true) :
    ∃ t', step t a = some t' := by
  obtain ⟨t', hact, -⟩ := act_took h hready henabled
  refine ⟨t', ?_⟩
  unfold step
  rw [if_pos henabled, hact]

theorem step_took {l : Label} (h : Represents t c) (hready : Writer.Ready c)
    (hstep : system.step t l = some t') : Took t l t' := by
  cases l with
  | action a =>
      have hstep : (if enabled t a then act t a else none) = some t' := hstep
      split at hstep
      next henabled =>
        obtain ⟨t'', hact, htook⟩ := act_took h hready henabled
        obtain rfl := Option.some.inj (hact.symm.trans hstep)
        exact htook
      next => exact nomatch hstep
  | close =>
      obtain rfl : close t = t' := Option.some.inj hstep
      exact Took.close

end Steps

end Bancho.AsyncWrite
