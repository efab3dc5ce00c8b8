/-
  Bancho.Writer.Protocol
  ──────────────────────
  The write queue of a session.  In every reachable state the session is idle, or
  one write is in flight and its buffer is the front of the queue (`Ready`).  On
  such states `Took` says what each action does, one case each, and that none of
  them is undefined (`act_took`).

  Main results:
    * `write_protocol`       — one write at most, the flag `writing`, the front,
      and first in first out while no write fails;
    * `socketBytes_in_order`   — what is on the socket is a prefix of what was
      enqueued, as long as nothing is enqueued after a write that failed short;
    * `socketBytes_mixed`    — an `enqueue` after such a failure sends bytes of
      another packet.
-/
import Bancho.Writer.Header

namespace Bancho.Writer

open Session Transition

/-! ## §1. States and steps. -/

/-- No write in flight and the flag clear, or one write, of the front of the
queue, and the flag set. -/
inductive Ready (c : Config) : Prop
  | idle (hwriting : c.state.writing = false) (hops : c.outstanding = [])
  | busy (front : List UInt8) (queue : List (List UInt8)) (hwriting : c.state.writing = true)
      (hops : c.outstanding = [front]) (hqueue : c.state.writeQueue = front :: queue)

namespace Config

variable (c : Config)

/-- One more vector at the back of the queue. -/
def pushed (data : List UInt8) : Config :=
  { c with state := { c.state with writeQueue := c.state.writeQueue ++ [data] } }

/-- A write of `front` is in flight, alone. -/
def sending (front : List UInt8) : Config :=
  { c with state := { c.state with writing := true }, outstanding := [front] }

/-- The queue is `queue`, and no write is in flight. -/
def stopped (queue : List (List UInt8)) : Config :=
  { c with
    state := { c.state with writeQueue := queue, writing := false }, outstanding := [] }

/-- A write has put all of `buffer` on the socket. -/
def wrote (buffer : List UInt8) : Config :=
  { c with socketBytes := c.socketBytes ++ buffer, completed := c.completed ++ [buffer] }

/-- A write has put the first `sent` bytes of `buffer` on the socket, and no more. -/
def broke (buffer : List UInt8) (sent : Nat) : Config :=
  { c with
    socketBytes := c.socketBytes ++ buffer.take sent, unsent := c.unsent ++ buffer.drop sent }

end Config

/-- `Took c a c'`: the action `a` took the session from `c` to `c'`. -/
inductive Took (c : Config) : Action → Config → Prop
  /-- `enqueue` on an idle session starts the front: a stale one, if there is one. -/
  | start (data front : List UInt8) (queue : List (List UInt8))
      (hwriting : c.state.writing = false) (hops : c.outstanding = [])
      (hqueue : c.state.writeQueue ++ [data] = front :: queue) :
      Took c (.enqueue data) ((c.pushed data).sending front)
  | push (data front : List UInt8) (queue : List (List UInt8)) (hwriting : c.state.writing = true)
      (hops : c.outstanding = [front]) (hqueue : c.state.writeQueue = front :: queue) :
      Took c (.enqueue data) (c.pushed data)
  /-- The last vector of the queue was written. -/
  | last (front : List UInt8) (hwriting : c.state.writing = true) (hops : c.outstanding = [front])
      (hqueue : c.state.writeQueue = [front]) :
      Took c (.complete 0) ((c.wrote front).stopped [])
  /-- A vector was written, and the next one is started. -/
  | next (front front' : List UInt8) (queue : List (List UInt8))
      (hwriting : c.state.writing = true) (hops : c.outstanding = [front])
      (hqueue : c.state.writeQueue = front :: front' :: queue) :
      Took c (.complete 0) (((c.wrote front).stopped (front' :: queue)).sending front')
  /-- A write failed: its vector is dropped, and the rest of the queue stays. -/
  | fail (sent : Nat) (front : List UInt8) (queue : List (List UInt8))
      (hsent : sent ≤ front.length) (hwriting : c.state.writing = true)
      (hops : c.outstanding = [front]) (hqueue : c.state.writeQueue = front :: queue) :
      Took c (.fail 0 sent) ((c.broke front sent).stopped queue)

/-- **What can happen on a ready session is one of the five**, and it is defined. -/
theorem act_took {c : Config} {a : Action} (hready : Ready c) (henabled : Enabled c a) :
    ∃ c', act c a = some c' ∧ Took c a c' := by
  cases hready with
  | idle hwriting hops =>
      cases a with
      | enqueue data =>
          obtain ⟨front, queue, hqueue⟩ := exists_front c.state.writeQueue data
          refine ⟨_, ?_, Took.start data front queue hwriting hops hqueue⟩
          show enqueue c data = _
          rw [enqueue_start hwriting hqueue]
          show some { c with state := _, outstanding := c.outstanding ++ [front] } = _
          rw [hops]
          simp only [Config.sending, Config.pushed, hqueue]
          rfl
      | complete op =>
          -- no write is in flight, so none completes
          have hop : op < c.outstanding.length := henabled
          rw [hops] at hop
          exact absurd hop (Nat.not_lt_zero op)
      | fail op sent =>
          have hop : op < c.outstanding.length := henabled.1
          rw [hops] at hop
          exact absurd hop (Nat.not_lt_zero op)
  | busy front queue hwriting hops hqueue =>
      cases a with
      | enqueue data =>
          exact ⟨_, enqueue_push hwriting, Took.push data front queue hwriting hops hqueue⟩
      | complete op =>
          have hop : op < c.outstanding.length := henabled
          rw [hops, List.length_singleton] at hop
          -- the write that completes is the only one, and the queue holds its buffer
          obtain rfl : op = 0 := by omega
          cases queue with
          | nil =>
              refine ⟨_, ?_, Took.last front hwriting hops hqueue⟩
              simp only [act, hops, List.getD_cons_zero, List.eraseIdx_cons_zero]
              exact onWrite_stop (c := { c.wrote front with outstanding := [] }) hqueue
                (Or.inr rfl)
          | cons front' queue =>
              refine ⟨_, ?_, Took.next front front' queue hwriting hops hqueue⟩
              simp only [act, hops, List.getD_cons_zero, List.eraseIdx_cons_zero]
              refine (onWrite_next (c := { c.wrote front with outstanding := [] }) hqueue).trans ?_
              show some { c.wrote front with
                state := { c.state with writeQueue := front' :: queue }, outstanding := [front'] } = _
              simp only [Config.sending, Config.stopped, Config.wrote, hwriting]
      | fail op sent =>
          obtain ⟨hop, hsent⟩ : op < c.outstanding.length ∧ _ := henabled
          rw [hops, List.length_singleton] at hop
          obtain rfl : op = 0 := by omega
          rw [hops, List.getD_cons_zero] at hsent
          refine ⟨_, ?_, Took.fail sent front queue hsent hwriting hops hqueue⟩
          simp only [act, hops, List.getD_cons_zero, List.eraseIdx_cons_zero]
          exact onWrite_stop (c := { c.broke front sent with outstanding := [] }) hqueue
            (Or.inl rfl)

/-- A step from a ready session. -/
theorem step_took {c c' : Config} {a : Action} (hready : Ready c)
    (h : system.step c a = some c') : Took c a c' := by
  have h : (if Enabled c a then act c a else none) = some c' := h
  split at h
  next henabled =>
    obtain ⟨c'', hact, htook⟩ := act_took hready henabled
    obtain rfl := Option.some.inj (hact.symm.trans h)
    exact htook
  next => exact nomatch h

/-- **Each step leaves the session ready.** -/
theorem ready_took {c c' : Config} {a : Action} (h : Took c a c') : Ready c' := by
  cases h with
  | start data front queue _ _ hqueue => exact Ready.busy front queue rfl rfl hqueue
  | push data front queue hwriting hops hqueue =>
      refine Ready.busy front (queue ++ [data]) hwriting hops ?_
      show c.state.writeQueue ++ [data] = _
      rw [hqueue]
      rfl
  | last front _ _ _ => exact Ready.idle rfl rfl
  | next front front' queue _ _ _ => exact Ready.busy front' queue rfl rfl rfl
  | fail sent front queue _ _ _ _ => exact Ready.idle rfl rfl

theorem ready_run {as : List Action} {c : Config} (h : system.run as = some c) : Ready c :=
  System.invariant (P := Ready) (Ready.idle rfl rfl)
    (fun _ _ _ hready hstep => ready_took (step_took hready hstep)) h

/-- **Run rule**: what holds at the start and passes over each of the five cases,
taken under the condition `P`, holds after every run whose steps meet `P`. -/
theorem took_induction {P : Config → Action → Prop} {Q : List Action → Config → Prop}
    (hinit : Q [] system.init)
    (htook : ∀ as c a c', Took c a c' → P c a → Q as c → Q (as ++ [a]) c')
    {as : List Action} {c : Config} (hmeets : system.Along P system.init as)
    (h : system.run as = some c) : Q as c := by
  refine (System.along_induction (P := P) (Q := fun as c => Ready c ∧ Q as c)
    ⟨Ready.idle rfl rfl, hinit⟩ ?_ hmeets h).2
  intro as c a c' hi hstep hP
  have hcase := step_took hi.1 hstep
  exact ⟨ready_took hcase, htook as c a c' hcase hP hi.2⟩

/-! ## §2. The protocol. -/

theorem enqueuedOf_concat (as : List Action) (a : Action) :
    enqueuedOf (as ++ [a]) = enqueuedOf as ++ enqueuedOf [a] := List.filterMap_append

/-- The vector that an action takes off the queue. -/
def departed (c : Config) : Action → List (List UInt8)
  | .enqueue _ => []
  | .complete op | .fail op _ => [c.outstanding.getD op []]

theorem departed_complete {c : Config} {front : List UInt8} (hops : c.outstanding = [front]) :
    departed c (.complete 0) = [front] := by
  rw [departed, hops]
  rfl

theorem departed_fail {c : Config} {front : List UInt8} (hops : c.outstanding = [front])
    (sent : Nat) : departed c (.fail 0 sent) = [front] := by
  rw [departed, hops]
  rfl

/-- **No vector is lost, duplicated or overtaken**: if what there was to send is
`left` and then the queue, then it still is after a step, with what the step
enqueued at its end and what it took off the queue added to `left`. -/
theorem order_took {c c' : Config} {a : Action} (h : Took c a c')
    {all left : List (List UInt8)} (ho : all = left ++ c.state.writeQueue) :
    all ++ enqueuedOf [a] = left ++ departed c a ++ c'.state.writeQueue := by
  rw [ho]
  cases h with
  | start data front queue _ _ _ | push data front queue _ _ _ =>
      -- nothing departs, and the vector is at the back of the queue
      show left ++ c.state.writeQueue ++ [data] = left ++ [] ++ (c.state.writeQueue ++ [data])
      rw [List.append_nil, List.append_assoc]
  | last front _ hops hqueue =>
      show left ++ c.state.writeQueue ++ [] = left ++ [c.outstanding.getD 0 []] ++ []
      rw [hops, hqueue]
      rfl
  | next front front' queue _ hops hqueue =>
      show left ++ c.state.writeQueue ++ []
        = left ++ [c.outstanding.getD 0 []] ++ front' :: queue
      rw [hops, hqueue, List.append_nil, List.append_assoc]
      rfl
  | fail sent front queue _ _ hops hqueue =>
      show left ++ c.state.writeQueue ++ [] = left ++ [c.outstanding.getD 0 []] ++ queue
      rw [hops, hqueue, List.append_nil, List.append_assoc]
      rfl

/-- No write of the run ends in an error. -/
def NoErrors (as : List Action) : Prop := ∀ op sent, .fail op sent ∉ as

/-- The action is not a write that ends in an error. -/
def NotFail (_ : Config) (a : Action) : Prop := ∀ op sent, a ≠ .fail op sent

theorem along_notFail {as : List Action} (h : NoErrors as) :
    ∀ c, system.Along NotFail c as := by
  induction as with
  | nil =>
      intro c
      exact trivial
  | cons a as ih =>
      intro c
      constructor
      · intro op sent ha
        exact h op sent (ha ▸ List.mem_cons_self)
      · intro c' _
        exact ih (fun op sent hmem => h op sent (List.mem_cons_of_mem a hmem)) c'

/-- First in, first out: what was enqueued is what was written and then what is
queued, and an idle session has an empty queue. -/
structure Fifo (as : List Action) (c : Config) : Prop where
  order : enqueuedOf as = c.completed ++ c.state.writeQueue
  sent : c.socketBytes = c.completed.flatten
  idle : c.state.writing = false → c.state.writeQueue = []

/-- A step without an error keeps the order. -/
theorem fifo_took {as : List Action} {c c' : Config} {a : Action} (h : Took c a c')
    (hgood : NotFail c a) (hi : Fifo as c) : Fifo (as ++ [a]) c' := by
  have horder := order_took h hi.order
  rw [← enqueuedOf_concat] at horder
  have hsent := hi.sent
  cases h with
  | start data front queue _ _ _ =>
      refine ⟨?_, hsent, fun hw => (nomatch hw)⟩
      rwa [show departed c (.enqueue data) = [] from rfl, List.append_nil] at horder
  | push data front queue hwriting _ _ =>
      refine ⟨?_, hsent, fun hw => (nomatch hwriting.symm.trans hw)⟩
      rwa [show departed c (.enqueue data) = [] from rfl, List.append_nil] at horder
  | last front _ hops _ =>
      rw [departed_complete hops] at horder
      refine ⟨horder, ?_, fun _ => rfl⟩
      show c.socketBytes ++ front = (c.completed ++ [front]).flatten
      rw [hsent, List.flatten_concat]
  | next front front' queue _ hops _ =>
      rw [departed_complete hops] at horder
      refine ⟨horder, ?_, fun hw => (nomatch hw)⟩
      show c.socketBytes ++ front = (c.completed ++ [front]).flatten
      rw [hsent, List.flatten_concat]
  | fail sent front queue _ _ _ _ => exact absurd rfl (hgood 0 sent)

theorem fifo_run {as : List Action} {c : Config} (h : system.run as = some c)
    (hgood : NoErrors as) : Fifo as c :=
  took_induction (P := NotFail) (Q := Fifo) ⟨rfl, rfl, fun _ => rfl⟩
    (fun _ _ _ _ htook hnot hi => fifo_took htook hnot hi) (along_notFail hgood system.init) h

/-- **Write queue protocol.**  In every reachable state at most one write is in
flight, `writing` is set exactly when one is, its buffer is the front of the
queue, and nothing that can happen next is undefined.  While no write fails the
enqueued vectors are the written ones and then the queue, and `writing` is clear
exactly when the queue is empty. -/
theorem write_protocol (as : List Action) (c : Config) (h : system.run as = some c) :
    c.outstanding.length ≤ 1
      ∧ (c.state.writing = true ↔ c.outstanding.length = 1)
      ∧ (∀ buffer ∈ c.outstanding, c.state.writeQueue.head? = some buffer)
      ∧ (∀ a, Enabled c a → ∃ c', system.step c a = some c')
      ∧ (NoErrors as →
          enqueuedOf as = c.completed ++ c.state.writeQueue
            ∧ c.socketBytes = c.completed.flatten
            ∧ (c.state.writing = false ↔ c.state.writeQueue = [])) := by
  have hready := ready_run h
  have hdefined : ∀ a, Enabled c a → ∃ c', system.step c a = some c' := by
    intro a henabled
    obtain ⟨c', hact, -⟩ := act_took hready henabled
    refine ⟨c', ?_⟩
    show (if Enabled c a then act c a else none) = some c'
    rw [if_pos henabled, hact]
  have hfifo := fun hgood => fifo_run h hgood
  cases hready with
  | idle hwriting hops =>
      rw [hops, hwriting]
      refine ⟨Nat.zero_le _, by decide, fun buffer hmem => (nomatch hmem), hdefined, ?_⟩
      intro hgood
      obtain ⟨horder, hsent, hidle⟩ := hfifo hgood
      exact ⟨horder, hsent, fun _ => hidle hwriting, fun _ => rfl⟩
  | busy front queue hwriting hops hqueue =>
      rw [hops, hwriting]
      refine ⟨Nat.le_refl _, ⟨fun _ => rfl, fun _ => rfl⟩, ?_, hdefined, ?_⟩
      · intro buffer hmem
        obtain rfl := List.mem_singleton.mp hmem
        rw [hqueue]
        rfl
      · intro hgood
        obtain ⟨horder, hsent, -⟩ := hfifo hgood
        refine ⟨horder, hsent, fun hw => (nomatch hw), ?_⟩
        intro hempty
        rw [hqueue] at hempty
        exact nomatch hempty

/-- Two packets, the second one while the first is in flight. -/
def twoPackets : List Action :=
  [.enqueue [1, 0, 0, 0, 0, 0, 0], .enqueue [2, 0, 0, 0, 0, 0, 0], .complete 0]

def afterTwoPackets : Config where
  state := { writeQueue := [[2, 0, 0, 0, 0, 0, 0]], writing := true }
  outstanding := [[2, 0, 0, 0, 0, 0, 0]]
  socketBytes := [1, 0, 0, 0, 0, 0, 0]
  completed := [[1, 0, 0, 0, 0, 0, 0]]

theorem run_twoPackets : system.run twoPackets = some afterTwoPackets := by decide

theorem write_protocol_twoPackets :
    afterTwoPackets.outstanding.length ≤ 1
      ∧ enqueuedOf twoPackets = afterTwoPackets.completed ++ afterTwoPackets.state.writeQueue := by
  have hall := write_protocol twoPackets afterTwoPackets run_twoPackets
  refine ⟨hall.1, (hall.2.2.2.2 ?_).1⟩
  intro op sent hmem
  simp [twoPackets] at hmem

/-! ## §3. Writes that fail. -/

/-- Nothing is enqueued after a write that left part of its buffer unsent. -/
def EnqueuesWhole (c : Config) (a : Action) : Prop := ∀ data, a = .enqueue data → c.unsent = []

/-- What was enqueued is what has left the queue and then the queue.  What has
left it is on the socket, whole while no write has failed short; after one that
did, no write is in flight. -/
structure Flushed (as : List Action) (c : Config) (left : List (List UInt8)) : Prop where
  order : enqueuedOf as = left ++ c.state.writeQueue
  initial : c.socketBytes <+: left.flatten
  whole : c.unsent = [] → c.socketBytes = left.flatten
  still : c.unsent ≠ [] → c.outstanding = []

/-- With a write in flight nothing is unsent yet, so what has left the queue is
on the socket. -/
theorem Flushed.inFlight {as : List Action} {c : Config} {left : List (List UInt8)}
    (hi : Flushed as c left) {front : List UInt8} (hops : c.outstanding = [front]) :
    c.unsent = [] ∧ c.socketBytes = left.flatten := by
  have hunsent : c.unsent = [] := by
    by_contra hne
    exact nomatch hops.symm.trans (hi.still hne)
  exact ⟨hunsent, hi.whole hunsent⟩

/-- What is on the socket once that write is through. -/
theorem Flushed.wrote {as : List Action} {c : Config} {left : List (List UInt8)}
    (hi : Flushed as c left) {front : List UInt8} (hops : c.outstanding = [front]) :
    c.socketBytes ++ front = (left ++ [front]).flatten := by
  rw [(hi.inFlight hops).2, List.flatten_concat]

/-- A step that does not enqueue after a short write keeps `Flushed`. -/
theorem flushed_took {as : List Action} {c c' : Config} {a : Action} (h : Took c a c')
    (hwhole : EnqueuesWhole c a) {left : List (List UInt8)} (hi : Flushed as c left) :
    Flushed (as ++ [a]) c' (left ++ departed c a) := by
  have horder := order_took h hi.order
  rw [← enqueuedOf_concat] at horder
  cases h with
  | start data front queue _ _ _ =>
      rw [show departed c (.enqueue data) = [] from rfl, List.append_nil] at horder ⊢
      exact ⟨horder, hi.initial, hi.whole, fun hne => absurd (hwhole data rfl) hne⟩
  | push data front queue _ _ _ =>
      rw [show departed c (.enqueue data) = [] from rfl, List.append_nil] at horder ⊢
      exact ⟨horder, hi.initial, hi.whole, hi.still⟩
  | last front _ hops _ =>
      rw [departed_complete hops] at horder ⊢
      have hflat := hi.wrote hops
      exact ⟨horder, ⟨[], (List.append_nil _).trans hflat⟩, fun _ => hflat, fun _ => rfl⟩
  | next front front' queue _ hops _ =>
      rw [departed_complete hops] at horder ⊢
      have hflat := hi.wrote hops
      exact ⟨horder, ⟨[], (List.append_nil _).trans hflat⟩, fun _ => hflat,
        fun hne => absurd (hi.inFlight hops).1 hne⟩
  | fail sent front queue _ _ hops _ =>
      rw [departed_fail hops] at horder ⊢
      have hbytes := (hi.inFlight hops).2
      refine ⟨horder, ?_, ?_, fun _ => rfl⟩
      · show c.socketBytes ++ front.take sent <+: (left ++ [front]).flatten
        rw [hbytes, List.flatten_concat]
        exact (List.prefix_append_right_inj _).mpr (List.take_prefix sent front)
      · -- an error after the whole buffer was sent leaves nothing unsent
        intro hunsent
        have hdrop : front.drop sent = [] := (List.append_eq_nil_iff.mp hunsent).2
        have htake : front.take sent = front :=
          List.take_of_length_le (List.drop_eq_nil_iff.mp hdrop)
        show c.socketBytes ++ front.take sent = (left ++ [front]).flatten
        rw [htake, hbytes, List.flatten_concat]

theorem flushed_run {as : List Action} {c : Config} (h : system.run as = some c)
    (hwhole : system.Along EnqueuesWhole system.init as) : ∃ left, Flushed as c left := by
  refine took_induction (P := EnqueuesWhole) (Q := fun as c => ∃ left, Flushed as c left)
    ⟨[], rfl, List.prefix_refl _, fun _ => rfl, fun _ => rfl⟩ ?_ hwhole h
  intro as c a c' htook hmeets hi
  obtain ⟨left, hi⟩ := hi
  exact ⟨_, flushed_took htook hmeets hi⟩

/-- With no write in flight the only thing that can happen is an `enqueue`, which
sends nothing by itself. -/
theorem step_still {c c' : Config} {a : Action} (hready : Ready c) (hops : c.outstanding = [])
    (h : system.step c a = some c') :
    ∃ data, a = .enqueue data ∧ c'.socketBytes = c.socketBytes := by
  cases step_took hready h with
  | start data front queue _ _ _ => exact ⟨data, rfl, rfl⟩
  | push data front queue _ hone _ | last front _ hone _ | next front _ queue _ hone _
  | fail sent front queue _ _ hone _ => exact nomatch hone.symm.trans hops

/-- **On the socket is a prefix of what was enqueued**, whatever fails, in every
run that enqueues nothing after a write that failed short of its buffer; and once
a write did, the only step there is is an `enqueue`, which by itself sends nothing. -/
theorem socketBytes_in_order (as : List Action) (c : Config) (h : system.run as = some c)
    (hwhole : system.Along EnqueuesWhole system.init as) :
    c.socketBytes <+: (enqueuedOf as).flatten
      ∧ (c.unsent ≠ [] → ∀ a c', system.step c a = some c' →
          ∃ data, a = .enqueue data ∧ c'.socketBytes = c.socketBytes) := by
  obtain ⟨left, hflushed⟩ := flushed_run h hwhole
  constructor
  · rw [hflushed.order, List.flatten_append]
    exact hflushed.initial.trans (List.prefix_append _ _)
  · intro hunsent a c' hstep
    exact step_still (ready_run h) (hflushed.still hunsent) hstep

/-- A write that fails after three bytes, with nothing enqueued after it. -/
theorem socketBytes_in_order_failed :
    [1, 0, 0] <+: (enqueuedOf [.enqueue [1, 0, 0, 0, 0, 0, 0], .fail 0 3]).flatten := by
  refine (socketBytes_in_order [.enqueue [1, 0, 0, 0, 0, 0, 0], .fail 0 3]
    { socketBytes := [1, 0, 0], unsent := [0, 0, 0, 0] } (by decide) ⟨fun _ _ => rfl, ?_⟩).1
  intro c' _
  exact ⟨fun data hdata => (nomatch hdata), fun _ _ => trivial⟩

/-- A write fails after three bytes of the first packet, and a second packet is
enqueued and sent. -/
def resumed : List Action :=
  [.enqueue [1, 0, 0, 0, 0, 0, 0], .fail 0 3, .enqueue [2, 0, 0, 0, 0, 0, 0], .complete 0]

/-- **Bytes of two packets are mixed**: the second packet follows the first three
bytes of the first. -/
theorem socketBytes_mixed :
    ∃ c, system.run resumed = some c
      ∧ c.socketBytes = [1, 0, 0, 2, 0, 0, 0, 0, 0, 0]
      ∧ ¬ c.socketBytes <+: (enqueuedOf resumed).flatten :=
  ⟨{ socketBytes := [1, 0, 0, 2, 0, 0, 0, 0, 0, 0], completed := [[2, 0, 0, 0, 0, 0, 0]],
     unsent := [0, 0, 0, 0] }, by decide, rfl, by decide⟩

end Bancho.Writer
