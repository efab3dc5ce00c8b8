/-
  Bancho.Writer.Header
  ────────────────────
  `do_write`, its completion handler and `enqueue`, on any session.

  §1  what each of them does, one equation for each way through it;
  §2  two kinds of sessions on which they do the same, since starting an
      `async_write` does (`Corresponds`);
  §3  what they keep, since starting one keeps it (`Keeps`).
-/
import Bancho.Server.Writer

namespace Bancho.Writer

open Session
open HasAsyncWrite (state withState asyncWrite state_withState withState_withState)

/-! ## §1. The ways through the functions. -/

section Equations

variable {C : Type} [HasAsyncWrite C] {c : C} {data front : List UInt8}
  {queue : List (List UInt8)}

theorem doWrite_front (hqueue : (state c).writeQueue = front :: queue) :
    doWrite c = some (asyncWrite c front) := by
  unfold doWrite
  rw [hqueue]

/-- A write has ended without an error, and there is a next one. -/
theorem onWrite_next {front' : List UInt8}
    (hqueue : (state c).writeQueue = front :: front' :: queue) :
    onWrite c false
      = some (asyncWrite (withState c { state c with writeQueue := front' :: queue }) front') := by
  have hnext : (state (withState c { state c with writeQueue := front' :: queue })).writeQueue
      = front' :: queue := by
    rw [state_withState]
  unfold onWrite
  rw [hqueue]
  exact doWrite_front hnext

/-- A write has ended in an error, or it was the last one. -/
theorem onWrite_stop (hqueue : (state c).writeQueue = front :: queue) {ec : Bool}
    (hstop : ec = true ∨ queue = []) :
    onWrite c ec
      = some (withState c { state c with writeQueue := queue, writing := false }) := by
  have hno : (!ec && !queue.isEmpty) = false := by
    rcases hstop with rfl | rfl
    · rfl
    · exact Bool.and_false _
  unfold onWrite
  rw [hqueue]
  simp only [hno, Bool.false_eq_true, if_false, state_withState, withState_withState]

theorem onWrite_defined (hqueue : (state c).writeQueue = front :: queue) (ec : Bool) :
    ∃ c', onWrite c ec = some c' := by
  cases ec with
  | true => exact ⟨_, onWrite_stop hqueue (Or.inl rfl)⟩
  | false =>
      cases queue with
      | nil => exact ⟨_, onWrite_stop hqueue (Or.inr rfl)⟩
      | cons front' queue => exact ⟨_, onWrite_next hqueue⟩

/-- `enqueue` on a session that is writing. -/
theorem enqueue_push (hwriting : (state c).writing = true) :
    enqueue c data
      = some (withState c { state c with writeQueue := (state c).writeQueue ++ [data] }) := by
  unfold enqueue
  simp only [state_withState, hwriting, Bool.not_true, Bool.false_eq_true, if_false]

/-- The queue is not empty after the push, so `front()` is defined. -/
theorem exists_front (queue : List (List UInt8)) (data : List UInt8) :
    ∃ front rest, queue ++ [data] = front :: rest := by
  have hne : queue ++ [data] ≠ [] :=
    List.append_ne_nil_of_right_ne_nil _ (List.cons_ne_nil data [])
  exact List.exists_cons_of_ne_nil hne

/-- `enqueue` on one that is not: what is started is the front. -/
theorem enqueue_start (hwriting : (state c).writing = false)
    (hqueue : (state c).writeQueue ++ [data] = front :: queue) :
    enqueue c data
      = some (asyncWrite
          (withState c { state c with writeQueue := front :: queue, writing := true }) front) := by
  unfold enqueue
  simp only [state_withState, withState_withState, hwriting, hqueue, Bool.not_false, if_true]
  exact doWrite_front (by rw [state_withState])

theorem enqueue_defined (c : C) (data : List UInt8) : ∃ c', enqueue c data = some c' := by
  cases hwriting : (state c).writing with
  | true => exact ⟨_, enqueue_push hwriting⟩
  | false =>
      obtain ⟨front, queue, hqueue⟩ := exists_front (state c).writeQueue data
      exact ⟨_, enqueue_start hwriting hqueue⟩

end Equations

/-! ## §2. The same functions on two kinds of sessions. -/

section Rel

variable {α β γ : Type} {r : α → β → Prop} {x : Option α} {y : Option β}

theorem rel_map {r' : γ → β → Prop} {f : α → γ} (hxy : Option.Rel r x y)
    (h : ∀ a b, r a b → r' (f a) b) : Option.Rel r' (x.map f) y := by
  cases hxy with
  | some hr => exact .some (h _ _ hr)
  | none => exact .none

theorem rel_exists_left (hxy : Option.Rel r x y) {b : β} (hy : y = some b) :
    ∃ a, x = some a ∧ r a b := by
  subst hy
  cases hxy with
  | some hr => exact ⟨_, rfl, hr⟩

theorem rel_exists_right (hxy : Option.Rel r x y) {a : α} (hx : x = some a) :
    ∃ b, y = some b ∧ r a b := by
  subst hx
  cases hxy with
  | some hr => exact ⟨_, rfl, hr⟩

/-- Results that are the images of others. -/
theorem map_of_rel {f : α → β} (h : Option.Rel (fun a b => b = f a) x y) : y = x.map f := by
  cases h with
  | some hsame => exact congrArg some hsame
  | none => rfl

end Rel

section Corresponds

variable {C D : Type} [HasAsyncWrite C] [HasAsyncWrite D]

/-- What relates two kinds of sessions on which the header does the same. -/
structure Corresponds (R : C → D → Prop) : Prop where
  queue : ∀ {c d}, R c d → (state d).writeQueue = (state c).writeQueue
  writing : ∀ {c d}, R c d → (state d).writing = (state c).writing
  withQueue : ∀ {c d}, R c d → ∀ queue, R (withState c { state c with writeQueue := queue })
    (withState d { state d with writeQueue := queue })
  withWriting : ∀ {c d}, R c d → ∀ writing, R (withState c { state c with writing := writing })
    (withState d { state d with writing := writing })
  asyncWrite : ∀ {c d}, R c d → ∀ buffer, R (asyncWrite c buffer) (asyncWrite d buffer)

variable {R : C → D → Prop} {c : C} {d : D}

theorem Corresponds.doWrite (h : Corresponds R) (hR : R c d) :
    Option.Rel R (doWrite c) (doWrite d) := by
  unfold Writer.doWrite
  rw [h.queue hR]
  cases (state c).writeQueue with
  | nil => exact Option.Rel.none
  | cons front queue => exact Option.Rel.some (h.asyncWrite hR front)

theorem Corresponds.onWrite (h : Corresponds R) (hR : R c d) (ec : Bool) :
    Option.Rel R (onWrite c ec) (onWrite d ec) := by
  unfold Writer.onWrite
  rw [h.queue hR]
  cases (state c).writeQueue with
  | nil => exact Option.Rel.none
  | cons front queue =>
      have hpop := h.withQueue hR queue
      by_cases hgo : (!ec && !queue.isEmpty) = true
      · simp only [hgo, if_true]
        exact h.doWrite hpop
      · simp only [hgo, Bool.false_eq_true, if_false]
        exact Option.Rel.some (h.withWriting hpop false)

theorem Corresponds.enqueue (h : Corresponds R) (hR : R c d) (data : List UInt8) :
    Option.Rel R (enqueue c data) (enqueue d data) := by
  have hpush := h.withQueue hR ((state c).writeQueue ++ [data])
  unfold Writer.enqueue
  rw [h.queue hR]
  simp only [h.writing hpush]
  split
  · exact h.doWrite (h.withWriting hpush true)
  · exact Option.Rel.some hpush

theorem Corresponds.onWrite_map {f : C → D} (h : Corresponds fun c d => d = f c) (c : C)
    (ec : Bool) : Writer.onWrite (f c) ec = (Writer.onWrite c ec).map f :=
  map_of_rel (h.onWrite rfl ec)

theorem Corresponds.enqueue_map {f : C → D} (h : Corresponds fun c d => d = f c) (c : C)
    (data : List UInt8) : Writer.enqueue (f c) data = (Writer.enqueue c data).map f :=
  map_of_rel (h.enqueue rfl data)

end Corresponds

/-! ## §3. What the functions keep. -/

section Keeps

variable {C : Type} [HasAsyncWrite C]

/-- A property that neither the queue nor the flag decides, and that starting an
`async_write` keeps. -/
structure Keeps (P : C → Prop) : Prop where
  withQueue : ∀ {c}, P c → ∀ queue, P (withState c { state c with writeQueue := queue })
  withWriting : ∀ {c}, P c → ∀ writing, P (withState c { state c with writing := writing })
  asyncWrite : ∀ {c}, P c → ∀ buffer, P (asyncWrite c buffer)

variable {P : C → Prop} {c c' : C}

theorem Keeps.corresponds (h : Keeps P) : Corresponds fun c d => c = d ∧ P c where
  queue := by
    rintro c d ⟨rfl, -⟩
    rfl
  writing := by
    rintro c d ⟨rfl, -⟩
    rfl
  withQueue := by
    rintro c d ⟨rfl, hP⟩ queue
    exact ⟨rfl, h.withQueue hP queue⟩
  withWriting := by
    rintro c d ⟨rfl, hP⟩ writing
    exact ⟨rfl, h.withWriting hP writing⟩
  asyncWrite := by
    rintro c d ⟨rfl, hP⟩ buffer
    exact ⟨rfl, h.asyncWrite hP buffer⟩

theorem Keeps.onWrite (h : Keeps P) (hP : P c) {ec : Bool} (hon : onWrite c ec = some c') :
    P c' := by
  obtain ⟨c'', hon', rfl, hP'⟩ := rel_exists_right (h.corresponds.onWrite ⟨rfl, hP⟩ ec) hon
  exact hP'

theorem Keeps.enqueue (h : Keeps P) (hP : P c) {data : List UInt8}
    (henq : enqueue c data = some c') : P c' := by
  obtain ⟨c'', henq', rfl, hP'⟩ :=
    rel_exists_right (h.corresponds.enqueue ⟨rfl, hP⟩ data) henq
  exact hP'

end Keeps

end Bancho.Writer
