/-
  Bancho.Library.OneShot
  ──────────────────────
  Streaming machines made of a function on whole inputs.

  `complete f s` says whether a coder that has been given `s` and is called in
  mode `f` can finish: with what output, and what of `s` it leaves unread.  The
  machine takes in its input until that is so, and then writes the output as the
  room allows.

  Main results:
    * `run_reading_complete`, `run_reading_stuck`, `run_reading_wait` — what a
      run from a reading state is, however the output room was divided.
-/
import Bancho.Library.Streaming

namespace Streaming

variable {ι α β : Type}

/-- Taking input in, or writing what is left of the output. -/
inductive OneShot (α β : Type) where
  | reading (seen : List α)
  | writing (pending : List β)

namespace OneShot

/-! ## §1. The machine. -/

/-- A function on whole inputs, with a bound on its output that does not depend
on the mode. -/
structure Coder (ι α β : Type) where
  complete : ι → List α → Option (List β × List α)
  bound : List α → Nat
  output_le : ∀ {f s o r}, complete f s = some (o, r) → o.length ≤ bound s

/-- The code of a call that has `pending` to write and `room` to write it in. -/
def emitStatus (pending : List β) (room : Nat) : Status :=
  if pending.length ≤ room then .streamEnd else if 0 < room then .ok else .bufError

/-- Write what there is room for. -/
def emit (pending : List β) (consumed room : Nat) : Call (OneShot α β) β :=
  ⟨emitStatus pending room, consumed, pending.take room, .writing (pending.drop room)⟩

def call (c : Coder ι α β) : OneShot α β → ι → List α → Nat → Call (OneShot α β) β
  | .writing pending, _, _, room => emit pending 0 room
  | .reading seen, f, inp, room =>
      match c.complete f (seen ++ inp) with
      | some (o, r) => emit o (inp.length - r.length) room
      | none => ⟨if inp = [] then .bufError else .ok, inp.length, [], .reading (seen ++ inp)⟩

def outputBound (c : Coder ι α β) : OneShot α β → List α → Nat
  | .writing pending, _ => pending.length
  | .reading seen, inp => c.bound (seen ++ inp)

section Calls

variable {c : Coder ι α β} {seen inp : List α} {f : ι} {room : Nat}

theorem call_complete {o : List β} {r : List α} (h : c.complete f (seen ++ inp) = some (o, r)) :
    call c (.reading seen) f inp room = emit o (inp.length - r.length) room := by
  rw [call, h]

theorem call_wait (h : c.complete f (seen ++ inp) = none) :
    call c (.reading seen) f inp room
      = ⟨if inp = [] then .bufError else .ok, inp.length, [], .reading (seen ++ inp)⟩ := by
  rw [call, h]

theorem emit_ok {pending : List β} {consumed : Nat}
    (h : (emit pending consumed room : Call (OneShot α β) β).status = .ok) :
    0 < ((emit pending consumed room : Call (OneShot α β) β).produced).length := by
  have hs : emitStatus pending room = .ok := h
  show 0 < (pending.take room).length
  rw [List.length_take]
  unfold emitStatus at hs
  split at hs
  next => exact nomatch hs
  next hlen =>
    split at hs
    next hroom => omega
    next => exact nomatch hs

/-- With room, a call that writes goes on exactly when the room is too small. -/
theorem emitStatus_of_room (pending : List β) (hroom : 0 < room) :
    (pending.length ≤ room ∧ emitStatus pending room = .streamEnd)
      ∨ emitStatus pending room = .ok := by
  unfold emitStatus
  by_cases hfits : pending.length ≤ room
  · exact Or.inl ⟨hfits, if_pos hfits⟩
  · right
    rw [if_neg hfits, if_pos hroom]

/-- What fits is written at once. -/
theorem emit_fits {pending : List β} {consumed : Nat} (h : pending.length ≤ room) :
    (emit pending consumed room : Call (OneShot α β) β)
      = ⟨.streamEnd, consumed, pending, .writing []⟩ := by
  unfold emit emitStatus
  rw [if_pos h, List.take_of_length_le h, List.drop_eq_nil_of_le h]

/-- The end is reported only when all of it was written. -/
theorem length_le_of_streamEnd {pending : List β} {consumed : Nat}
    (h : (emit pending consumed room : Call (OneShot α β) β).status = .streamEnd) :
    pending.length ≤ room := by
  have hs : emitStatus pending room = .streamEnd := h
  unfold emitStatus at hs
  split at hs
  next hfits => exact hfits
  next => split at hs <;> exact nomatch hs

/-- What is written and what stays pending are all there is. -/
theorem emit_length (pending : List β) (room : Nat) :
    (pending.take room).length + (pending.drop room).length = pending.length := by
  rw [← List.length_append, List.take_append_drop]

end Calls

/-- The machine of a coder, from a state in which it has seen nothing; it does not
matter how the modes are chosen. -/
def machine (mode : List α → ι) (c : Coder ι α β) : Machine mode β where
  State := OneShot α β
  start := some (.reading [])
  call := call c
  outputBound := outputBound c
  consumed_le := by
    intro s inp room
    cases s with
    | writing pending => exact Nat.zero_le _
    | reading seen =>
        cases hc : c.complete (mode inp) (seen ++ inp) with
        | none =>
            exact Nat.le_of_eq (congrArg Call.consumed (call_wait hc))
        | some x =>
            rw [call_complete hc]
            exact Nat.sub_le _ _
  produced_le := by
    intro s inp room
    cases s with
    | writing pending => exact List.length_take_le _ _
    | reading seen =>
        cases hc : c.complete (mode inp) (seen ++ inp) with
        | none =>
            rw [call_wait hc]
            exact Nat.zero_le _
        | some x =>
            rw [call_complete hc]
            exact List.length_take_le _ _
  outputBound_call := by
    intro s inp room
    cases s with
    | writing pending => exact Nat.le_of_eq (emit_length pending room)
    | reading seen =>
        cases hc : c.complete (mode inp) (seen ++ inp) with
        | none =>
            rw [call_wait hc]
            show 0 + c.bound (seen ++ inp ++ inp.drop inp.length) ≤ c.bound (seen ++ inp)
            exact Nat.le_of_eq (by rw [List.drop_length, List.append_nil, Nat.zero_add])
        | some x =>
            rw [call_complete hc]
            exact Nat.le_trans (Nat.le_of_eq (emit_length x.1 room)) (c.output_le hc)
  progress := by
    intro s inp room h
    cases s with
    | writing pending => exact Or.inr (emit_ok h)
    | reading seen =>
        cases hc : c.complete (mode inp) (seen ++ inp) with
        | none =>
            rw [call_wait hc] at h ⊢
            left
            show 0 < inp.length
            by_cases hinp : inp = []
            · rw [if_pos hinp] at h
              exact nomatch h
            · exact List.length_pos_iff.mpr hinp
        | some x =>
            rw [call_complete hc] at h ⊢
            exact Or.inr (emit_ok h)

/-! ## §2. Its runs. -/

variable {c : Coder ι α β} {mode : List α → ι} {inp rest : List α} {out : List β} {st : Status}

/-- From a writing state a run writes all there is, in whatever pieces. -/
theorem run_writing {s : (machine mode c).State} (h : (machine mode c).Run s inp out st rest) :
    ∀ pending, s = OneShot.writing pending → st = .streamEnd ∧ out = pending ∧ rest = inp := by
  induction h with
  | halt s inp room hroom hst =>
      intro pending hs
      subst hs
      -- the last call had room for all that was pending
      rcases emitStatus_of_room pending hroom with ⟨hfits, hend⟩ | hok
      · exact ⟨hend, List.take_of_length_le hfits, rfl⟩
      · exact absurd hok hst
  | next s inp room hroom hst hrun ih =>
      intro pending hs
      subst hs
      -- an earlier one wrote the front of it, and the rest writes the rest
      obtain ⟨hend, hout, hrest⟩ := ih (pending.drop room) rfl
      refine ⟨hend, ?_, hrest⟩
      rw [hout]
      exact List.take_append_drop room pending

/-- **A coder that can finish** on what it is given writes its whole output and
leaves what it does not need. -/
theorem run_reading_complete {seen : List α} {o : List β} {r : List α}
    (hc : c.complete (mode inp) (seen ++ inp) = some (o, r))
    (h : (machine mode c).Run (OneShot.reading seen) inp out st rest) :
    st = .streamEnd ∧ out = o ∧ rest = inp.drop (inp.length - r.length) := by
  obtain ⟨room, hroom, h⟩ := h.first
  have hcall : (machine mode c).call (OneShot.reading seen) (mode inp) inp room
      = emit o (inp.length - r.length) room := call_complete hc
  rw [hcall] at h
  rcases h with ⟨hst, hout, hend, hrest⟩ | ⟨hst, out', hout, hrun⟩
  -- the output fits into the first buffer, or the machine goes on writing it
  · rcases emitStatus_of_room o hroom with ⟨hfits, hend'⟩ | hok
    · exact ⟨hend.trans hend', hout.trans (List.take_of_length_le hfits), hrest⟩
    · exact absurd hok hst
  · obtain ⟨hend, hout', hrest⟩ := run_writing hrun (o.drop room) rfl
    refine ⟨hend, ?_, hrest⟩
    rw [hout, hout']
    exact List.take_append_drop room o

/-- Without input, a coder that cannot finish is stuck. -/
theorem run_reading_stuck {seen : List α} (hc : c.complete (mode []) seen = none)
    (h : (machine mode c).Run (OneShot.reading seen) [] out st rest) :
    st = .bufError ∧ out = [] := by
  obtain ⟨room, -, h⟩ := h.first
  have hcall : (machine mode c).call (OneShot.reading seen) (mode []) [] room
      = ⟨.bufError, 0, [], .reading (seen ++ [])⟩ :=
    call_wait (by rwa [List.append_nil])
  rw [hcall] at h
  rcases h with ⟨-, hout, hend, -⟩ | ⟨hst, -⟩
  · exact ⟨hend, hout⟩
  · exact nomatch hst

/-- With input, a coder that cannot finish yet takes it all in and goes on. -/
theorem run_reading_wait {seen : List α} (hinp : inp ≠ [])
    (hc : c.complete (mode inp) (seen ++ inp) = none)
    (h : (machine mode c).Run (OneShot.reading seen) inp out st rest) :
    (machine mode c).Run (OneShot.reading (seen ++ inp)) [] out st rest := by
  obtain ⟨room, -, h⟩ := h.first
  have hcall : (machine mode c).call (OneShot.reading seen) (mode inp) inp room
      = ⟨.ok, inp.length, [], .reading (seen ++ inp)⟩ := by
    show call c (.reading seen) (mode inp) inp room = _
    rw [call_wait hc, if_neg hinp]
    rfl
  rw [hcall] at h
  rcases h with ⟨hst, -⟩ | ⟨-, out', hout, hrun⟩
  · exact absurd rfl hst
  · rw [hout]
    rwa [List.drop_length] at hrun

end OneShot

end Streaming
