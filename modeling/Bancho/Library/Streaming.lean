/-
  Bancho.Library.Streaming
  ────────────────────────
  Streaming machines: coders that are fed a bounded input buffer, fill a
  bounded output buffer, report a return code, and are called again.

  A machine is a state type, one `call`, and a bound on the output still to
  come.  The bound and the progress law are what a driver loop may rely on to
  end; they are fields, so a machine that could spin cannot be built.  They speak
  of the calls that its driver makes, which chooses the mode of each from the
  input still unread, and of no other.

  §1  return codes, calls, machines;
  §2  the driver loop `pump` (call until the code is not `ok`);
  §3  `Run`: any driver, with any sequence of output buffer sizes — the
      relation the loop is an instance of (`pump_run`);
  §4  the loop with a bound on its calls (`pumpFor_eq`);
  §5  the calls the loop makes, in order (`calls`).
-/
import Mathlib.Algebra.Ring.Nat
import Mathlib.Data.List.Basic

namespace Streaming

/-! ## §1. Machines. -/

/-- Return codes of a streaming call. -/
inductive Status where
  | ok
  | streamEnd
  | needDict
  | dataError
  | streamError
  | bufError
  | memError
  deriving Repr, DecidableEq

/-- What one call did: its code, how much input it took, what it wrote, and
the state it leaves. -/
structure Call (σ β : Type) where
  status : Status
  consumed : Nat
  produced : List β
  next : σ

/-- A streaming machine over modes `ι`, input symbols `α` and output symbols `β`,
for a caller that chooses the mode of each call by `mode` from the input still
unread; of other calls it promises nothing.  `start` is `none` when the machine
cannot be set up. -/
structure Machine {ι α : Type} (mode : List α → ι) (β : Type) where
  State : Type
  start : Option State
  /-- One call: state, mode, unread input, room in the output buffer. -/
  call : State → ι → List α → Nat → Call State β
  /-- A bound on the output still to come from a state on an unread input. -/
  outputBound : State → List α → Nat
  consumed_le : ∀ s inp room, (call s (mode inp) inp room).consumed ≤ inp.length
  produced_le : ∀ s inp room, (call s (mode inp) inp room).produced.length ≤ room
  /-- Output that has been written is no longer to come. -/
  outputBound_call : ∀ s inp room,
    (call s (mode inp) inp room).produced.length
      + outputBound (call s (mode inp) inp room).next
          (inp.drop (call s (mode inp) inp room).consumed)
    ≤ outputBound s inp
  /-- The code `ok` reports progress: input was taken or output was written. -/
  progress : ∀ s inp room, (call s (mode inp) inp room).status = .ok →
    0 < (call s (mode inp) inp room).consumed
      ∨ 0 < (call s (mode inp) inp room).produced.length

namespace Machine

variable {ι α β : Type} {mode : List α → ι} (m : Machine mode β)

/-- Work left: unread input and output still to come. -/
def work (s : m.State) (inp : List α) : Nat := inp.length + m.outputBound s inp

/-- A call that returns `ok` leaves less work. -/
theorem work_call (s : m.State) (inp : List α) (room : Nat)
    (h : (m.call s (mode inp) inp room).status = .ok) :
    m.work (m.call s (mode inp) inp room).next
        (inp.drop (m.call s (mode inp) inp room).consumed)
      < m.work s inp := by
  have hc := m.consumed_le s inp room
  have hb := m.outputBound_call s inp room
  have hp := m.progress s inp room h
  -- input taken is input no longer unread, output written is output no longer to come
  simp only [work, List.length_drop]
  omega

/-! ## §2. The driver loop. -/

/-- Call the machine until its code is not `ok`, with the same output buffer of
`room` symbols each time, collecting what it writes. -/
def pump (room : Nat) (s : m.State) (inp : List α)
    (output : List β) : Status × List β :=
  let c := m.call s (mode inp) inp room
  let output := output ++ c.produced
  if c.status = .ok then pump room c.next (inp.drop c.consumed) output
  else (c.status, output)
termination_by m.work s inp
decreasing_by exact m.work_call s inp room ‹_›

/-! ## §3. Runs under any driver. -/

/-- `Run s inp out st rest`: called from `s` on `inp` until a code other
than `ok`, each time with some room in the output, the machine wrote `out`,
ended with code `st`, and left `rest` unread. -/
inductive Run :
    m.State → List α → List β → Status → List α → Prop
  | halt (s : m.State) (inp : List α) (room : Nat) :
      0 < room → (m.call s (mode inp) inp room).status ≠ .ok →
      Run s inp (m.call s (mode inp) inp room).produced
        (m.call s (mode inp) inp room).status
        (inp.drop (m.call s (mode inp) inp room).consumed)
  | next (s : m.State) (inp : List α) (room : Nat)
      {out : List β} {st : Status} {rest : List α} :
      0 < room → (m.call s (mode inp) inp room).status = .ok →
      Run (m.call s (mode inp) inp room).next
        (inp.drop (m.call s (mode inp) inp room).consumed) out st rest →
      Run s inp ((m.call s (mode inp) inp room).produced ++ out) st rest

variable {m}

/-- A run leaves unread a tail of its input. -/
theorem Run.suffix {s : m.State} {inp : List α} {out : List β}
    {st : Status} {rest : List α} (h : m.Run s inp out st rest) : rest <:+ inp := by
  induction h with
  | halt s inp room _ _ => exact List.drop_suffix _ _
  | next s inp room _ _ _ ih => exact ih.trans (List.drop_suffix _ _)

/-- What the first call of a run was: the last one, or one followed by a run. -/
theorem Run.first {s : m.State} {inp : List α} {out : List β}
    {st : Status} {rest : List α} (h : m.Run s inp out st rest) :
    ∃ room, 0 < room
      ∧ (((m.call s (mode inp) inp room).status ≠ .ok
          ∧ out = (m.call s (mode inp) inp room).produced
          ∧ st = (m.call s (mode inp) inp room).status
          ∧ rest = inp.drop (m.call s (mode inp) inp room).consumed)
        ∨ ((m.call s (mode inp) inp room).status = .ok
          ∧ ∃ out', out = (m.call s (mode inp) inp room).produced ++ out'
            ∧ m.Run (m.call s (mode inp) inp room).next
                (inp.drop (m.call s (mode inp) inp room).consumed) out' st rest)) := by
  cases h with
  | halt _ _ room hroom hst => exact ⟨room, hroom, Or.inl ⟨hst, rfl, rfl, rfl⟩⟩
  | next _ _ room hroom hst hrun => exact ⟨room, hroom, Or.inr ⟨hst, _, rfl, hrun⟩⟩

/-- **The loop is a run**: `pump` ends, on every input, with what some run
wrote appended to what it was given. -/
theorem pump_run (room : Nat) (hroom : 0 < room) :
    ∀ (s : m.State) (inp : List α) (output : List β),
      ∃ out rest, m.Run s inp out (m.pump room s inp output).1 rest
        ∧ (m.pump room s inp output).2 = output ++ out := by
  intro s inp output
  induction s, inp, output using pump.induct m room with
  | case1 s inp output c output' hok ih =>
      -- the code is `ok`: the run of the rest, with this call in front
      obtain ⟨out, rest, hrun, hout⟩ := ih
      rw [pump]
      simp only [show (m.call s (mode inp) inp room).status = .ok from hok, if_true]
      exact ⟨_, rest, .next s inp room hroom hok hrun, by rw [hout, List.append_assoc]⟩
  | case2 s inp output c hok =>
      rw [pump]
      simp only [show ¬ (m.call s (mode inp) inp room).status = .ok from hok, if_false]
      exact ⟨_, _, .halt s inp room hroom hok, rfl⟩

/-- However a machine is set up, there is a run. -/
theorem exists_run (s : m.State) (inp : List α) :
    ∃ out st rest, m.Run s inp out st rest := by
  obtain ⟨out, rest, hrun, -⟩ := pump_run 1 Nat.one_pos s inp []
  exact ⟨out, _, rest, hrun⟩

/-! ## §4. The loop with a bound on its calls. -/

/-- At most `k` rounds of the loop: `none` if they are not enough. -/
def pumpFor (m : Machine mode β) (room : Nat) :
    Nat → m.State → List α → List β → Option (Status × List β)
  | 0, _, _, _ => none
  | k + 1, s, inp, output =>
      let c := m.call s (mode inp) inp room
      let output := output ++ c.produced
      if c.status = .ok then pumpFor m room k c.next (inp.drop c.consumed) output
      else some (c.status, output)

/-- **The loop ends** within one call more than there is work. -/
theorem pumpFor_eq (room : Nat) :
    ∀ (k : Nat) (s : m.State) (inp : List α) (output : List β), m.work s inp < k →
      m.pumpFor room k s inp output = some (m.pump room s inp output) := by
  intro k
  induction k with
  | zero =>
      intro s inp output hk
      exact absurd hk (Nat.not_lt_zero _)
  | succ k ih =>
      intro s inp output hk
      rw [pumpFor, pump]
      by_cases hok : (m.call s (mode inp) inp room).status = .ok
      · -- the round leaves less work, so the other rounds are enough for it
        have hless := m.work_call s inp room hok
        simp only [hok, if_true]
        apply ih
        omega
      · simp only [hok, if_false]

/-! ## §5. The calls of the loop. -/

/-- A call as it was made: the mode, the input that was unread, the room, and
what came of it. -/
structure Made (ι σ α β : Type) where
  mode : ι
  input : List α
  room : Nat
  result : Call σ β

/-- The part of the input that the call took. -/
def Made.taken {ι σ α β : Type} (c : Made ι σ α β) : List α := c.input.take c.result.consumed

/-- The calls of the loop, in order. -/
def calls (m : Machine mode β) (room : Nat) (s : m.State) (inp : List α) :
    List (Made ι m.State α β) :=
  let c := m.call s (mode inp) inp room
  ⟨mode inp, inp, room, c⟩
    :: if c.status = .ok then calls m room c.next (inp.drop c.consumed) else []
termination_by m.work s inp
decreasing_by exact m.work_call s inp room ‹_›

theorem calls_ok {room : Nat} {s : m.State} {inp : List α}
    (h : (m.call s (mode inp) inp room).status = .ok) :
    m.calls room s inp
      = ⟨mode inp, inp, room, m.call s (mode inp) inp room⟩
        :: m.calls room (m.call s (mode inp) inp room).next
            (inp.drop (m.call s (mode inp) inp room).consumed) := by
  rw [calls]
  simp only [h, if_true]

theorem calls_halt {room : Nat} {s : m.State} {inp : List α}
    (h : (m.call s (mode inp) inp room).status ≠ .ok) :
    m.calls room s inp = [⟨mode inp, inp, room, m.call s (mode inp) inp room⟩] := by
  rw [calls]
  simp only [h, if_false]

/-- **The loop collects what its calls wrote**, and ends with the code of the last
one, the only one that is not `ok`. -/
theorem pump_calls (room : Nat) :
    ∀ (s : m.State) (inp : List α) (output : List β), ∃ cs last,
      m.calls room s inp = cs ++ [last]
        ∧ (∀ c ∈ cs, c.result.status = .ok) ∧ last.result.status ≠ .ok
        ∧ m.pump room s inp output
          = (last.result.status,
              output ++ ((m.calls room s inp).map fun c => c.result.produced).flatten) := by
  intro s inp output
  induction s, inp, output using pump.induct m room with
  | case1 s inp output c output' hok ih =>
      have hok : (m.call s (mode inp) inp room).status = .ok := hok
      obtain ⟨cs, last, hcalls, hstatus, hlast, hpump⟩ := ih
      refine ⟨⟨mode inp, inp, room, m.call s (mode inp) inp room⟩ :: cs, last, ?_, ?_, hlast, ?_⟩
      · rw [calls_ok hok, List.cons_append]
        exact congrArg _ hcalls
      · intro d hd
        rcases List.mem_cons.mp hd with rfl | hd
        · exact hok
        · exact hstatus d hd
      · rw [pump, calls_ok hok, List.map_cons, List.flatten_cons, ← List.append_assoc]
        simp only [hok, if_true]
        exact hpump
  | case2 s inp output c hok =>
      have hok : (m.call s (mode inp) inp room).status ≠ .ok := hok
      refine ⟨[], ⟨mode inp, inp, room, m.call s (mode inp) inp room⟩, calls_halt hok, ?_, hok,
        ?_⟩
      · intro d hd
        exact nomatch hd
      · rw [pump, calls_halt hok]
        simp only [hok, if_false, List.map_cons, List.map_nil, List.flatten_cons,
          List.flatten_nil, List.append_nil]

end Machine

end Streaming
